/-
  Faults: why a document, a value or a request was refused.

  A fault of a component carries a locator, the chain of element names that leads to it. The
  locator is put together from the inside outwards: each enclosing component adds its own name
  with `within`. The other kinds carry no locator and pass through `within` unchanged.

  The sentences that several rules share are named here, so that their wording stands in one
  place.
-/
namespace DiscoveryMetadata

/-- What went wrong, by kind, with the sentence that says it. -/
inductive Fault where
  /-- A component breaks a rule; the locator says where. -/
  | invalid (message : String) (locator : Option String)
  /-- A version or namespace that is not known. -/
  | unsupported (message : String)
  /-- A request that makes no sense for any document. -/
  | illegalArgument (message : String)
  /-- A configuration or vocabulary that cannot be used. -/
  | configuration (message : String)
  /-- Text that is not the XML it should be. -/
  | xml (message : String)
  /-- A file that could not be read or written. -/
  | io (message : String)
  deriving DecidableEq, Repr, Inhabited

/-- A value, or the reason why there is none. -/
abbrev Outcome (α : Type) := Except Fault α

namespace Fault

/-- The sentence, without its locator. -/
def message : Fault → String
  | invalid m _ | unsupported m | illegalArgument m | configuration m | xml m | io m => m

/-- Where the fault lies; only a fault of a component has a place. -/
def locator : Fault → Option String
  | invalid _ l => l
  | _ => none

/-- The fault seen from the enclosing element `name`. An empty name adds nothing. -/
def locate (name : String) : Fault → Fault
  | invalid m l => if name.isEmpty then invalid m l else invalid m (some ("/" ++ name ++ l.getD ""))
  | f => f

/-- The words that say which kind of fault this is. -/
def heading : Fault → String
  | invalid .. => "invalid component"
  | unsupported .. => "unsupported version"
  | illegalArgument .. => "illegal argument"
  | configuration .. => "configuration error"
  | xml .. => "XML error"
  | io .. => "I/O error"

/-- The fault as one text for a reader: kind, sentence and, on a paragraph of its own, the place. -/
def describe (f : Fault) : String :=
  let place := match f.locator with
    | some l => "\n\nPath: " ++ l
    | none => ""
  f.heading ++ ": " ++ f.message ++ place

/-- A rule is broken, at a place not yet known. -/
def rule (sentence : String) : Fault := .invalid sentence none

/-- A value that must be there is blank. -/
def required (name : String) : Fault := rule s!"{name} is required."

/-- An element, or part of one, is used in a version that does not have it yet. -/
def tooEarly (subject minimum : String) : Fault :=
  rule s!"The {subject} cannot be used until DDMS {minimum} or later."

/-- An element has another name than the component read from it. -/
def unexpectedName (clark : String) : Fault :=
  rule s!"Unexpected namespace URI and local name encountered: {clark}"

/-- An attribute holds something else than a boolean. -/
def notBoolean (name : String) : Fault := rule s!"The {name} attribute must be a boolean."

/-- An attribute holds something else than a calendar date. -/
def notDate (subject : String) : Fault :=
  rule s!"The {subject} must be in the xs:date format (YYYY-MM-DD)."

/-- A value is none of the few that are allowed. -/
def notOneOf (name : String) (allowed : List String) : Fault :=
  rule ("The " ++ name ++ " attribute must be one of " ++ ", ".intercalate allowed)

/-- A group of attributes is put on an element of another version. -/
def mixedVersions (group : String) : Fault :=
  rule s!"These {group} attributes cannot decorate a DDMS component with a different DDMS version."

/-- Security attributes stand on a component that does not take them yet. -/
def securityTooEarly (minimum : String) : Fault :=
  rule s!"Security attributes cannot be applied to this component until DDMS {minimum} or later."

end Fault

/-- The outcome as seen from the enclosing element `name`. -/
def within {α : Type} (name : String) : Outcome α → Outcome α
  | .ok a => .ok a
  | .error f => .error (f.locate name)

/-- Refuses with `f` unless the condition holds. -/
def demand (condition : Bool) (f : Fault) : Outcome Unit :=
  if condition then .ok () else .error f

/-- Refuses with `f` if the condition holds. -/
def forbid (condition : Bool) (f : Fault) : Outcome Unit :=
  if condition then .error f else .ok ()

end DiscoveryMetadata
