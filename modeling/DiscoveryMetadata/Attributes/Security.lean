import DiscoveryMetadata.Calendar
import DiscoveryMetadata.Component.Checks
import DiscoveryMetadata.Component.Line
import DiscoveryMetadata.Text.Basic
/-
  Security attributes: the classification markings that a component can carry.

  Each attribute has a definition: the form of its value, the vocabulary its tokens come from, and
  the versions that have it. A group keeps its attributes in the order of the definitions, so two
  groups with the same attributes are equal whatever order they were given in.
-/
namespace DiscoveryMetadata

open Xml (Element)

namespace SecurityAttributes

/-- The form of a value. -/
inductive Form where
  | text
  | token
  | tokens
  | date
  | truth
  deriving DecidableEq, Repr

/-- What is laid down about one attribute. -/
structure Definition where
  name : String
  form : Form
  vocabulary : Option String
  since : Version
  until_ : Option Version
  deriving DecidableEq, Repr

open Vocabulary in
/-- All security attributes. -/
def definitions : List Definition :=
  [⟨"atomicEnergyMarkings", .tokens, some Key.atomicEnergy, .v3_1, none⟩,
   ⟨"classification", .token, some Key.classification, .v2_0, none⟩,
   ⟨"classificationReason", .text, none, .v2_0, none⟩,
   ⟨"classifiedBy", .text, none, .v2_0, none⟩,
   ⟨"compilationReason", .text, none, .v3_0, none⟩,
   ⟨"compliesWith", .tokens, some Key.compliesWith, .v3_1, none⟩,
   ⟨"dateOfExemptedSource", .date, none, .v2_0, some .v3_0⟩,
   ⟨"declassDate", .date, none, .v2_0, none⟩,
   ⟨"declassEvent", .text, none, .v2_0, none⟩,
   ⟨"declassException", .token, some Key.declassException, .v2_0, none⟩,
   ⟨"declassManualReview", .truth, none, .v2_0, some .v2_0⟩,
   ⟨"derivativelyClassifiedBy", .text, none, .v2_0, none⟩,
   ⟨"derivedFrom", .text, none, .v2_0, none⟩,
   ⟨"displayOnlyTo", .tokens, some Key.releasableTo, .v3_1, none⟩,
   ⟨"disseminationControls", .tokens, some Key.dissemination, .v2_0, none⟩,
   ⟨"FGIsourceOpen", .tokens, some Key.fgiOpen, .v2_0, none⟩,
   ⟨"FGIsourceProtected", .tokens, some Key.fgiProtected, .v2_0, none⟩,
   ⟨"nonICmarkings", .tokens, some Key.nonIc, .v2_0, none⟩,
   ⟨"nonUSControls", .tokens, some Key.nonUsControls, .v3_1, none⟩,
   ⟨"ownerProducer", .tokens, some Key.ownerProducer, .v2_0, none⟩,
   ⟨"releasableTo", .tokens, some Key.releasableTo, .v2_0, none⟩,
   ⟨"SARIdentifier", .tokens, some Key.sar, .v2_0, none⟩,
   ⟨"SCIcontrols", .tokens, some Key.sciControls, .v2_0, none⟩,
   ⟨"typeOfExemptedSource", .token, some Key.sourceMarked, .v2_0, some .v3_0⟩]

/-- The names of all security attributes. -/
def names : List String := definitions.map (·.name)

namespace Definition

/-- The attribute is not used in a version that does not have it. -/
def checkVersion (d : Definition) (v : Version) : Outcome Unit := do
  requireVersion v d.since (d.name ++ " attribute")
  match d.until_ with
  | none => return ()
  | some last =>
    if last.atLeast v then return ()
    else if last = .v2_0 then
      throw (.rule s!"The {d.name} attribute can only be used in DDMS 2.0.")
    else throw (.rule s!"The {d.name} attribute cannot be used after DDMS {last.number}.")

/-- The value has the form of the attribute. -/
def checkForm (d : Definition) (value : String) : Outcome Unit :=
  match d.form with
  | .date => demand (Calendar.isDate value) (.notDate d.name)
  | .truth => demand (Text.truth? value).isSome (.notBoolean d.name)
  | _ => .ok ()

/-- The tokens of a value. Version 2.0 takes several where later versions take one. -/
def tokensOf (d : Definition) (v : Version) (value : String) : List String :=
  if d.form = .tokens || v = .v2_0 then Text.words value else [value]

/-- Checks a value of the attribute and gives the warnings about it. -/
def check (ctx : Context) (v : Version) (d : Definition) (value : String) :
    Outcome (List Finding) := do
  d.checkVersion v
  d.checkForm value
  match d.vocabulary with
  | some key => ctx.checkTokens key v (d.tokensOf v value)
  | none => return []

end Definition

end SecurityAttributes

/-- The security attributes of one component, in the order of their definitions. -/
structure SecurityAttributes where
  version : Version
  values : List (String × String) := []
  warnings : List Finding := []
  deriving Inhabited

namespace SecurityAttributes

instance : BEq SecurityAttributes := ⟨fun a b => a.values == b.values⟩

/-- No attributes. -/
def empty (v : Version) : SecurityAttributes := ⟨v, [], []⟩

/-- The values that `find` gives, in the order of the definitions. -/
def collect (find : String → Option String) : List (String × String) :=
  definitions.filterMap fun d => (find d.name).map fun value => (d.name, value)

/-- Checks each value against the definition of its attribute and gives the warnings. -/
def check (ctx : Context) (v : Version) (values : List (String × String)) :
    Outcome (List Finding) := do
  let found ← definitions.mapM fun d =>
    match values.lookup d.name with
    | some value => d.check ctx v value
    | none => .ok []
  return found.flatten

/-- The group of these values, which stand in the order of the definitions. -/
def checked (ctx : Context) (v : Version) (values : List (String × String)) :
    Outcome SecurityAttributes := do
  let warnings ← check ctx v values
  return ⟨v, values, warnings⟩

/-- Reads the group from an element. -/
def ofElement (ctx : Context) (v : Version) (e : Element) : Outcome SecurityAttributes :=
  checked ctx v (collect fun name => e.attribute? (some v.ismUri) name)

/-- Refuses a name that is not a security attribute. -/
def requireKnown (name : String) : Outcome Unit :=
  demand (names.contains name) (.illegalArgument s!"{name} is not a security attribute.")

/-- The value that counts under a name: the last of those that are not empty. -/
def lastValue (given : List (String × String)) (name : String) : Option String :=
  ((given.filter fun (n, value) => n == name && !value.isEmpty).getLast?).map (·.2)

/-- Makes the group from names and values; empty values count as absent, and of several values of
one name the last counts. -/
def ofValues (ctx : Context) (v : Version) (given : List (String × String)) :
    Outcome SecurityAttributes := do
  given.forM fun (name, _) => requireKnown name
  checked ctx v (collect (lastValue given))

/-- The group that holds a classification and its owners. -/
def classified (ctx : Context) (v : Version) (classification : String) (owners : List String) :
    Outcome SecurityAttributes :=
  ofValues ctx v [("classification", classification), ("ownerProducer", Text.unwords owners)]

/-- There are no attributes. -/
def isEmpty (a : SecurityAttributes) : Bool := a.values.isEmpty

/-- The value of an attribute, empty if it is not there. -/
def get (a : SecurityAttributes) (name : String) : String := (a.values.lookup name).getD ""

/-- The classification, empty if there is none. -/
def classification (a : SecurityAttributes) : String := a.get "classification"

/-- The owners and producers. -/
def owners (a : SecurityAttributes) : List String := Text.words (a.get "ownerProducer")

/-- Refuses a group without classification or owner. -/
def requireClassification (a : SecurityAttributes) : Outcome Unit := do
  requireValue "classification" a.classification
  forbid a.owners.isEmpty (.rule "At least 1 ownerProducer must be set.")

/-- Puts the attributes on an element of a component, which must have the same version. -/
def addTo (ctx : Context) (v : Version) (a : SecurityAttributes) (e : Element) :
    Outcome Element := do
  demand (a.version == v) (.mixedVersions "security")
  return a.values.foldl (fun e (name, value) => e.setAttribute (ctx.ismName v name) value) e

/-- The lines of the group under a stem. -/
def lines (a : SecurityAttributes) (stem : String) : List Line :=
  a.values.flatMap fun (name, value) => Line.of (stem ++ name) value

/-- The output of the group under a stem. -/
def output (html : Bool) (a : SecurityAttributes) (stem : String) : String :=
  Output.pairs html stem a.values

/-- Values on the way to a group, in the order in which they were first set. -/
structure Draft where
  version : Option Version := none
  values : List (String × String) := []
  deriving Inhabited

namespace Draft

/-- The values of both drafts are the same, in whatever order. -/
def sameValues (a b : List (String × String)) : Bool :=
  a.length == b.length && a.all fun (name, value) => b.lookup name == some value

instance : BEq Draft := ⟨fun a b => a.version == b.version && sameValues a.values b.values⟩

/-- Sets a value, in its old place if there is one. -/
def set (d : Draft) (name value : String) : Draft :=
  { d with values := Xml.rebind name value d.values }

/-- The values that count are all blank. -/
def isEmpty (d : Draft) : Bool :=
  d.values.all fun (name, _) => Text.isBlank ((lastValue d.values name).getD "")

/-- Makes the group. -/
def commitAs (ctx : Context) (v : Version) (d : Draft) : Outcome SecurityAttributes :=
  ofValues ctx v d.values

/-- Makes the group for the draft's own version, or for the current one. -/
def commit (ctx : Context) (d : Draft) : Outcome SecurityAttributes :=
  d.commitAs ctx (d.version.getD ctx.current)

end Draft

/-- The draft that leads to the group again. -/
def toDraft (a : SecurityAttributes) : Draft := ⟨some a.version, a.values⟩

end SecurityAttributes

end DiscoveryMetadata
