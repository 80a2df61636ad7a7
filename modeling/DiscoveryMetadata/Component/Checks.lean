import DiscoveryMetadata.Session
import DiscoveryMetadata.Xml.Element
/-
  Building the elements of components, finding their parts, and the checks that most of them share.
-/
namespace DiscoveryMetadata

open Xml (Element QName)

namespace Context

/-- A name among the DDMS elements. -/
def ddmsName (ctx : Context) (v : Version) (localName : String) : QName :=
  .prefixed ctx.prefixes.ddms v.ddmsUri localName

/-- A name among the security markings. -/
def ismName (ctx : Context) (v : Version) (localName : String) : QName :=
  .prefixed ctx.prefixes.ism v.ismUri localName

/-- A name of a schema that the version must have. -/
def nameIn (ctx : Context) (v : Version) (s : Schema) (localName : String) : Outcome QName := do
  return .prefixed (ctx.prefixes.of s) (← v.uriOf s) localName

/-- A DDMS element with nothing in it. -/
def ddmsElement (ctx : Context) (v : Version) (localName : String) : Element :=
  { name := ctx.ddmsName v localName }

/-- An element of a schema that the version must have. -/
def elementIn (ctx : Context) (v : Version) (s : Schema) (localName : String) :
    Outcome Element := do
  return { name := ← ctx.nameIn v s localName }

end Context

end DiscoveryMetadata

namespace DiscoveryMetadata.Xml.Element

/-- The element with an attribute set, unless the value is empty. -/
def put (e : Element) (name : QName) (value : String) : Element :=
  if value.isEmpty then e else e.setAttribute name value

/-- The element with its text set, unless the text is empty. -/
def putText (e : Element) (text : String) : Element :=
  if text.isEmpty then e else e.withText text

/-- The value of an attribute in the element's own namespace, empty if it is not there. -/
def own (e : Element) (localName : String) : String := e.attributeText e.uri localName

/-- The children with a name in the element's own namespace. -/
def ownChildren (e : Element) (localName : String) : List Element := e.childrenNamed e.uri localName

/-- The first child with a name in the element's own namespace. -/
def ownChild? (e : Element) (localName : String) : Option Element := e.child? e.uri localName

/-- The text of the first child with a name in the element's own namespace. -/
def ownText (e : Element) (localName : String) : String :=
  ((e.ownChild? localName).map content).getD ""

/-- The name of a child with this local name, written with the element's own prefix. -/
def childName (e : Element) (localName : String) : String :=
  match e.name.nsPrefix with
  | some p => p ++ ":" ++ localName
  | none => localName

/-- Before version 4.0.1, the child that wraps the content of the element. -/
def wrapper? (e : Element) (v : Version) (localName : String) : Option Element :=
  if v.atLeast .v4_0_1 then none else e.ownChild? localName

/-- The element that holds the content: before version 4.0.1 a wrapper inside it, then itself. -/
def holder? (e : Element) (v : Version) (wrapper : String) : Option Element :=
  if v.atLeast .v4_0_1 then some e else e.wrapper? v wrapper

end DiscoveryMetadata.Xml.Element

namespace DiscoveryMetadata

open Xml (Element QName)

namespace Context

/-- A DDMS element that holds a text. -/
def textElement (ctx : Context) (v : Version) (localName text : String) : Element :=
  (ctx.ddmsElement v localName).putText text

/-- A DDMS element that holds a text, unless the text is empty. -/
def textElements (ctx : Context) (v : Version) (localName text : String) : List Element :=
  if text.isEmpty then [] else [ctx.textElement v localName text]

/-- Adds content to an element; before version 4.0.1 in a wrapper. -/
def addWrapped (ctx : Context) (v : Version) (wrapper : String) (content : List Element)
    (e : Element) : Element :=
  if v.atLeast .v4_0_1 then e.add content
  else e.add [(ctx.ddmsElement v wrapper).add content]

/-- Adds an attribute of a schema that the version must have, unless the value is empty. -/
def putIn (ctx : Context) (v : Version) (s : Schema) (localName value : String) (e : Element) :
    Outcome Element :=
  if value.isEmpty then .ok e
  else do return e.setAttribute (← ctx.nameIn v s localName) value

end Context

/-- A fault in the content of an element, seen from the element itself: a wrapper shows on the
way. -/
def withinHolder {α : Type} (holder : Element) (wrapper : String) (r : Outcome α) : Outcome α :=
  if holder.localName == wrapper then within holder.writtenName r else r

/-- No bound on how many there are. -/
def unlimited : Nat := Nat.pow 2 64 - 1

/-- The ending of a word that counts `n` things. -/
def plural (n : Nat) : String := if n = 1 then "" else "s"

/-- What is said of a number of elements that is not between the bounds. -/
def miscounted (name : String) (low high : Nat) : Fault :=
  if low = high then .rule s!"Exactly {high} {name} element{plural high} must exist."
  else if low = 0 then .rule s!"No more than {high} {name} element{plural high} can exist."
  else if high = unlimited then .rule s!"At least {low} {name} element{plural low} must exist."
  else .rule s!"The number of {name} elements must be between {low} and {high}."

/-- Refuses a number of elements that is not between the bounds. -/
def requireCount (name : String) (count low high : Nat) : Outcome Unit :=
  demand (low ≤ count && count ≤ high) (miscounted name low high)

/-- Refuses an element with too few or too many children of a name. -/
def requireChildren (e : Element) (localName : String) (low high : Nat) : Outcome Unit :=
  requireCount (e.childName localName) (e.ownChildren localName).length low high

/-- Refuses a value that is blank. -/
def requireValue (name value : String) : Outcome Unit :=
  forbid (Text.isBlank value) (.required name)

/-- Refuses a subject that the version does not have yet. -/
def requireVersion (v minimum : Version) (subject : String) : Outcome Unit :=
  demand (v.atLeast minimum) (.tooEarly subject minimum.number)

/-- Refuses an element that is not in the DDMS namespace of the version. -/
def requireDdmsUri (e : Element) (v : Version) : Outcome Unit :=
  demand (e.name.uri == some v.ddmsUri) (.unexpectedName e.name.clark)

/-- Refuses an element that is not the DDMS element of this name. -/
def requireDdms (e : Element) (v : Version) (localName : String) : Outcome Unit :=
  demand (e.name.isNamed v.ddmsUri localName) (.unexpectedName e.name.clark)

/-- Refuses an element that is not of this name in a schema of the version. -/
def requireIn (e : Element) (v : Version) (s : Schema) (localName : String) : Outcome Unit := do
  let uri ← v.uriOf s
  demand (e.name.isNamed uri localName) (.unexpectedName e.name.clark)

/-- Applies a check to a text unless it is empty. -/
def ifPresent (text : String) (check : String → Outcome Unit) : Outcome Unit :=
  if text.isEmpty then .ok () else check text

end DiscoveryMetadata
