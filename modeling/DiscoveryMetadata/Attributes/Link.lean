import DiscoveryMetadata.Component.Checks
import DiscoveryMetadata.Component.Line
import DiscoveryMetadata.Uri
/-
  Attributes that make an element a link: where it leads and how it is to be followed.
-/
namespace DiscoveryMetadata

open Xml (Element)

/-- The link attributes of one component. -/
structure LinkAttributes where
  linkType : String := ""
  href : String := ""
  role : String := ""
  title : String := ""
  label : String := ""
  arcrole : String := ""
  show_ : String := ""
  actuate : String := ""
  deriving DecidableEq, Inhabited

namespace LinkAttributes

/-- The types of links. -/
def types : List String := ["locator", "simple", "resource"]

/-- Where a link can open. -/
def showTypes : List String := ["new", "replace", "embed", "other", "none"]

/-- When a link can open. -/
def actuateTypes : List String := ["onLoad", "onRequest", "other", "none"]

/-- Refuses a value that is none of those allowed; an empty one passes. -/
def checkOneOf (name : String) (allowed : List String) (value : String) : Outcome Unit :=
  ifPresent value fun t => demand (allowed.contains t) (.notOneOf name allowed)

/-- The rules of a version. Before version 4.0.1 role and label are free. -/
def check (v : Version) (a : LinkAttributes) : Outcome Unit := do
  checkOneOf "type" types a.linkType
  ifPresent a.href Uri.check
  if v.atLeast .v4_0_1 then
    ifPresent a.role Uri.check
    ifPresent a.label Text.checkNCName
  ifPresent a.arcrole Uri.check
  checkOneOf "show" showTypes a.show_
  checkOneOf "actuate" actuateTypes a.actuate

/-- The group with these values, which must keep the rules of the version. -/
def checked (v : Version) (a : LinkAttributes) : Outcome LinkAttributes := do
  a.check v
  return a

/-- A link to another place. -/
def locator (v : Version) (href role title label : String) : Outcome LinkAttributes :=
  checked v { linkType := "locator", href, role, title, label }

/-- A link that is followed by itself. -/
def simple (v : Version) (href role title arcrole showIn actuate : String) :
    Outcome LinkAttributes :=
  checked v { linkType := "simple", href, role, title, arcrole, show_ := showIn, actuate }

/-- A resource that links lead to. -/
def resource (v : Version) (role title label : String) : Outcome LinkAttributes :=
  checked v { linkType := "resource", role, title, label }

/-- Reads the group from an element. -/
def ofElement (v : Version) (e : Element) : Outcome LinkAttributes :=
  let text := e.attributeText Version.xlinkUri
  checked v ⟨text "type", text "href", text "role", text "title", text "label", text "arcrole",
    text "show", text "actuate"⟩

/-- The attributes with their values. -/
def pairs (a : LinkAttributes) : List (String × String) :=
  [("type", a.linkType), ("href", a.href), ("role", a.role), ("title", a.title),
   ("label", a.label), ("arcrole", a.arcrole), ("show", a.show_), ("actuate", a.actuate)]

/-- There are no attributes. -/
def isEmpty (a : LinkAttributes) : Bool := a.pairs.all (·.2.isEmpty)

/-- Puts the attributes on an element. -/
def addTo (ctx : Context) (a : LinkAttributes) (e : Element) : Element :=
  let name := Xml.QName.prefixed ctx.prefixes.xlink Version.xlinkUri
  a.pairs.foldl (fun e (n, value) => e.put (name n) value) e

/-- The lines of the group under a stem. -/
def lines (a : LinkAttributes) (stem : String) : List Line :=
  a.pairs.flatMap fun (name, value) => Line.of (stem ++ name) value

/-- The output of the group under a stem. -/
def output (html : Bool) (a : LinkAttributes) (stem : String) : String :=
  Output.pairs html stem a.pairs

end LinkAttributes

end DiscoveryMetadata
