import DiscoveryMetadata.Attributes.Security
/-
  Extensible attributes: attributes of other namespaces that a component carries along.
-/
namespace DiscoveryMetadata

open Xml (Element Attribute)

/-- The attributes from outside the schemas on one component. -/
structure ExtensibleAttributes where
  version : Version
  attributes : List Attribute := []
  deriving DecidableEq, Inhabited

namespace ExtensibleAttributes

/-- The attributes of the security markings that only a resource or a notice carries. -/
def ismNames : List String :=
  ["resourceElement", "createDate", "DESVersion", "noticeType", "noticeReason", "noticeDate",
   "unregisteredNoticeType", "externalNotice", "excludeFromRollup"]

/-- The schemas of the version give the attribute a meaning of its own. -/
def isReserved (v : Version) (uri localName : String) : Bool :=
  if uri == v.ismUri then SecurityAttributes.names.contains localName || ismNames.contains localName
  else v.atLeast .v4_0_1 && uri == Version.ntkUri && localName == "DESVersion"

/-- No attributes. -/
def empty (v : Version) : ExtensibleAttributes := ⟨v, []⟩

/-- There are no attributes. -/
def isEmpty (a : ExtensibleAttributes) : Bool := a.attributes.isEmpty

/-- The attribute comes from outside the schemas. -/
def isOutside (v : Version) (a : Attribute) : Bool :=
  match a.name.uri with
  | none => false
  | some uri =>
    uri != v.ddmsUri && uri != Xml.xmlNamespace && !isReserved v uri a.name.localName

/-- Reads the group from an element. -/
def ofElement (v : Version) (e : Element) : ExtensibleAttributes :=
  ⟨v, e.attributes.filter (isOutside v)⟩

/-- Refuses an attribute in no namespace or in that of DDMS. -/
def checkNamespace (v : Version) (a : Attribute) : Outcome Unit :=
  match a.name.uri with
  | none => .error (.rule "Extensible attributes must be in a namespace.")
  | some uri =>
    forbid (uri == v.ddmsUri) (.rule "Extensible attributes cannot be in the DDMS namespace.")

/-- Makes the group from attributes. -/
def ofList (v : Version) (attributes : List Attribute) : Outcome ExtensibleAttributes := do
  attributes.forM (checkNamespace v)
  return ⟨v, attributes⟩

/-- Puts one attribute on an element that does not have it yet. -/
def addOne (v : Version) (e : Element) (a : Attribute) : Outcome Element := do
  let uri := a.name.uri.getD ""
  let name := a.name.written
  forbid (isReserved v uri a.name.localName)
    (.rule s!"The extensible attribute with the name, {name}, is reserved by the schema.")
  forbid (e.attribute? (some uri) a.name.localName).isSome
    (.rule ("The extensible attribute with the name, " ++ name ++
      " conflicts with a pre-existing attribute on the element."))
  return { e with attributes := e.attributes ++ [a] }

/-- Puts the attributes on an element of a component, which must have the same version unless
there are none. -/
def addTo (v : Version) (a : ExtensibleAttributes) (e : Element) : Outcome Element :=
  if a.isEmpty then .ok e
  else if a.version ≠ v then .error (.mixedVersions "extensible")
  else a.attributes.foldlM (addOne v) e

/-- The lines of the group under a stem. -/
def lines (a : ExtensibleAttributes) (stem : String) : List Line :=
  a.attributes.flatMap fun x => Line.of (stem ++ x.name.localName) x.value

/-- The output of the group under a stem. -/
def output (html : Bool) (a : ExtensibleAttributes) (stem : String) : String :=
  Output.pairs html stem (a.attributes.map fun x => (x.name.localName, x.value))

end ExtensibleAttributes

end DiscoveryMetadata
