import DiscoveryMetadata.Component.Basic
import DiscoveryMetadata.Xml.Reader
/-
  Extensible elements: elements of any namespace but those of DDMS, which a resource carries along
  as they are.
-/
namespace DiscoveryMetadata

open Xml (Element)

/-- An element from outside the DDMS schemas. -/
structure ExtensibleElement extends Base where
  deriving Inhabited

namespace ExtensibleElement

/-- Such elements are equal when they are written alike. -/
instance : BEq ExtensibleElement where
  beq a b := a.toBase == b.toBase && a.element.toXml == b.element.toXml

/-- The rules of such an element. -/
def rules (c : ExtensibleElement) : Outcome Unit :=
  forbid (Version.isDdmsUri c.element.uri)
    (.rule "Extensible elements cannot be defined in the DDMS namespace.")

/-- Reads such an element. -/
def ofElement (_ : Context) (v : Version) (e : Element) : Outcome ExtensibleElement := do
  let c : ExtensibleElement := ⟨⟨e, v, []⟩⟩
  c.check c.rules
  return c

/-- Reads such an element from its XML. -/
def ofXml (ctx : Context) (v : Version) (xml : String) : Outcome ExtensibleElement := do
  ofElement ctx v (← Element.ofXml xml)

instance : Component ExtensibleElement where
  base c := c.toBase
  security? _ := none
  lines _ _ _ := []
  output _ _ _ _ := ""

/-- The XML of such an element to be made. -/
structure Draft where
  version : Option Version := none
  xml : String := ""
  deriving BEq, Inhabited

instance : Buildable Draft ExtensibleElement where
  isEmpty d := Text.isBlank d.xml
  version? d := d.version
  build ctx v d := ofXml ctx v d.xml

/-- The draft that leads to the component again. -/
def toDraft (c : ExtensibleElement) : Draft := ⟨some c.version, c.element.toXml⟩

end ExtensibleElement

end DiscoveryMetadata
