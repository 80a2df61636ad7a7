import DiscoveryMetadata.Xml.Scope
/-
  Element trees: a name, attributes in order, text, child elements in order, and the namespace
  declarations that were written on the element. Comments and the place of the text among the
  children are not kept.
-/
namespace DiscoveryMetadata.Xml

/-- An attribute with its value. -/
structure Attribute where
  name : QName
  value : String
  deriving DecidableEq, Repr, Inhabited

/-- An element and all below it. -/
structure Element where
  name : QName
  attributes : List Attribute := []
  text : Option String := none
  children : List Element := []
  declared : Scope := {}
  deriving Repr, Inhabited

namespace Element

/-- The local name. -/
def localName (e : Element) : String := e.name.localName

/-- The namespace, empty if there is none. -/
def uri (e : Element) : String := e.name.uri.getD ""

/-- The name as it is written in the tag. -/
def writtenName (e : Element) : String := e.name.written

/-- The text, empty if there is none. -/
def content (e : Element) : String := e.text.getD ""

/-- The value of the attribute with this namespace and local name. -/
def attribute? (e : Element) (uri : Option String) (localName : String) : Option String :=
  (e.attributes.find? fun a => a.name.localName == localName && a.name.uri == uri).map (·.value)

/-- The value of an attribute in a namespace, empty if it is not there. -/
def attributeText (e : Element) (uri localName : String) : String :=
  (e.attribute? (some uri) localName).getD ""

/-- The attributes with `name` set to `value`, in its old place if it is among them. -/
def assign (name : QName) (value : String) : List Attribute → List Attribute
  | [] => [⟨name, value⟩]
  | a :: r => if a.name.sameExpanded name then { a with value } :: r else a :: assign name value r

/-- Sets an attribute. -/
def setAttribute (e : Element) (name : QName) (value : String) : Element :=
  { e with attributes := assign name value e.attributes }

/-- Sets the text. -/
def withText (e : Element) (text : String) : Element := { e with text := some text }

/-- Adds children after those that are there. -/
def add (e : Element) (children : List Element) : Element :=
  { e with children := e.children ++ children }

/-- The children with this name, in order. -/
def childrenNamed (e : Element) (uri localName : String) : List Element :=
  e.children.filter (·.name.isNamed uri localName)

/-- The first child with this name. -/
def child? (e : Element) (uri localName : String) : Option Element :=
  e.children.find? (·.name.isNamed uri localName)

/-- The texts of the children with this name. -/
def childTexts (e : Element) (uri localName : String) : List String :=
  (e.childrenNamed uri localName).map content

end Element

end DiscoveryMetadata.Xml
