import DiscoveryMetadata.Text.Escape
import DiscoveryMetadata.Xml.Element
/-
  Writing an element tree.

  A namespace declaration is written on an element only if the binding in force there differs
  from the one the element needs. What an element needs is taken in this order: its own name, the
  prefixes declared on it, the default namespace declared on it, its attributes. The text stands
  before the children. An element with neither is written as one empty tag.
-/
namespace DiscoveryMetadata.Xml

/-- One declaration: a prefix, or none for the default namespace, and what it is bound to. -/
structure Declaration where
  nsPrefix : Option String
  uri : String
  deriving DecidableEq, Repr, Inhabited

namespace Declaration

/-- The declaration already holds in the scope. -/
def holdsIn (d : Declaration) (s : Scope) : Bool :=
  match d.nsPrefix with
  | none => s.defaultUri == some d.uri
  | some p => p == "xml" || s.lookup p == some d.uri

/-- The scope with the declaration made. -/
def extend (d : Declaration) (s : Scope) : Scope :=
  match d.nsPrefix with
  | none => s.withDefault d.uri
  | some p => s.bind p d.uri

/-- The declaration as it is written in a tag, with the blank before it. -/
def written (d : Declaration) : List Char :=
  let name := match d.nsPrefix with
    | none => " xmlns=\""
    | some p => " xmlns:" ++ p ++ "=\""
  (name ++ Text.escape d.uri).toList ++ ['"']

end Declaration

/-- The bindings that the names on an element rely on, in the order in which they are looked at. -/
def Element.needs (e : Element) : List Declaration :=
  (e.name.uri.map fun u => ⟨e.name.nsPrefix, u⟩).toList ++
  e.declared.bindings.map (fun (p, u) => ⟨some p, u⟩) ++
  (e.declared.defaultUri.map fun u => ⟨none, u⟩).toList ++
  e.attributes.filterMap fun a =>
    match a.name.nsPrefix, a.name.uri with
    | some p, some u => some ⟨some p, u⟩
    | _, _ => none

/-- The declarations to write for these needs, and the scope they lead to. -/
def declare (s : Scope) : List Declaration → List Declaration × Scope
  | [] => ([], s)
  | d :: r =>
    if d.holdsIn s then declare s r
    else
      let (ds, inside) := declare (d.extend s) r
      (d :: ds, inside)

/-- An attribute as it is written in a tag, with the blank before it. -/
def Attribute.written (a : Attribute) : List Char :=
  (" " ++ a.name.written ++ "=\"" ++ Text.escape a.value).toList ++ ['"']

mutual
/-- The text of an element where `outer` is in force. -/
def Element.write (outer : Scope) : Element → List Char
  | ⟨name, attributes, text, children, declared⟩ =>
    let (declarations, inside) :=
      declare outer (Element.needs ⟨name, attributes, text, [], declared⟩)
    let opening := '<' :: name.written.toList ++ declarations.flatMap Declaration.written ++
      attributes.flatMap Attribute.written
    let content := text.getD ""
    if content.isEmpty && children.isEmpty then opening ++ [' ', '/', '>']
    else opening ++ '>' :: (Text.escapeContent content).toList ++ writeAll inside children ++
      '<' :: '/' :: name.written.toList ++ ['>']

/-- The texts of the elements, one after the other. -/
def writeAll (outer : Scope) : List Element → List Char
  | [] => []
  | e :: r => e.write outer ++ writeAll outer r
end

/-- The text of an element that stands on its own. -/
def Element.toXml (e : Element) : String := String.ofList (e.write .empty)

end DiscoveryMetadata.Xml
