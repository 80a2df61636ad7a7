import DiscoveryMetadata.Xml.Event
import DiscoveryMetadata.Xml.Tag
/-
  Reading an element tree from a document.

  Events are taken one after the other with a stack of the elements that are still open. Each text
  and each verbatim section that is not blank is added to the text of the innermost open element.
  A closing tag must carry the name, as written, of the innermost open element. An element that
  closes with nothing open around it is the root; if there are several, the last one is.
-/
namespace DiscoveryMetadata.Xml

/-- An element that has been opened, its name as written, and the scope inside it. -/
structure OpenElement where
  element : Element
  written : List Char
  scope : Scope
  deriving Inhabited

namespace Reader

/-- A tag or a reference cannot be read, or tags do not match. -/
def malformed : Fault := .xml "Error parsing XML"

/-- Character data holds a reference that names nothing. -/
def unreadable : Fault := .xml "Failed to unescape text"

/-- Adds character data to an element, unless it is blank. -/
def appendText (cs : List Char) (e : Element) : Element :=
  if cs.all Text.isSpace then e
  else { e with text := some (e.text.getD "" ++ String.ofList cs) }

/-- Adds a finished element to the one that is open around it, or makes it the root. -/
def place (e : Element) (root : Option Element) :
    List OpenElement → List OpenElement × Option Element
  | [] => ([], some e)
  | o :: os => ({ o with element := o.element.add [e] } :: os, root)

/-- Takes the events with the open elements, innermost first, and the root found so far. -/
def run : List OpenElement → Option Element → List Event → Outcome (Option Element)
  | [], root, [] => .ok root
  | _ :: _, _, [] => .error (.xml "Unexpected end of document")
  | _, _, .malformed :: _ => .error malformed
  | stack, root, .opening name attributes closed :: r => do
    let outer := match stack with
      | o :: _ => o.scope
      | [] => .empty
    let (e, scope) ← Element.ofTag outer name attributes
    if closed then
      let (stack, root) := place e root stack
      run stack root r
    else run (⟨e, name, scope⟩ :: stack) root r
  | [], _, .closing _ :: _ => .error malformed
  | o :: os, root, .closing name :: r =>
    if o.written = name then
      let (stack, root) := place o.element root os
      run stack root r
    else .error malformed
  | [], root, .text _ :: r => run [] root r
  | o :: os, root, .text raw :: r =>
    match Text.unescape raw with
    | none => .error unreadable
    | some cs => run ({ o with element := appendText cs o.element } :: os) root r
  | [], root, .verbatim _ :: r => run [] root r
  | o :: os, root, .verbatim cs :: r =>
    run ({ o with element := appendText cs o.element } :: os) root r

end Reader

/-- The root of a document, if it has one. -/
def readDocument (xml : String) : Outcome (Option Element) :=
  Reader.run [] none (Event.ofDocument xml)

/-- The root of a document. -/
def Element.ofXml (xml : String) : Outcome Element := do
  match ← readDocument xml with
  | some e => return e
  | none => throw (.xml "XML document has no root element")

end DiscoveryMetadata.Xml
