import DiscoveryMetadata.Text.Escape
/-
  The lines that describe a component to a reader: names with their contents.

  There are two ways to write a line: as plain text, and as an HTML element. A name is built from
  the names of the enclosing components and, where there are several of a kind, an index.

  A component writes its entries one after the other in the format that is asked for (`Output`).
  Its lines are the same entries as data, whatever the format.
-/
namespace DiscoveryMetadata

/-- A name with its content. -/
structure Line where
  name : String
  content : String
  deriving DecidableEq, Repr, Inhabited

namespace Line

/-- The line as plain text. -/
def text (l : Line) : String := l.name ++ ": " ++ l.content ++ "\n"

/-- The line as an HTML element. -/
def html (l : Line) : String :=
  "<meta name=\"" ++ l.name ++ "\" content=\"" ++ Text.escape l.content ++ "\" />\n"

/-- All lines as plain text. -/
def allText (ls : List Line) : String := String.join (ls.map text)

/-- All lines as HTML elements. -/
def allHtml (ls : List Line) : String := String.join (ls.map html)

/-- The line of a content, or none where the content is empty. -/
def of (name content : String) : List Line := if content.isEmpty then [] else [⟨name, content⟩]

/-- The index of one of `total`, counted from one; a single one has no index. -/
def index (i total : Nat) : String :=
  if 1 < total then "[" ++ toString (i + 1) ++ "]" else ""

/-- The lines of several contents under one name. -/
def ofAll (name : String) (contents : List String) : List Line :=
  contents.zipIdx.flatMap fun (c, i) => of (name ++ index i contents.length) c

end Line

namespace Output

/-- An entry in HTML or in plain text, even if its content is empty. -/
def always (html : Bool) (name content : String) : String :=
  if html then "<meta name=\"" ++ name ++ "\" content=\"" ++ Text.escape content ++ "\" />\n"
  else name ++ ": " ++ content ++ "\n"

/-- An entry, or nothing where the content is empty. -/
def entry (html : Bool) (name content : String) : String :=
  if content.isEmpty then "" else always html name content

/-- An entry for each of several contents under one name. -/
def entries (html : Bool) (name : String) (contents : List String) : String :=
  String.join (contents.zipIdx.map fun (c, i) =>
    entry html (name ++ Line.index i contents.length) c)

/-- The entries of several named contents under a stem. -/
def pairs (html : Bool) (stem : String) (contents : List (String × String)) : String :=
  String.join (contents.map fun (name, c) => entry html (stem ++ name) c)

end Output

end DiscoveryMetadata
