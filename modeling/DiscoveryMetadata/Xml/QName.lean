/-
  Names of elements and attributes: a local name, the namespace it belongs to, and the prefix it
  is written with. Two names mean the same thing when namespace and local name agree; the prefix
  only matters for writing.
-/
namespace DiscoveryMetadata.Xml

/-- The namespace that the prefix `xml` is always bound to. -/
def xmlNamespace : String := "http://www.w3.org/XML/1998/namespace"

/-- A name as it stands in a document. -/
structure QName where
  uri : Option String
  localName : String
  nsPrefix : Option String
  deriving DecidableEq, Repr, Inhabited

namespace QName

/-- A name in no namespace. -/
def unqualified (localName : String) : QName := ⟨none, localName, none⟩

/-- A name in a namespace; an empty prefix means none. -/
def prefixed (nsPrefix uri localName : String) : QName :=
  ⟨some uri, localName, if nsPrefix.isEmpty then none else some nsPrefix⟩

/-- The name is `localName` in the namespace `uri`. -/
def isNamed (q : QName) (uri localName : String) : Bool :=
  q.localName == localName && q.uri == some uri

/-- Both names have the same namespace and local name. -/
def sameExpanded (a b : QName) : Bool := a.uri == b.uri && a.localName == b.localName

/-- The name as it is written in a tag. -/
def written (q : QName) : String :=
  match q.nsPrefix with
  | some p => p ++ ":" ++ q.localName
  | none => q.localName

/-- The name with its namespace in braces, whatever its prefix. -/
def clark (q : QName) : String :=
  match q.uri with
  | some u => "\x7b" ++ u ++ "\x7d" ++ q.localName
  | none => q.localName

end QName

end DiscoveryMetadata.Xml
