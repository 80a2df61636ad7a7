import DiscoveryMetadata.Fault
import DiscoveryMetadata.Xml.QName
/-
  Namespace scopes: which namespace each prefix stands for, and the default namespace.

  A scope keeps its prefixes in the order in which they were first bound. Binding a prefix again
  changes its namespace and leaves its place.
-/
namespace DiscoveryMetadata.Xml

/-- The bindings in force at some place of a document, or those declared by one tag. -/
structure Scope where
  bindings : List (String × String) := []
  defaultUri : Option String := none
  deriving DecidableEq, Repr, Inhabited

/-- The bindings with `nsPrefix` bound to `uri`. -/
def rebind (nsPrefix uri : String) : List (String × String) → List (String × String)
  | [] => [(nsPrefix, uri)]
  | (p, u) :: r => if p = nsPrefix then (p, uri) :: r else (p, u) :: rebind nsPrefix uri r

/-- The text before the first character `mark` and the text after it, if there is one. -/
def splitAt? (mark : Char) : List Char → Option (List Char × List Char)
  | [] => none
  | c :: r => if c = mark then some ([], r) else (splitAt? mark r).map fun (a, b) => (c :: a, b)

namespace Scope

/-- No bindings at all. -/
def empty : Scope := {}

/-- Binds a prefix. -/
def bind (s : Scope) (nsPrefix uri : String) : Scope :=
  { s with bindings := rebind nsPrefix uri s.bindings }

/-- Sets the default namespace. -/
def withDefault (s : Scope) (uri : String) : Scope := { s with defaultUri := some uri }

/-- The namespace of a prefix. The prefix `xml` has always the same one. -/
def lookup (s : Scope) (nsPrefix : String) : Option String :=
  if nsPrefix = "xml" then some xmlNamespace else s.bindings.lookup nsPrefix

/-- Nothing is bound. -/
def isEmpty (s : Scope) : Bool := s.bindings.isEmpty && s.defaultUri.isNone

/-- The scope inside a tag with the given declarations. -/
def inner (outer declared : Scope) : Scope :=
  { bindings := declared.bindings.foldl (fun b (p, u) => rebind p u b) outer.bindings
    defaultUri := declared.defaultUri <|> outer.defaultUri }

/-- The name that a written name stands for, where `unprefixed` is the namespace of a name that
has no prefix. -/
def resolve (s : Scope) (unprefixed : Option String) (written : String) : Outcome QName :=
  match splitAt? ':' written.toList with
  | none => .ok ⟨unprefixed, written, none⟩
  | some (p, l) =>
    let nsPrefix := String.ofList p
    match s.lookup nsPrefix with
    | none => .error (.xml s!"Unknown prefix: {nsPrefix}")
    | some uri => .ok (.prefixed nsPrefix uri (String.ofList l))

/-- The name of an element; without a prefix it is in the default namespace. -/
def resolveElement (s : Scope) (written : String) : Outcome QName := s.resolve s.defaultUri written

/-- The name of an attribute; without a prefix it is in no namespace. -/
def resolveAttribute (s : Scope) (written : String) : Outcome QName := s.resolve none written

end Scope

end DiscoveryMetadata.Xml
