import DiscoveryMetadata.Text.Basic
import DiscoveryMetadata.Text.Escape
import DiscoveryMetadata.Xml.Element
/-
  The inside of an opening tag: attributes and namespace declarations.

  An attribute is a raw name, an equals sign and a value between quotes of one kind; blanks may
  surround the equals sign and need not separate two attributes. No raw name may occur twice.
-/
namespace DiscoveryMetadata.Xml

open Text (isXmlSpace)

/-- An attribute with its name as it is written, and its value with references read. -/
structure RawAttribute where
  name : String
  value : String
  deriving DecidableEq, Repr, Inhabited

namespace RawAttribute

/-- An attribute cannot be told from what surrounds it. -/
def malformed : Fault := .xml "Failed to parse attribute"

/-- A value holds a reference that names nothing. -/
def unreadable : Fault := .xml "Failed to unescape attribute value"

/-- The quoted value at the beginning of a text, and what follows it. -/
def quoted? : List Char → Option (List Char × List Char)
  | '"' :: r => splitAt? '"' r
  | '\'' :: r => splitAt? '\'' r
  | _ => none

/-- The raw name at the beginning of a text, which does not begin with a blank, and what follows
the equals sign. -/
def key? : List Char → Option (List Char × List Char)
  | [] => none
  | c :: r =>
    let inName := fun x => x != '=' && !isXmlSpace x
    match (r.dropWhile inName).dropWhile isXmlSpace with
    | '=' :: rest => some (c :: r.takeWhile inName, rest)
    | _ => none

theorem length_lt_of_splitAt? {m : Char} {cs a b : List Char}
    (h : splitAt? m cs = some (a, b)) : b.length < cs.length := by
  induction cs generalizing a b with
  | nil => simp [splitAt?] at h
  | cons c r ih =>
    rw [splitAt?] at h
    split at h
    · simp only [Option.some.injEq, Prod.mk.injEq] at h
      simp [h.2]
    · obtain ⟨⟨x, y⟩, hx, hy⟩ := Option.map_eq_some_iff.1 h
      simp only [Prod.mk.injEq] at hy
      rw [← hy.2]
      exact Nat.lt_succ_of_lt (ih hx)

theorem length_dropWhile_le (p : Char → Bool) (cs : List Char) :
    (cs.dropWhile p).length ≤ cs.length :=
  (List.dropWhile_sublist p).length_le

theorem length_lt_of_quoted? {cs a b : List Char} (h : quoted? cs = some (a, b)) :
    b.length < cs.length := by
  unfold quoted? at h
  split at h
  · exact Nat.lt_succ_of_lt (length_lt_of_splitAt? h)
  · exact Nat.lt_succ_of_lt (length_lt_of_splitAt? h)
  · simp at h

theorem length_lt_of_key? {cs a b : List Char} (h : key? cs = some (a, b)) :
    b.length < cs.length := by
  unfold key? at h
  split at h
  · simp at h
  · rename_i c r
    simp only at h
    split at h
    · rename_i rest hr
      simp only [Option.some.injEq, Prod.mk.injEq] at h
      have h1 := length_dropWhile_le isXmlSpace (r.dropWhile fun x => x != '=' && !isXmlSpace x)
      have h2 := length_dropWhile_le (fun x => x != '=' && !isXmlSpace x) r
      rw [hr] at h1
      rw [← h.2]
      simp only [List.length_cons] at h1 ⊢
      omega
    · simp at h

/-- The attributes in a text, where those named in `seen` came before. The first fault decides. -/
def readFrom (seen : List (List Char)) (cs : List Char) : Outcome (List RawAttribute) :=
  match _hb : cs.dropWhile isXmlSpace with
  | [] => .ok []
  | c :: r =>
    match _hk : key? (c :: r) with
    | none => .error malformed
    | some (name, afterName) =>
      if seen.contains name then .error malformed
      else
        match _hq : quoted? (afterName.dropWhile isXmlSpace) with
        | none => .error malformed
        | some (raw, rest) =>
          match Text.unescape raw with
          | none => .error unreadable
          | some value => do
            let others ← readFrom (name :: seen) rest
            return ⟨String.ofList name, String.ofList value⟩ :: others
termination_by cs.length
decreasing_by
  have h0 := length_dropWhile_le isXmlSpace cs
  have h1 := length_lt_of_key? _hk
  have h2 := length_lt_of_quoted? _hq
  have h3 := length_dropWhile_le isXmlSpace afterName
  rw [_hb] at h0
  omega

/-- The attributes in the inside of a tag, after its name. -/
def read (cs : List Char) : Outcome (List RawAttribute) := readFrom [] cs

/-- What the attribute declares, if it is a namespace declaration: a prefix, or none for the
default namespace. -/
def declares? (a : RawAttribute) : Option (Option String) :=
  if a.name = "xmlns" then some none
  else if "xmlns:".toList.isPrefixOf a.name.toList then
    some (some (String.ofList (a.name.toList.drop 6)))
  else none

/-- The scope with the declaration made that the attribute is, if it is one. -/
def declareIn (s : Scope) (a : RawAttribute) : Scope :=
  match a.declares? with
  | some (some p) => s.bind p a.value
  | some none => s.withDefault a.value
  | none => s

end RawAttribute

/-- The element that a tag opens where `outer` is in force, without what it holds, and the scope
inside it. -/
def Element.ofTag (outer : Scope) (name attributes : List Char) : Outcome (Element × Scope) := do
  let raw ← RawAttribute.read attributes
  let declared := raw.foldl RawAttribute.declareIn .empty
  let scope := outer.inner declared
  let qname ← scope.resolveElement (String.ofList name)
  let plain ← (raw.filter (·.declares?.isNone)).mapM fun a => do
    let n ← scope.resolveAttribute a.name
    return (⟨n, a.value⟩ : Attribute)
  return (⟨qname, plain, none, [], declared⟩, scope)

end DiscoveryMetadata.Xml
