import DiscoveryMetadata.Text.Basic
/-
  The events of a document: the tags and the character data in it, in order.

  Reading is lenient where a tag's inside is concerned, which is taken apart later: an event keeps
  the raw name and the raw attributes of a tag. Comments, processing instructions and the document
  type are passed over. Character data loses the blanks at its ends, and is no event if nothing is
  left. The list ends at the end of the document, or with `malformed` where a tag cannot be read.
-/
namespace DiscoveryMetadata.Xml

open Text (isXmlSpace)

/-- One thing that stands in a document. -/
inductive Event where
  /-- A tag that opens an element, or is an element of its own. -/
  | opening (name attributes : List Char) (closed : Bool)
  /-- A tag that closes an element. -/
  | closing (name : List Char)
  /-- Character data, with its references unread. -/
  | text (raw : List Char)
  /-- A section of character data that holds no references. -/
  | verbatim (content : List Char)
  /-- Something that is no part of a document. -/
  | malformed
  deriving DecidableEq, Repr, Inhabited

namespace Event

/-- Reads to the first `>` before which `done` holds of the characters read, last first. Gives
those characters, still last first, and what follows. -/
def closeWhere? (done : List Char → Bool) : List Char → List Char → Option (List Char × List Char)
  | _, [] => none
  | seen, c :: r =>
    if c = '>' && done seen then some (seen, r) else closeWhere? done (c :: seen) r

/-- Reads to the `>` that ends a tag, which a quoted value may hold as well. -/
def tagEnd? : Option Char → List Char → Option (List Char × List Char)
  | _, [] => none
  | none, c :: r =>
    if c = '>' then some ([], r)
    else (tagEnd? (if c = '"' || c = '\'' then some c else none) r).map fun (a, b) => (c :: a, b)
  | some q, c :: r =>
    (tagEnd? (if c = q then none else some q) r).map fun (a, b) => (c :: a, b)

/-- The text up to the first `>`, and what follows it; an end of input serves as well. -/
def toAngle (cs : List Char) : List Char × List Char :=
  (cs.takeWhile (· != '>'), (cs.dropWhile (· != '>')).drop 1)

/-- The beginning of the text is this word, in either case. -/
def beginsWith (word cs : List Char) : Bool :=
  (cs.take word.length).map Char.toLower == word.map Char.toLower

/-- The event of a tag whose inside, between `<` and `>`, is given. -/
def ofTag (inside : List Char) : Event :=
  let name := inside.takeWhile (!isXmlSpace ·)
  let rest := inside.dropWhile (!isXmlSpace ·)
  if inside.getLast? = some '/' then
    if rest.isEmpty then .opening name.dropLast [] true else .opening name rest.dropLast true
  else .opening name rest false

/-- The name in a closing tag: blanks may follow it, and blanks alone are a name. -/
def closingName (inside : List Char) : List Char :=
  let isEnd := fun c => isXmlSpace c || c == '\x0c'
  match inside.reverse.dropWhile isEnd with
  | [] => inside
  | name => name.reverse

/-- A comment ends at `-->`. -/
def comment? (cs : List Char) : Option (Option Event × List Char) :=
  match closeWhere? (fun seen => 4 < seen.length && beginsWith ['-', '-'] seen) ['!'] cs with
  | some (_, rest) => if beginsWith ['-', '-'] cs then some (none, rest) else none
  | none => none

/-- A section ends at `]]>`. -/
def section? (cs : List Char) : Option (Option Event × List Char) :=
  match closeWhere? (beginsWith [']', ']']) [] cs with
  | some (seen, rest) =>
    let inside := (seen.drop 2).reverse
    if beginsWith "[CDATA[".toList inside then some (some (.verbatim (inside.drop 7)), rest)
    else none
  | none => none

/-- A document type ends at the `>` that leaves no `<` open, and says something. -/
def doctype? (cs : List Char) : Option (Option Event × List Char) :=
  match closeWhere? (fun seen => seen.count '<' == seen.count '>') [] cs with
  | some (seen, rest) =>
    let inside := seen.reverse
    if beginsWith "DOCTYPE".toList inside && (inside.drop 7).any (!isXmlSpace ·) then
      some (none, rest)
    else none
  | none => none

/-- Reads what begins with `<`, which is given without it: an event, unless it is one to pass
over, and what follows. -/
def markup? : List Char → Option (Option Event × List Char)
  | '!' :: '-' :: r => comment? ('-' :: r)
  | '!' :: '[' :: r => section? ('[' :: r)
  | '!' :: c :: r => if c = 'd' || c = 'D' then doctype? (c :: r) else none
  | ['!'] => none
  | '/' :: r =>
    let (inside, rest) := toAngle r
    some (some (.closing (closingName inside)), rest)
  | '?' :: r =>
    let (inside, rest) := toAngle r
    if 1 < inside.length && inside.getLast? = some '?' then some (none, rest) else none
  | r => (tagEnd? none r).map fun (inside, rest) => (some (ofTag inside), rest)

theorem length_lt_of_closeWhere? {done : List Char → Bool} {seen cs a b : List Char}
    (h : closeWhere? done seen cs = some (a, b)) : b.length < cs.length := by
  induction cs generalizing seen with
  | nil => simp [closeWhere?] at h
  | cons c r ih =>
    rw [closeWhere?] at h
    split at h
    · simp only [Option.some.injEq, Prod.mk.injEq] at h
      simp [h.2]
    · exact Nat.lt_succ_of_lt (ih h)

theorem length_lt_of_tagEnd? {q : Option Char} {cs a b : List Char}
    (h : tagEnd? q cs = some (a, b)) : b.length < cs.length := by
  induction cs generalizing q a b with
  | nil => simp [tagEnd?] at h
  | cons c r ih =>
    cases q with
    | none =>
      rw [tagEnd?] at h
      split at h
      · simp only [Option.some.injEq, Prod.mk.injEq] at h
        simp [h.2]
      · obtain ⟨⟨x, y⟩, hx, hy⟩ := Option.map_eq_some_iff.1 h
        simp only [Prod.mk.injEq] at hy
        rw [← hy.2]
        exact Nat.lt_succ_of_lt (ih hx)
    | some q =>
      rw [tagEnd?] at h
      obtain ⟨⟨x, y⟩, hx, hy⟩ := Option.map_eq_some_iff.1 h
      simp only [Prod.mk.injEq] at hy
      rw [← hy.2]
      exact Nat.lt_succ_of_lt (ih hx)

theorem length_toAngle_le (cs : List Char) : (toAngle cs).2.length ≤ cs.length := by
  have h := (List.dropWhile_sublist (· != '>') (l := cs)).length_le
  simp only [toAngle, List.length_drop]
  omega

theorem length_lt_of_comment? {cs b : List Char} {e : Option Event}
    (h : comment? cs = some (e, b)) : b.length < cs.length := by
  rw [comment?] at h
  split at h
  · rename_i hc
    split at h
    · simp only [Option.some.injEq, Prod.mk.injEq] at h
      exact h.2 ▸ length_lt_of_closeWhere? hc
    · simp at h
  · simp at h

theorem length_lt_of_section? {cs b : List Char} {e : Option Event}
    (h : section? cs = some (e, b)) : b.length < cs.length := by
  rw [section?] at h
  split at h
  · rename_i hc
    simp only at h
    split at h
    · simp only [Option.some.injEq, Prod.mk.injEq] at h
      exact h.2 ▸ length_lt_of_closeWhere? hc
    · simp at h
  · simp at h

theorem length_lt_of_doctype? {cs b : List Char} {e : Option Event}
    (h : doctype? cs = some (e, b)) : b.length < cs.length := by
  rw [doctype?] at h
  split at h
  · rename_i hc
    simp only at h
    split at h
    · simp only [Option.some.injEq, Prod.mk.injEq] at h
      exact h.2 ▸ length_lt_of_closeWhere? hc
    · simp at h
  · simp at h

/-- Reading on from a tag leaves less than there was. -/
theorem length_lt_of_markup? {cs b : List Char} {e : Option Event}
    (h : markup? cs = some (e, b)) : b.length < cs.length + 1 := by
  unfold markup? at h
  split at h
  · have := length_lt_of_comment? h
    simp only [List.length_cons] at this ⊢
    omega
  · have := length_lt_of_section? h
    simp only [List.length_cons] at this ⊢
    omega
  · split at h
    · have := length_lt_of_doctype? h
      simp only [List.length_cons] at this ⊢
      omega
    · simp at h
  · simp at h
  · rename_i r
    have := length_toAngle_le r
    simp only [Option.some.injEq, Prod.mk.injEq] at h
    rw [← h.2, List.length_cons]
    omega
  · rename_i r
    have := length_toAngle_le r
    simp only at h
    split at h
    · simp only [Option.some.injEq, Prod.mk.injEq] at h
      rw [← h.2, List.length_cons]
      omega
    · simp at h
  · obtain ⟨⟨x, y⟩, hx, hy⟩ := Option.map_eq_some_iff.1 h
    simp only [Prod.mk.injEq] at hy
    rw [← hy.2]
    exact Nat.lt_succ_of_lt (length_lt_of_tagEnd? hx)

/-- The events of a text that begins where character data or a tag may begin. -/
def ofChars (cs : List Char) : List Event :=
  match _h : cs.dropWhile isXmlSpace with
  | [] => []
  | ['<'] => []
  | '<' :: x :: r =>
    match _hm : markup? (x :: r) with
    | some (some e, rest) => e :: ofChars rest
    | some (none, rest) => ofChars rest
    | none => [.malformed]
  | c :: r =>
    let raw := c :: r.takeWhile (· != '<')
    .text (raw.reverse.dropWhile isXmlSpace).reverse :: ofChars (r.dropWhile (· != '<'))
termination_by cs.length
decreasing_by
  all_goals
    have hl := (List.dropWhile_sublist isXmlSpace (l := cs)).length_le
    rw [_h] at hl
    simp only [List.length_cons] at hl
  · have := length_lt_of_markup? _hm
    simp only [List.length_cons] at this
    omega
  · have := length_lt_of_markup? _hm
    simp only [List.length_cons] at this
    omega
  · have := (List.dropWhile_sublist (· != '<') (l := r)).length_le
    omega

/-- The events of a document; a byte order mark before it is passed over. -/
def ofDocument (s : String) : List Event :=
  match s.toList with
  | '\ufeff' :: r => ofChars r
  | cs => ofChars cs

end Event

end DiscoveryMetadata.Xml
