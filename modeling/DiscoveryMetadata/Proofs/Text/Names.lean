import DiscoveryMetadata.Pattern.Parser
import DiscoveryMetadata.Proofs.Matching
import DiscoveryMetadata.Text.Names
/-
  Names without a colon, and the grammar of XML.

  The grammar takes the characters of a name from two tables of ranges: those that can begin a name
  (`Grammar.initial`) and those that can only follow (`Grammar.following`). A colon can stand
  anywhere in a name; a name without a colon is one where it does not (`Grammar.NCName`).

  Identifiers and labels are checked with a pattern that has only the beginnings of the two tables,
  up to U+1FFF. What it finds is what is recognized (`finds_ncNamePattern`). So nothing but names of
  the grammar is recognized, in either position of a character, and of these exactly the ones below
  U+2000 (`isNCName_iff`): a name in ideographs is refused (`ideographs_not_recognized`).
-/
namespace DiscoveryMetadata.Text

open Pattern (CharSet Regex)
open Pattern.Regex

/-- The character is in one of the ranges, each given by the numbers of its ends. -/
def Within (ranges : List (Nat × Nat)) (c : Char) : Prop :=
  ∃ r ∈ ranges, r.1 ≤ c.toNat ∧ c.toNat ≤ r.2

instance (ranges : List (Nat × Nat)) (c : Char) : Decidable (Within ranges c) :=
  List.decidableBEx (fun r : Nat × Nat => r.1 ≤ c.toNat ∧ c.toNat ≤ r.2) ranges

namespace Grammar

/-- The characters that can begin a name, besides the colon. -/
def initial : List (Nat × Nat) :=
  [(0x41, 0x5A), (0x5F, 0x5F), (0x61, 0x7A), (0xC0, 0xD6), (0xD8, 0xF6), (0xF8, 0x2FF),
   (0x370, 0x37D), (0x37F, 0x1FFF), (0x200C, 0x200D), (0x2070, 0x218F), (0x2C00, 0x2FEF),
   (0x3001, 0xD7FF), (0xF900, 0xFDCF), (0xFDF0, 0xFFFD), (0x10000, 0xEFFFF)]

/-- The characters that can stand in a name but not begin it. -/
def following : List (Nat × Nat) :=
  [(0x2D, 0x2D), (0x2E, 0x2E), (0x30, 0x39), (0xB7, 0xB7), (0x300, 0x36F), (0x203F, 0x2040)]

/-- The production NameStartChar. -/
def NameStartChar (c : Char) : Prop := c = ':' ∨ Within initial c

/-- The production NameChar. -/
def NameChar (c : Char) : Prop := NameStartChar c ∨ Within following c

instance (c : Char) : Decidable (NameStartChar c) := instDecidableOr

instance (c : Char) : Decidable (NameChar c) := instDecidableOr

/-- The production NCName: a character that can begin a name, then characters of names, none of
them a colon. -/
def NCName : List Char → Prop
  | [] => False
  | c :: r => (NameStartChar c ∧ c ≠ ':') ∧ ∀ d ∈ r, NameChar d ∧ d ≠ ':'

instance : DecidablePred NCName
  | [] => instDecidableFalse
  | _ :: r =>
    @instDecidableAnd _ _ instDecidableAnd (List.decidableBAll (fun d => NameChar d ∧ d ≠ ':') r)

end Grammar

section Characters

variable {rs : List (Nat × Nat)} {n bound : Nat} {c : Char}

theorem not_within_nil : ¬ Within [] c := by simp [Within]

theorem within_cons {r : Nat × Nat} :
    Within (r :: rs) c ↔ r.1 ≤ c.toNat ∧ c.toNat ≤ r.2 ∨ Within rs c := by
  simp only [Within, List.mem_cons, exists_eq_or_imp]

theorem within_append {ss : List (Nat × Nat)} :
    Within (rs ++ ss) c ↔ Within rs c ∨ Within ss c := by
  simp only [Within, List.mem_append, or_and_right, exists_or]

/-- If a table has the ranges below a bound first, these hold the characters below the bound. -/
theorem within_take (hlow : ∀ r ∈ rs.take n, r.2 < bound) (hhigh : ∀ r ∈ rs.drop n, bound ≤ r.1) :
    Within (rs.take n) c ↔ Within rs c ∧ c.toNat < bound := by
  constructor
  · rintro ⟨r, hr, hge, hle⟩
    exact ⟨⟨r, List.mem_of_mem_take hr, hge, hle⟩, Nat.lt_of_le_of_lt hle (hlow r hr)⟩
  · rintro ⟨⟨r, hr, hge, hle⟩, hlt⟩
    have hmem : r ∈ rs.take n ∨ r ∈ rs.drop n := by
      rwa [← List.mem_append, List.take_append_drop]
    rcases hmem with hmem | hmem
    · exact ⟨r, hmem, hge, hle⟩
    · -- the ranges that are left out begin at the bound
      have hbound := hhigh r hmem
      omega

theorem colon_apart (hcolon : ¬ Within rs ':') :
    (c = ':' ∨ Within rs c) ∧ c ≠ ':' ↔ Within rs c := by
  constructor
  · rintro ⟨hc | h, hne⟩
    · exact absurd hc hne
    · exact h
  · intro h
    refine ⟨.inr h, ?_⟩
    rintro rfl
    exact hcolon h

namespace Grammar

theorem nameStartChar_iff : NameStartChar c ∧ c ≠ ':' ↔ Within initial c :=
  colon_apart (by decide)

theorem nameChar_iff : NameChar c ∧ c ≠ ':' ↔ Within (initial ++ following) c := by
  rw [NameChar, NameStartChar, or_assoc, ← within_append]
  exact colon_apart (by decide)

end Grammar

theorem isAlpha_iff : c.isAlpha = true ↔
    65 ≤ c.toNat ∧ c.toNat ≤ 90 ∨ 97 ≤ c.toNat ∧ c.toNat ≤ 122 := by
  have hupper : c.isUpper = decide ('A'.val ≤ c.val ∧ c.val ≤ 'Z'.val) := rfl
  have hlower : c.isLower = (decide ('a'.val ≤ c.val) && decide (c.val ≤ 'z'.val)) := rfl
  have halpha : c.isAlpha = (c.isUpper || c.isLower) := rfl
  simp [halpha, hupper, hlower, UInt32.le_iff_toNat_le]

theorem isDigit_iff : c.isDigit = true ↔ 48 ≤ c.toNat ∧ c.toNat ≤ 57 := by
  simp [Char.isDigit, UInt32.le_iff_toNat_le]

/-- The first characters that are recognized are in the ranges with which the table begins. -/
theorem isNameStart_within : isNameStart c = true ↔ Within (Grammar.initial.take 8) c := by
  have hunderscore : c = '_' ↔ c.toNat = 0x5F := Char.toNat_inj.symm
  simp only [isNameStart, Bool.or_eq_true, Bool.and_eq_true, decide_eq_true_eq, beq_iff_eq,
    isAlpha_iff, hunderscore, Grammar.initial, List.take_succ_cons, List.take_zero, within_cons,
    not_within_nil, or_false]
  omega

/-- Later characters may be in one more of the ranges with which the other table begins. -/
theorem isNamePart_within : isNamePart c = true ↔
    Within (Grammar.initial.take 8) c ∨ Within (Grammar.following.take 5) c := by
  have hhyphen : c = '-' ↔ c.toNat = 0x2D := Char.toNat_inj.symm
  have hpoint : c = '.' ↔ c.toNat = 0x2E := Char.toNat_inj.symm
  simp only [isNamePart, Bool.or_eq_true, isNameStart_within, or_assoc]
  refine or_congr_right ?_
  simp only [Bool.and_eq_true, decide_eq_true_eq, beq_iff_eq, isDigit_iff, hhyphen, hpoint,
    Grammar.following, List.take_succ_cons, List.take_zero, within_cons, not_within_nil, or_false]
  omega

/-- A character is taken as the first one of a name just if it can begin a name, is no colon and
comes before U+2000. -/
theorem isNameStart_iff : isNameStart c = true ↔
    (Grammar.NameStartChar c ∧ c ≠ ':') ∧ c.toNat < 0x2000 := by
  rw [isNameStart_within, Grammar.nameStartChar_iff]
  exact within_take (by decide) (by decide)

/-- A character is taken as a later one of a name just if it is one of names, is no colon and comes
before U+2000. -/
theorem isNamePart_iff : isNamePart c = true ↔
    (Grammar.NameChar c ∧ c ≠ ':') ∧ c.toNat < 0x2000 := by
  rw [isNamePart_within, Grammar.nameChar_iff, within_append, or_and_right]
  exact or_congr (within_take (by decide) (by decide)) (within_take (by decide) (by decide))

end Characters

section Patterns

variable {rs : List (Nat × Nat)} {c : Char} {text : String}

/-- The set with the characters of one more range. -/
def withRange (s : CharSet) (r : Nat × Nat) : CharSet :=
  s.union (.range (Char.ofNat r.1) (Char.ofNat r.2))

/-- The set of the characters in the ranges. -/
def charSet (rs : List (Nat × Nat)) : CharSet := rs.foldl withRange .none

theorem contains_withRange {s : CharSet} {r : Nat × Nat} (hfirst : (Char.ofNat r.1).toNat = r.1)
    (hlast : (Char.ofNat r.2).toNat = r.2) : (withRange s r).contains c = true ↔
      s.contains c = true ∨ r.1 ≤ c.toNat ∧ c.toNat ≤ r.2 := by
  simp [withRange, CharSet.contains, Char.le_def, UInt32.le_iff_toNat_le, hfirst, hlast]

theorem contains_charSet
    (h : ∀ r ∈ rs, (Char.ofNat r.1).toNat = r.1 ∧ (Char.ofNat r.2).toNat = r.2) :
    (charSet rs).contains c = true ↔ Within rs c := by
  -- the union is built from the left, so the induction is for any set to begin with
  have hfold : ∀ s : CharSet,
      (rs.foldl withRange s).contains c = true ↔ s.contains c = true ∨ Within rs c := by
    intro s
    induction rs generalizing s with
    | nil => simp [not_within_nil]
    | cons r rs ih =>
      obtain ⟨⟨hfirst, hlast⟩, hrs⟩ := List.forall_mem_cons.1 h
      rw [List.foldl_cons, ih hrs, contains_withRange hfirst hlast, or_assoc, within_cons]
  rw [charSet, hfold]
  simp [CharSet.contains]

/-- The characters that can begin a name, as the pattern writes them. -/
def initialWritten : String :=
  "A-Z_a-z\\u\x7bC0\x7d-\\u\x7bD6\x7d\\u\x7bD8\x7d-\\u\x7bF6\x7d\\u\x7bF8\x7d-\\u\x7b2FF\x7d" ++
    "\\u\x7b370\x7d-\\u\x7b37D\x7d\\u\x7b37F\x7d-\\u\x7b1FFF\x7d"

/-- The pattern of a name without a colon as it is written. -/
def ncNameWritten : String :=
  "^[" ++ initialWritten ++ "][" ++ initialWritten ++
    "\\-\\.0-9\\u\x7bB7\x7d\\u\x7b300\x7d-\\u\x7b36F\x7d]*$"

/-- The pattern of a name without a colon. -/
def ncNamePattern : Regex := (Regex.ofText? ncNameWritten).getD .never

/-- The written pattern is read as the beginnings of the two tables. -/
theorem ncNamePattern_eq : ncNamePattern = anchored [one (charSet (Grammar.initial.take 8)),
    (one (charSet (Grammar.initial.take 8 ++ Grammar.following.take 5))).star] := by
  decide +kernel

/-- The pattern is found in the texts that are recognized. -/
theorem finds_ncNamePattern : ncNamePattern.finds text = true ↔ isNCName text = true := by
  have hfirst : ∀ c, (charSet (Grammar.initial.take 8)).contains c = isNameStart c := by
    intro c
    rw [Bool.eq_iff_iff, isNameStart_within]
    exact contains_charSet (by decide)
  have hlater : ∀ c, (charSet (Grammar.initial.take 8 ++ Grammar.following.take 5)).contains c =
      isNamePart c := by
    intro c
    rw [Bool.eq_iff_iff, isNamePart_within, ← within_append]
    exact contains_charSet (by decide)
  rw [ncNamePattern_eq, finds_anchored
    (.cons (fun _ _ _ => matches_one) (.cons (fun _ _ _ => matches_star_one) .nil))]
  simp only [Chained, hfirst, hlater]
  unfold isNCName
  cases text.toList with
  | nil => simp
  | cons c r => simp

end Patterns

section Names

/-- A text is recognized as a name without a colon, and has the written pattern, exactly if it is a
name of the grammar and all its characters come before U+2000. -/
theorem isNCName_iff (s : String) :
    (isNCName s = true ↔ Grammar.NCName s.toList ∧ ∀ c ∈ s.toList, c.toNat < 0x2000) ∧
      isNCName s = ncNamePattern.finds s := by
  refine ⟨?_, Bool.eq_iff_iff.2 finds_ncNamePattern.symm⟩
  unfold isNCName
  cases s.toList with
  | nil => simp [Grammar.NCName]
  | cons c r =>
    simp only [Grammar.NCName, Bool.and_eq_true, List.all_eq_true, isNameStart_iff, isNamePart_iff,
      List.forall_mem_cons]
    constructor
    · rintro ⟨⟨hc, hbound⟩, hr⟩
      exact ⟨⟨hc, fun d hd => (hr d hd).1⟩, hbound, fun d hd => (hr d hd).2⟩
    · rintro ⟨⟨hc, hr⟩, hbound, hbounds⟩
      exact ⟨⟨hc, hbound⟩, fun d hd => ⟨hr d hd, hbounds d hd⟩⟩

example : isNCName "Ͱ·1" = true ∧ isNCName "·Ͱ" = false := by decide +kernel

/-- A name in ideographs, and one with a tie behind its first letter: names of the grammar that are
not recognized. -/
theorem ideographs_not_recognized :
    (Grammar.NCName "日本".toList ∧ isNCName "日本" = false) ∧
      Grammar.NCName "a‿b".toList ∧ isNCName "a‿b" = false := by
  decide +kernel

end Names

end DiscoveryMetadata.Text
