import DiscoveryMetadata.Pattern.Basic
import Mathlib.Data.List.Forall2
import Mathlib.Data.List.Induction
/-
  What patterns find.

  Patterns are matched by derivatives, one character after the other. `Matches` says without any
  such steps which texts a pattern matches between the character before and the one behind, by the
  constructors of the pattern. Matching is right:

    1. a pattern is nullable at a place just if it matches nothing there (`nullable_iff`);
    2. one step leaves the patterns that match the rest (`rests_iff`);
    3. the run over a text finds whether one of the patterns matches it (`anyMatches_iff`), and so
       whether some part of the text matches (`finds_iff`).

  Most patterns hold no condition on a place. What they match does not depend on the characters
  around it, so that they denote a property of texts (`Denotes`), and an anchored chain of them finds
  the texts that are put together of what they denote (`finds_anchored`).
-/
namespace DiscoveryMetadata.Pattern

theorem CharSet.contains_single {c d : Char} : (single c).contains d = true ↔ d = c := by
  simp only [single, contains, Bool.and_eq_true, decide_eq_true_eq]
  constructor
  · rintro ⟨hle, hge⟩
    exact Char.le_antisymm hge hle
  · rintro rfl
    exact ⟨Char.le_refl _, Char.le_refl _⟩

namespace Regex

variable {p q r : Regex} {b a : Option Char} {c : Char} {cs xs ys : List Char}

/-- The pattern matches the text that stands behind the character `b` and before the character `a`,
where there are such. -/
inductive Matches : Regex → Option Char → List Char → Option Char → Prop
  | empty {b a : Option Char} : Matches empty b [] a
  | anchor {x : Anchor} {b a : Option Char} (h : x.holds ⟨b, a⟩ = true) : Matches (anchor x) b [] a
  | one {s : CharSet} {c : Char} {b a : Option Char} (h : s.contains c = true) :
      Matches (one s) b [c] a
  | seq {p q : Regex} {b a : Option Char} {xs ys : List Char} (hp : Matches p b xs (ys.head?.or a))
      (hq : Matches q (xs.getLast?.or b) ys a) : Matches (seq p q) b (xs ++ ys) a
  | left {p q : Regex} {b a : Option Char} {cs : List Char} (h : Matches p b cs a) :
      Matches (alt p q) b cs a
  | right {p q : Regex} {b a : Option Char} {cs : List Char} (h : Matches q b cs a) :
      Matches (alt p q) b cs a
  | stop {p : Regex} {b a : Option Char} : Matches (star p) b [] a
  | again {p : Regex} {b a : Option Char} {xs ys : List Char} (hp : Matches p b xs (ys.head?.or a))
      (hs : Matches (star p) (xs.getLast?.or b) ys a) : Matches (star p) b (xs ++ ys) a

section Inversion

theorem not_matches_never : ¬ Matches never b cs a := by rintro ⟨⟩

theorem matches_empty : Matches empty b cs a ↔ cs = [] := by
  constructor
  · rintro ⟨⟩
    rfl
  · rintro rfl
    exact .empty

theorem matches_anchor {x : Anchor} :
    Matches (anchor x) b cs a ↔ cs = [] ∧ x.holds ⟨b, a⟩ = true := by
  constructor
  · rintro ⟨⟩
    exact ⟨rfl, ‹_›⟩
  · rintro ⟨rfl, h⟩
    exact .anchor h

theorem matches_one {s : CharSet} :
    Matches (one s) b cs a ↔ ∃ c, cs = [c] ∧ s.contains c = true := by
  constructor
  · rintro ⟨⟩
    exact ⟨_, rfl, ‹_›⟩
  · rintro ⟨c, rfl, h⟩
    exact .one h

theorem matches_seq : Matches (seq p q) b cs a ↔ ∃ xs ys, cs = xs ++ ys ∧
    Matches p b xs (ys.head?.or a) ∧ Matches q (xs.getLast?.or b) ys a := by
  constructor
  · rintro ⟨⟩
    exact ⟨_, _, rfl, ‹_›, ‹_›⟩
  · rintro ⟨xs, ys, rfl, hp, hq⟩
    exact .seq hp hq

theorem matches_alt : Matches (alt p q) b cs a ↔ Matches p b cs a ∨ Matches q b cs a := by
  constructor
  · rintro (_ | _)
    · exact .inl ‹_›
    · exact .inr ‹_›
  · rintro (h | h)
    · exact .left h
    · exact .right h

theorem getLast?_cons_or : (c :: xs).getLast?.or b = xs.getLast?.or (some c) := by
  rw [List.getLast?_cons]
  cases xs.getLast? <;> rfl

/-- A sequence matches a character in its first part, or in its second if the first is empty. -/
theorem matches_seq_cons : Matches (seq p q) b (c :: cs) a ↔
    (∃ xs ys, cs = xs ++ ys ∧ Matches p b (c :: xs) (ys.head?.or a) ∧
      Matches q (xs.getLast?.or (some c)) ys a) ∨
    Matches p b [] (some c) ∧ Matches q b (c :: cs) a := by
  rw [matches_seq]
  constructor
  · rintro ⟨xs, ys, h, hp, hq⟩
    cases xs with
    | nil =>
      obtain rfl : c :: cs = ys := h
      exact .inr ⟨hp, hq⟩
    | cons d xs =>
      obtain ⟨rfl, rfl⟩ := List.cons.inj h
      exact .inl ⟨xs, ys, rfl, hp, getLast?_cons_or ▸ hq⟩
  · rintro (⟨xs, ys, rfl, hp, hq⟩ | ⟨hp, hq⟩)
    · exact ⟨c :: xs, ys, rfl, hp, getLast?_cons_or.symm ▸ hq⟩
    · exact ⟨[], c :: cs, rfl, hp, hq⟩

/-- A repetition matches a character in the first of its parts that is not empty. -/
theorem matches_star_cons : Matches (star p) b (c :: cs) a ↔ ∃ xs ys, cs = xs ++ ys ∧
    Matches p b (c :: xs) (ys.head?.or a) ∧ Matches (star p) (xs.getLast?.or (some c)) ys a := by
  constructor
  · intro h
    -- induction on the parts of the repetition: empty ones in front are passed over
    generalize hr : star p = r at h
    generalize ht : c :: cs = t at h
    induction h with
    | @again _ _ _ xs ys hp hs _ ih =>
      cases hr
      cases xs with
      | nil => exact ih rfl ht
      | cons d xs =>
        obtain ⟨rfl, rfl⟩ := List.cons.inj ht
        exact ⟨xs, ys, rfl, hp, getLast?_cons_or ▸ hs⟩
    | stop => cases ht
    | _ => cases hr
  · rintro ⟨xs, ys, rfl, hp, hs⟩
    have hstep : Matches (star p) b ((c :: xs) ++ ys) a := .again hp (getLast?_cons_or.symm ▸ hs)
    exact hstep

theorem matches_andThen : Matches (p.andThen q) b cs a ↔ Matches (seq p q) b cs a := by
  unfold andThen
  split
  · simp [matches_seq, not_matches_never]
  · simp [matches_seq, not_matches_never]
  · simp [matches_seq, matches_empty]
  · rfl

theorem matches_either : Matches (p.either q) b cs a ↔ Matches p b cs a ∨ Matches q b cs a := by
  unfold either
  split
  · simp [not_matches_never]
  · simp [not_matches_never]
  · split
    · rename_i h
      rw [h, or_self_iff]
    · exact matches_alt

end Inversion

section Steps

/-- Nullability is the match of nothing. -/
theorem nullable_iff : r.nullable ⟨b, a⟩ = true ↔ Matches r b [] a := by
  induction r with
  | never => simp [nullable, not_matches_never]
  | empty => simp [nullable, matches_empty]
  | anchor x => simp [nullable, matches_anchor]
  | one s => simp [nullable, matches_one]
  | seq p q ihp ihq =>
    simp only [nullable, Bool.and_eq_true, ihp, ihq, matches_seq]
    constructor
    · rintro ⟨hp, hq⟩
      exact ⟨[], [], rfl, hp, hq⟩
    · rintro ⟨xs, ys, h, hp, hq⟩
      obtain ⟨rfl, rfl⟩ := List.append_eq_nil_iff.1 h.symm
      exact ⟨hp, hq⟩
  | alt p q ihp ihq => simp only [nullable, Bool.or_eq_true, ihp, ihq, matches_alt]
  | star p _ => exact iff_of_true rfl .stop

/-- What can be left of a pattern after a character matches what is behind the character. -/
theorem rests_iff : Matches r b (c :: cs) a ↔ ∃ r' ∈ r.rests b c, Matches r' (some c) cs a := by
  induction r generalizing cs a with
  | never => simp [rests, not_matches_never]
  | empty => simp [rests, matches_empty]
  | anchor x => simp [rests, matches_anchor]
  | one s =>
    by_cases hs : s.contains c = true <;> simp [rests, matches_one, hs, matches_empty]
  | alt p q ihp ihq =>
    simp only [matches_alt, ihp, ihq, rests, List.mem_append, or_and_right, exists_or]
  | seq p q ihp ihq =>
    have hfirst : (∃ r' ∈ (p.rests b c).map (·.andThen q), Matches r' (some c) cs a) ↔
        ∃ xs ys, cs = xs ++ ys ∧ Matches p b (c :: xs) (ys.head?.or a) ∧
          Matches q (xs.getLast?.or (some c)) ys a := by
      simp only [ihp, List.mem_map, exists_exists_and_eq_and, matches_andThen, matches_seq]
      grind
    -- the second part is reached if the first one matches nothing
    rw [matches_seq_cons, ← nullable_iff, ← hfirst, ihq]
    simp only [rests]
    split <;> simp [*, or_and_right, exists_or]
  | star p ih =>
    simp only [matches_star_cons, ih, rests, List.mem_map, exists_exists_and_eq_and,
      matches_andThen, matches_seq]
    grind

/-- The run over a text finds whether one of the patterns matches it. -/
theorem anyMatches_iff {rs : List Regex} :
    anyMatches b rs cs = true ↔ ∃ r ∈ rs, Matches r b cs none := by
  induction cs generalizing b rs with
  | nil => simp only [anyMatches, List.any_eq_true, nullable_iff]
  | cons c cs ih =>
    simp only [anyMatches, ih, List.mem_eraseDups, List.mem_flatMap, rests_iff]
    grind

theorem matches_anything : Matches anything b cs a := by
  induction cs generalizing b with
  | nil => exact .stop
  | cons c cs ih =>
    have hstep : Matches anything b ([c] ++ cs) a := .again (.one rfl) ih
    exact hstep

/-- A pattern is found in a text just if it matches a part of it. -/
theorem finds_iff {text : String} : r.finds text = true ↔ ∃ xs ys zs,
    text.toList = xs ++ (ys ++ zs) ∧ Matches r xs.getLast? ys zs.head? := by
  simp only [finds, anyMatches_iff, List.mem_singleton, exists_eq_left, matches_seq,
    matches_anything, true_and, and_true, Option.or_none]
  grind

end Steps

section Denotations

variable {P Q : List Char → Prop} {s : CharSet} {n : Nat}

/-- The pattern matches the texts with the property, whatever stands around them. -/
def Denotes (r : Regex) (P : List Char → Prop) : Prop := ∀ b cs a, Matches r b cs a ↔ P cs

theorem Denotes.congr (h : Denotes r P) (hPQ : ∀ cs, P cs ↔ Q cs) : Denotes r Q :=
  fun b cs a => (h b cs a).trans (hPQ cs)

theorem Denotes.seq (hp : Denotes p P) (hq : Denotes q Q) :
    Denotes (seq p q) fun cs => ∃ xs ys, cs = xs ++ ys ∧ P xs ∧ Q ys := by
  intro b cs a
  simp only [matches_seq, hp _ _ _, hq _ _ _]

theorem Denotes.andThen (hp : Denotes p P) (hq : Denotes q Q) :
    Denotes (p.andThen q) fun cs => ∃ xs ys, cs = xs ++ ys ∧ P xs ∧ Q ys :=
  fun b cs a => matches_andThen.trans (hp.seq hq b cs a)

theorem Denotes.either (hp : Denotes p P) (hq : Denotes q Q) :
    Denotes (p.either q) fun cs => P cs ∨ Q cs := by
  intro b cs a
  rw [matches_either, hp, hq]

/-- A pattern that may be left out. -/
theorem Denotes.option (hp : Denotes p P) : Denotes (p.either empty) fun cs => P cs ∨ cs = [] :=
  hp.either fun _ _ _ => matches_empty

theorem matches_star_one : Matches (star (one s)) b cs a ↔ ∀ c ∈ cs, s.contains c = true := by
  induction cs generalizing b with
  | nil => exact iff_of_true .stop (by simp)
  | cons c cs ih =>
    rw [matches_star_cons, List.forall_mem_cons]
    simp only [matches_one, List.cons.injEq]
    constructor
    · rintro ⟨xs, ys, rfl, ⟨_, ⟨rfl, rfl⟩, hc⟩, hs⟩
      exact ⟨hc, ih.1 hs⟩
    · rintro ⟨hc, hs⟩
      exact ⟨[], cs, rfl, ⟨c, ⟨rfl, rfl⟩, hc⟩, ih.2 hs⟩

theorem matches_times_one : Matches ((one s).times n) b cs a ↔
    cs.length = n ∧ ∀ c ∈ cs, s.contains c = true := by
  induction n generalizing b cs a with
  | zero =>
    rw [times, matches_empty, List.length_eq_zero_iff]
    constructor
    · rintro rfl
      simp
    · exact And.left
  | succ n ih =>
    simp only [times, matches_andThen, matches_seq, ih, matches_one]
    constructor
    · rintro ⟨xs, _, rfl, ⟨hlength, hxs⟩, c, rfl, hc⟩
      simpa [hlength, or_imp, forall_and] using ⟨hxs, hc⟩
    · rintro ⟨hlength, hcs⟩
      cases cs using List.reverseRecOn with
      | nil => cases hlength
      | append_singleton xs c =>
        simp only [List.forall_mem_append, List.forall_mem_singleton] at hcs
        exact ⟨xs, [c], rfl, ⟨by simpa using hlength, hcs.1⟩, c, rfl, hcs.2⟩

/-- The text is put together of texts with these properties, in this order. -/
def Chained : List (List Char → Prop) → List Char → Prop
  | [], cs => cs = []
  | P :: Ps, cs => ∃ xs ys, cs = xs ++ ys ∧ P xs ∧ Chained Ps ys

/-- A chain of patterns behind one that stands at the start of the text. -/
theorem matches_chain {rs : List Regex} {Ps : List (List Char → Prop)}
    (h : List.Forall₂ Denotes rs Ps) (hp : ∀ b cs a, Matches p b cs a ↔ b = none ∧ P cs) :
    Matches (rs.foldl Regex.seq p) b cs a ↔
      b = none ∧ ∃ xs ys, cs = xs ++ ys ∧ P xs ∧ Chained Ps ys := by
  induction h generalizing p P cs with
  | nil => simp [hp, Chained]
  | @cons r Q rs Ps hr _ ih =>
    have hseq : ∀ b cs a, Matches (Regex.seq p r) b cs a ↔
        b = none ∧ ∃ xs ys, cs = xs ++ ys ∧ P xs ∧ Q ys := by
      intro b cs a
      simp only [matches_seq, hp, hr _ _ _]
      grind
    rw [List.foldl_cons, ih hseq]
    refine and_congr_right fun _ => ?_
    constructor
    · rintro ⟨_, zs, rfl, ⟨xs, ys, rfl, hxs, hys⟩, hzs⟩
      exact ⟨xs, ys ++ zs, by simp, hxs, ys, zs, rfl, hys, hzs⟩
    · rintro ⟨xs, _, rfl, hxs, ys, zs, rfl, hys, hzs⟩
      exact ⟨xs ++ ys, zs, by simp, ⟨xs, ys, rfl, hxs, hys⟩, hzs⟩

/-- The chain of patterns from the start of a text to its end. -/
def anchored (rs : List Regex) : Regex :=
  seq (rs.foldl Regex.seq (anchor .textStart)) (anchor .textEnd)

/-- An anchored chain finds the texts that are put together of what its parts match. -/
theorem finds_anchored {rs : List Regex} {Ps : List (List Char → Prop)} {text : String}
    (h : List.Forall₂ Denotes rs Ps) :
    (anchored rs).finds text = true ↔ Chained Ps text.toList := by
  have hstart : ∀ b cs a, Matches (anchor .textStart) b cs a ↔ b = none ∧ cs = [] := by
    intro b cs a
    simp [matches_anchor, Anchor.holds, and_comm]
  have hchain : ∀ b cs a, Matches (rs.foldl Regex.seq (anchor .textStart)) b cs a ↔
      b = none ∧ Chained Ps cs := by
    intro b cs a
    rw [matches_chain h hstart]
    simp
  rw [finds_iff]
  constructor
  · rintro ⟨xs, _, zs, htext, hmatches⟩
    obtain ⟨ys, _, rfl, hys, hend⟩ := matches_seq.1 hmatches
    obtain rfl := (matches_anchor.1 hend).1
    have hzs : zs = [] := by simpa [matches_anchor, Anchor.holds] using hend
    obtain ⟨hxs, hread⟩ := (hchain _ _ _).1 hys
    obtain rfl := List.getLast?_eq_none_iff.1 hxs
    subst hzs
    simpa [htext] using hread
  · intro htext
    refine ⟨[], text.toList, [], by simp, ?_⟩
    rw [anchored, matches_seq]
    exact ⟨text.toList, [], by simp, (hchain _ _ _).2 ⟨rfl, htext⟩, .anchor rfl⟩

end Denotations

end Regex

end DiscoveryMetadata.Pattern
