import DiscoveryMetadata.Text.Basic
import DiscoveryMetadata.Text.Escape
import Mathlib.Data.List.Induction
/-
  Text that is escaped and read back.

  Reading the references in a text undoes writing them (`unescape_escapeWhere`), as long as the
  ampersand is among the characters that are written as references. Escaped text holds none of the
  characters that it stands for otherwise, the ampersand aside (`not_mem_escapeWhere`), so that
  quotes and tags around it can be told, and it has no blanks at its ends where the text has none
  (`head?_escapeWhere`, `getLast?_escapeWhere`).
-/
namespace DiscoveryMetadata.Text

section References

variable {p : Char → Bool} {cs : List Char} {c : Char} {name : String}

/-- A reserved character is written as one of the five named references. -/
theorem reference_cases (h : reference c = some name) :
    (c, name) ∈
      [('<', "&lt;"), ('>', "&gt;"), ('&', "&amp;"), ('\'', "&apos;"), ('"', "&quot;")] := by
  unfold reference at h
  split at h <;> simp_all

/-- Reading a named reference gives the character that it was written for. -/
theorem unescapeFrom_reference (h : reference c = some name) (r : List Char) :
    unescapeFrom none (name.toList ++ r) = (unescapeFrom none r).map (c :: ·) := by
  have hc := reference_cases h
  simp only [List.mem_cons, Prod.mk.injEq, List.not_mem_nil, or_false] at hc
  rcases hc with ⟨rfl, rfl⟩ | ⟨rfl, rfl⟩ | ⟨rfl, rfl⟩ | ⟨rfl, rfl⟩ | ⟨rfl, rfl⟩ <;>
    simp [unescapeFrom, referent?]

theorem escapeWhere_cons (p : Char → Bool) (c : Char) (r : List Char) :
    escapeWhere p (c :: r) =
      (if p c then ((reference c).map String.toList).getD [c] else [c]) ++ escapeWhere p r := by
  rw [escapeWhere]
  cases reference c <;> by_cases hp : p c <;> simp [hp]

theorem unescape_escapeWhere (hp : p '&' = true) : unescape (escapeWhere p cs) = some cs := by
  rw [unescape]
  induction cs with
  | nil => rfl
  | cons c r ih =>
    rw [escapeWhere_cons]
    by_cases hc : c = '&'
    · subst hc
      rw [if_pos hp]
      exact (unescapeFrom_reference rfl _).trans (by rw [ih]; rfl)
    · cases href : reference c with
      | none => simp [unescapeFrom, hc, ih]
      | some name =>
        by_cases hpc : p c = true
        · rw [if_pos hpc]
          exact (unescapeFrom_reference href _).trans (by rw [ih]; rfl)
        · simp [hpc, unescapeFrom, hc, ih]

/-- A character that is always written as a reference does not stand in escaped text. -/
theorem not_mem_escapeWhere (hp : p c = true) (hc : (reference c).isSome) (hamp : c ≠ '&') :
    c ∉ escapeWhere p cs := by
  obtain ⟨name, hname⟩ := Option.isSome_iff_exists.1 hc
  have hcase := reference_cases hname
  induction cs with
  | nil => simp [escapeWhere]
  | cons x r ih =>
    rw [escapeWhere_cons, List.mem_append, not_or]
    refine ⟨?_, ih⟩
    cases hx : reference x with
    | none =>
      rintro hmem
      have hcx : c = x := by simpa using hmem
      rw [hcx, hx] at hname
      cases hname
    | some other =>
      have hxcase := reference_cases hx
      by_cases hpx : p x = true
      · simp only [hpx, if_true, Option.map_some, Option.getD_some]
        simp only [List.mem_cons, Prod.mk.injEq, List.not_mem_nil, or_false] at hcase hxcase
        rcases hcase with ⟨rfl, -⟩ | ⟨rfl, -⟩ | ⟨rfl, -⟩ | ⟨rfl, -⟩ | ⟨rfl, -⟩ <;>
          rcases hxcase with ⟨-, rfl⟩ | ⟨-, rfl⟩ | ⟨-, rfl⟩ | ⟨-, rfl⟩ | ⟨-, rfl⟩ <;>
          first | exact absurd rfl hamp | decide
      · have hne : c ≠ x := by
          rintro rfl
          exact hpx hp
        simpa [hpx] using hne

/-- References are read one after the other. -/
theorem unescape_append {a b : List Char} (h : unescape a = some cs) :
    unescape (a ++ b) = (unescape b).map (cs ++ ·) := by
  -- the induction passes through references, so it is on the reader in any state
  suffices hfrom : ∀ pending, unescapeFrom pending a = some cs →
      unescapeFrom pending (a ++ b) = (unescape b).map (cs ++ ·) from hfrom none h
  clear h
  induction a generalizing cs with
  | nil =>
    rintro (_ | pending) h
    · obtain rfl := Option.some.inj h
      simp [unescape]
    · cases h
  | cons c a ih =>
    rintro (_ | pending) h
    · rw [unescapeFrom] at h
      rw [List.cons_append, unescapeFrom]
      split at h
      case isTrue hc => rw [if_pos hc, ih _ h]
      case isFalse hc =>
        obtain ⟨t, ht, rfl⟩ := Option.map_eq_some_iff.1 h
        rw [if_neg hc, ih _ ht, Option.map_map]
        rfl
    · rw [unescapeFrom] at h
      rw [List.cons_append, unescapeFrom]
      split at h
      case isTrue hc =>
        obtain ⟨x, hx, h⟩ := Option.bind_eq_some_iff.1 h
        obtain ⟨t, ht, rfl⟩ := Option.map_eq_some_iff.1 h
        rw [if_pos hc, hx, Option.bind_some, ih _ ht, Option.map_map]
        rfl
      case isFalse hc =>
        split at h
        case isTrue => cases h
        case isFalse hamp => rw [if_neg hc, if_neg hamp, ih _ h]

/-- A text without references stands for itself. -/
theorem unescape_of_notMem (h : '&' ∉ cs) : unescape cs = some cs := by
  induction cs with
  | nil => rfl
  | cons c r ih =>
    simp only [List.mem_cons, not_or] at h
    rw [unescape, unescapeFrom, if_neg (Ne.symm h.1)]
    change (unescape r).map (c :: ·) = _
    rw [ih h.2]
    rfl

end References

section Ends

variable {p : Char → Bool} {c : Char} {cs : List Char}

theorem escapeWhere_append (p : Char → Bool) (a b : List Char) :
    escapeWhere p (a ++ b) = escapeWhere p a ++ escapeWhere p b := by
  induction a with
  | nil => rfl
  | cons c r ih => rw [List.cons_append, escapeWhere_cons, escapeWhere_cons, ih, List.append_assoc]

/-- Blanks are written as they are. -/
theorem escapeWhere_blank (h : ∀ c ∈ cs, isXmlSpace c = true) : escapeWhere p cs = cs := by
  induction cs with
  | nil => rfl
  | cons c r ih =>
    obtain ⟨hc, hr⟩ := List.forall_mem_cons.1 h
    have hc : reference c = none := by
      simp only [isXmlSpace, Bool.or_eq_true, beq_iff_eq] at hc
      rcases hc with ((rfl | rfl) | rfl) | rfl <;> rfl
    simp [escapeWhere_cons, hc, ih hr]

/-- A character is written as itself, or as a reference, which has no blanks in it. -/
theorem mem_escapeWhere_singleton {x : Char} (h : x ∈ escapeWhere p [c]) :
    x = c ∨ isXmlSpace x = false := by
  rw [escapeWhere_cons] at h
  cases hr : reference c with
  | none => exact .inl (by simpa [hr, escapeWhere] using h)
  | some name =>
    by_cases hp : p c = true
    · right
      have hname : x ∈ name.toList := by simpa [hr, hp, escapeWhere] using h
      have hc := reference_cases hr
      simp only [List.mem_cons, Prod.mk.injEq, List.not_mem_nil, or_false] at hc
      have hall : ∀ x ∈ name.toList, isXmlSpace x = false := by
        rcases hc with ⟨-, rfl⟩ | ⟨-, rfl⟩ | ⟨-, rfl⟩ | ⟨-, rfl⟩ | ⟨-, rfl⟩ <;>
          simp [isXmlSpace]
      exact hall x hname
    · exact .inl (by simpa [hp, escapeWhere] using h)

theorem escapeWhere_singleton_ne_nil : escapeWhere p [c] ≠ [] := by
  rw [escapeWhere_cons]
  cases hr : reference c with
  | none => simp
  | some name =>
    have hc := reference_cases hr
    simp only [List.mem_cons, Prod.mk.injEq, List.not_mem_nil, or_false] at hc
    by_cases hp : p c = true
    · rcases hc with ⟨-, rfl⟩ | ⟨-, rfl⟩ | ⟨-, rfl⟩ | ⟨-, rfl⟩ | ⟨-, rfl⟩ <;> simp [hp]
    · simp [hp]

/-- What is written for a text that begins with no blank begins with none. -/
theorem head?_escapeWhere (h : ∀ c ∈ cs.head?, isXmlSpace c = false) :
    ∀ x ∈ (escapeWhere p cs).head?, isXmlSpace x = false := by
  cases cs with
  | nil => simp [escapeWhere]
  | cons c r =>
    intro x hx
    obtain ⟨y, t, ht⟩ := List.exists_cons_of_ne_nil (escapeWhere_singleton_ne_nil (p := p) (c := c))
    have hcons : escapeWhere p (c :: r) = y :: (t ++ escapeWhere p r) := by
      rw [← List.singleton_append, escapeWhere_append, ht, List.cons_append]
    rw [hcons] at hx
    obtain rfl : y = x := by simpa using hx
    rcases mem_escapeWhere_singleton (ht ▸ List.mem_cons_self : y ∈ escapeWhere p [c]) with rfl | hy
    · exact h y rfl
    · exact hy

/-- What is written for a text that ends with no blank ends with none. -/
theorem getLast?_escapeWhere (h : ∀ c ∈ cs.getLast?, isXmlSpace c = false) :
    ∀ x ∈ (escapeWhere p cs).getLast?, isXmlSpace x = false := by
  cases cs using List.reverseRecOn with
  | nil => simp [escapeWhere]
  | append_singleton r c =>
    intro x hx
    have hlast : (escapeWhere p (r ++ [c])).getLast? = (escapeWhere p [c]).getLast? := by
      obtain ⟨y, hy⟩ := Option.ne_none_iff_exists'.1
        (mt List.getLast?_eq_none_iff.1 (escapeWhere_singleton_ne_nil (p := p) (c := c)))
      rw [escapeWhere_append, List.getLast?_append, hy, Option.some_or]
    rw [hlast] at hx
    rcases mem_escapeWhere_singleton (List.mem_of_getLast? hx) with rfl | hx
    · exact h x (by simp)
    · exact hx

end Ends

end DiscoveryMetadata.Text
