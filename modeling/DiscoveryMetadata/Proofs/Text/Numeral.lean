import DiscoveryMetadata.Proofs.Equality
import Mathlib.Data.Int.Basic
/-
  Numbers survive being written and read.

  A whole number is written as its decimal digits, after a minus sign if it is negative. That text is
  neither empty nor has it white space, and reading it gives the number again, as long as it fits
  the bits that are read (`int64?_text`).

  The text of a double is one word: digits, a point and a sign, or the name of what is no such
  number. So the texts of several doubles can stand in one list.
-/
namespace DiscoveryMetadata.Text

theorem toList_natText (n : Nat) : (toString n).toList = Nat.toDigits 10 n :=
  Nat.toList_repr

theorem toList_intText_nat (n : Nat) : (toString (n : Int)).toList = Nat.toDigits 10 n :=
  Nat.toList_repr

theorem toList_intText_neg (n : Nat) :
    (toString (Int.negSucc n)).toList = '-' :: Nat.toDigits 10 (n + 1) := by
  show ("-" ++ (n + 1).repr).toList = _
  rw [String.toList_append, Nat.toList_repr]
  rfl

/-- The characters of a whole number. -/
theorem mem_intText {n : Int} {c : Char} (h : c ∈ (toString n).toList) : c.isDigit ∨ c = '-' := by
  cases n with
  | ofNat n =>
    rw [Int.ofNat_eq_natCast, toList_intText_nat] at h
    exact .inl (Nat.isDigit_of_mem_toDigits (by omega) (by omega) h)
  | negSucc n =>
    rw [toList_intText_neg] at h
    rcases List.mem_cons.1 h with rfl | h
    · exact .inr rfl
    · exact .inl (Nat.isDigit_of_mem_toDigits (by omega) (by omega) h)

theorem intText_ne_empty (n : Int) : toString n ≠ "" := by
  intro h
  have h : (toString n).toList = [] := by rw [h]; rfl
  cases n with
  | ofNat n =>
    rw [Int.ofNat_eq_natCast, toList_intText_nat] at h
    exact Nat.toDigits_ne_nil h
  | negSucc n =>
    rw [toList_intText_neg] at h
    cases h

theorem digits?_toDigits (n : Nat) : digits? (Nat.toDigits 10 n) = some n := by
  have hd : (Nat.toDigits 10 n).all Char.isDigit = true :=
    List.all_eq_true.2 fun c hc => Nat.isDigit_of_mem_toDigits (by omega) (by omega) hc
  have he : (Nat.toDigits 10 n).isEmpty = false := by
    simp [List.isEmpty_eq_false_iff, Nat.toDigits_ne_nil]
  unfold digits?
  rw [hd, he, if_neg (by simp)]
  calc some ((Nat.toDigits 10 n).foldl (fun n c => n * 10 + (c.toNat - '0'.toNat)) 0)
      = some (Nat.ofDigitChars 10 (Nat.toDigits 10 n) 0) := by
        simp only [Nat.ofDigitChars_eq_foldl, Nat.mul_comm]
    _ = some n := by rw [Nat.ofDigitChars_ten_toDigits]

theorem signed?_intText (n : Int) : signed? (toString n).toList = some n := by
  cases n with
  | ofNat n =>
    rw [Int.ofNat_eq_natCast, toList_intText_nat]
    have hd : ∀ c ∈ Nat.toDigits 10 n, c.isDigit := fun c hc =>
      Nat.isDigit_of_mem_toDigits (by omega) (by omega) hc
    have hv := digits?_toDigits n
    unfold signed?
    split <;> rename_i heq
    · exact absurd (hd '-' (by rw [heq]; exact List.mem_cons_self)) (by decide)
    · exact absurd (hd '+' (by rw [heq]; exact List.mem_cons_self)) (by decide)
    · rw [hv]
      rfl
  | negSucc n =>
    rw [toList_intText_neg, signed?, digits?_toDigits]
    rfl

/-- What is read from the text of a number that fits 64 bits. -/
theorem int64?_intText {n : Int} (h : fits 64 n = true) : int64? (toString n) = some n := by
  rw [int64?, signed?_intText, Option.filter_some, if_pos h]

theorem isSpace_of_isDigit {c : Char} (h : c.isDigit = true) : isSpace c = false := by
  have hb : 48 ≤ c.toNat ∧ c.toNat ≤ 57 := by
    simp only [Char.isDigit, Bool.and_eq_true, decide_eq_true_eq] at h
    exact h
  simp only [isSpace, Bool.or_eq_false_iff, Bool.and_eq_false_iff, decide_eq_false_iff_not,
    beq_eq_false_iff_ne]
  omega

theorem isSpace_intText {n : Int} {c : Char} (h : c ∈ (toString n).toList) : isSpace c = false := by
  rcases mem_intText h with hd | rfl
  · exact isSpace_of_isDigit hd
  · decide

end DiscoveryMetadata.Text

namespace DiscoveryMetadata.Double

open Text (IsWord isSpace)

theorem isSpace_natText {n : Nat} {c : Char} (h : c ∈ (toString n).toList) : isSpace c = false := by
  rw [Text.toList_natText] at h
  exact Text.isSpace_of_isDigit (Nat.isDigit_of_mem_toDigits (by omega) (by omega) h)

theorem isSpace_positional {d : Nat} {e : Int} {c : Char} (h : c ∈ (positional d e).toList) :
    isSpace c = false := by
  unfold positional at h
  split at h
  case isTrue => exact isSpace_natText h
  case isFalse =>
    dsimp only at h
    split at h
    case isTrue => exact isSpace_natText h
    case isFalse =>
      -- the digits, perhaps after zeros, with the point between two of them
      rw [String.toList_ofList, List.mem_append, List.mem_cons] at h
      have hdigits : ∀ n, ∀ ds : List Char, (∀ x ∈ ds, isSpace x = false) →
          ∀ x ∈ List.replicate n '0' ++ ds, isSpace x = false := by
        intro n ds hds x hx
        rcases List.mem_append.1 hx with hx | hx
        · rw [List.eq_of_mem_replicate hx]
          decide
        · exact hds x hx
      rcases h with h | rfl | h
      · exact hdigits _ _ (fun _ => isSpace_natText) c (List.mem_of_mem_take h)
      · decide
      · exact hdigits _ _ (fun _ => isSpace_natText) c (List.mem_of_mem_drop h)

theorem isSpace_format {x : Double} {c : Char} (h : c ∈ x.format.toList) : isSpace c = false := by
  have hminus : ∀ s : String, (∀ c ∈ s.toList, isSpace c = false) →
      ∀ c ∈ ((if x.isNegative then "-" else "") ++ s).toList, isSpace c = false := by
    intro s hs c hc
    rw [String.toList_append] at hc
    rcases List.mem_append.1 hc with hc | hc
    · split at hc
      · obtain rfl := List.mem_singleton.1 hc
        decide
      · cases hc
    · exact hs c hc
  unfold format at h
  dsimp only at h
  split at h
  · exact (show IsWord "NaN" by decide).2 c h
  · split at h
    · exact hminus "inf" (show IsWord "inf" by decide).2 c h
    · split at h
      · rw [String.append_assoc] at h
        refine hminus _ (fun c hc => ?_) c h
        rw [String.toList_append] at hc
        rcases List.mem_append.1 hc with hc | hc
        · exact isSpace_natText hc
        · exact (show IsWord ".0" by decide).2 c hc
      · exact hminus _ (fun c hc => isSpace_positional hc) c h

theorem Faithful.isWord_format {x : Double} (h : x.Faithful) : IsWord x.format := by
  refine ⟨fun hempty => ?_, fun c => isSpace_format⟩
  have hblank := h.isBlank_format
  rw [hempty] at hblank
  cases hblank

end DiscoveryMetadata.Double
