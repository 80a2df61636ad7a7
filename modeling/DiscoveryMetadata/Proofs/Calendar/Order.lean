import DiscoveryMetadata.Proofs.Calendar.Days
import DiscoveryMetadata.Proofs.Calendar.Spelling
import Mathlib.Data.Rat.Floor
import Mathlib.Tactic.Linarith
import Mathlib.Tactic.NormNum
/-
  What it means that one date text is after another.

  A spelled date denotes a moment on the line of seconds, which is a rational number: its fraction
  may have any number of digits. Of the moments that two texts denote, `isAfter` compares the whole
  seconds. It is the strict order of the moments for all pairs but those that lie within one second,
  the first of them later by a fraction.
-/
namespace DiscoveryMetadata.Calendar

/-- The value of a decimal digit of any script. -/
def digitValue (c : Char) : Nat :=
  match Text.digitRuns.find? fun run => run.1 ≤ c.toNat && c.toNat ≤ run.2 with
  | some run => (c.toNat - run.1) % 10
  | none => 0

/-- The value of the digits behind a decimal point. -/
def fractionValue : List Char → ℚ
  | [] => 0
  | d :: ds => (digitValue d + fractionValue ds) / 10

/-- The moment that is spelled, in seconds. -/
def Spelling.moment (s : Spelling) : ℚ := s.reading.number + fractionValue s.detail.fraction

theorem digitValue_lt (c : Char) : digitValue c < 10 := by
  unfold digitValue
  split
  · exact Nat.mod_lt _ (by omega)
  · omega

theorem fractionValue_mem (ds : List Char) : 0 ≤ fractionValue ds ∧ fractionValue ds < 1 := by
  induction ds with
  | nil => simp [fractionValue]
  | cons d ds ih =>
    have hpos : (0 : ℚ) ≤ digitValue d := Nat.cast_nonneg _
    have hle : (digitValue d : ℚ) ≤ 9 := by
      have := digitValue_lt d
      exact_mod_cast (by omega : digitValue d ≤ 9)
    rw [fractionValue]
    constructor
    · linarith
    · linarith

/-- The whole seconds of a moment are those of its day, clock and zone. -/
theorem floor_moment (s : Spelling) : ⌊s.moment⌋ = s.reading.number := by
  rw [Int.floor_eq_iff, Spelling.moment]
  have := fractionValue_mem s.detail.fraction
  constructor
  · linarith
  · linarith

/-- Within one second the order is not seen in the whole seconds; otherwise it is. -/
theorem floor_lt_iff {x y : ℚ} :
    (⌊x⌋ < ⌊y⌋ ↔ x < y) ↔ ¬(⌊x⌋ = ⌊y⌋ ∧ x < y) := by
  have hmono : x < y → ⌊x⌋ ≤ ⌊y⌋ := fun h => Int.floor_mono h.le
  have hfloor : ⌊x⌋ < ⌊y⌋ → x < y := fun h => Int.floor_mono.reflect_lt h
  constructor
  · rintro h ⟨heq, hlt⟩
    have := h.2 hlt
    omega
  · intro h
    -- the whole seconds cannot decrease, and by assumption they are not the same
    refine ⟨hfloor, fun hlt => ?_⟩
    have hne : ⌊x⌋ ≠ ⌊y⌋ := fun heq => h ⟨heq, hlt⟩
    have := hmono hlt
    omega

/-- A text that has a date kind is read, and its instant is in the calendar. -/
theorem read?_of_kind? {text : String} (h : (kind? text).isSome = true) :
    ∃ r i, read? text = some r ∧ r.instant? = some i := by
  obtain ⟨k, hk⟩ := Option.isSome_iff_exists.1 h
  unfold kind? at hk
  rw [Option.bind_eq_some_iff] at hk
  obtain ⟨r, hr, hk⟩ := hk
  rw [Option.map_eq_some_iff] at hk
  obtain ⟨i, hi, -⟩ := hk
  exact ⟨r, i, hr, hi⟩

/-- Date texts are spelled, and one is after another exactly if the whole seconds of the moment that
it spells are greater. That is the strict order of the moments unless they lie within one second and
the first is the later. -/
theorem isAfter_iff_second {a b : String} (ha : (kind? a).isSome = true)
    (hb : (kind? b).isSome = true) :
    (∃ s : Spelling, s.Spells a) ∧ (∃ t : Spelling, t.Spells b) ∧
      ∀ s t : Spelling, s.Spells a → t.Spells b →
        (isAfter a b = true ↔ ⌊t.moment⌋ < ⌊s.moment⌋) ∧
        ((isAfter a b = true ↔ t.moment < s.moment) ↔
          ¬(⌊t.moment⌋ = ⌊s.moment⌋ ∧ t.moment < s.moment)) := by
  obtain ⟨ra, x, hra, hx⟩ := read?_of_kind? ha
  obtain ⟨rb, y, hrb, hy⟩ := read?_of_kind? hb
  obtain ⟨s, hs, -⟩ := exists_spelling hra
  obtain ⟨t, ht, -⟩ := exists_spelling hrb
  refine ⟨⟨s, hs⟩, ⟨t, ht⟩, ?_⟩
  -- whichever spellings are given, they say what was read
  intro s t hs ht
  have hafter : isAfter a b = true ↔ ⌊t.moment⌋ < ⌊s.moment⌋ := by
    rw [floor_moment, floor_moment, reading_of_spells hs hra, reading_of_spells ht hrb]
    exact isAfter_of_instants hra hx hrb hy
  refine ⟨hafter, ?_⟩
  rw [hafter]
  exact floor_lt_iff

theorem isAfter_iff_second_zoned :
    (kind? "2003-01-01T00:00:00.25-01:00").isSome = true ∧ (kind? "2003-01").isSome = true ∧
      ∀ s t : Spelling, s.Spells "2003-01-01T00:00:00.25-01:00" → t.Spells "2003-01" →
        (isAfter "2003-01-01T00:00:00.25-01:00" "2003-01" = true ↔ ⌊t.moment⌋ < ⌊s.moment⌋) := by
  have ha : (kind? "2003-01-01T00:00:00.25-01:00").isSome = true := by decide +kernel
  have hb : (kind? "2003-01").isSome = true := by decide +kernel
  refine ⟨ha, hb, ?_⟩
  intro s t hs ht
  obtain ⟨-, -, h⟩ := isAfter_iff_second ha hb
  exact (h s t hs ht).1

/-- Half a second and a fifth of the same second: the later is not found to be after the earlier. -/
theorem isAfter_within_second :
    (kind? "2003-01-01T00:00:00.5Z").isSome = true ∧
      (kind? "2003-01-01T00:00:00.2Z").isSome = true ∧
      isAfter "2003-01-01T00:00:00.5Z" "2003-01-01T00:00:00.2Z" = false ∧
      ∃ s t : Spelling, s.Spells "2003-01-01T00:00:00.5Z" ∧ t.Spells "2003-01-01T00:00:00.2Z" ∧
        t.moment < s.moment := by
  refine ⟨by decide +kernel, by decide +kernel, by decide +kernel,
    ⟨false, ['2', '0', '0', '3'], .second 1 1 0 0 0 ['5'], some .universal⟩,
    ⟨false, ['2', '0', '0', '3'], .second 1 1 0 0 0 ['2'], some .universal⟩, ?_, ?_, ?_⟩
  · refine ⟨⟨List.all_eq_true.1 (by decide), by decide, ?_, by simp [Zone.Proper]⟩, ?_⟩
    · exact ⟨by omega, by omega, by omega, by omega, by omega, List.all_eq_true.1 (by decide)⟩
    · decide +kernel
  · refine ⟨⟨List.all_eq_true.1 (by decide), by decide, ?_, by simp [Zone.Proper]⟩, ?_⟩
    · exact ⟨by omega, by omega, by omega, by omega, by omega, List.all_eq_true.1 (by decide)⟩
    · decide +kernel
  · have hhalf : digitValue '5' = 5 := by decide +kernel
    have hfifth : digitValue '2' = 2 := by decide +kernel
    simp [Spelling.moment, Spelling.reading, Detail.reading, Detail.fraction, fractionValue,
      hhalf, hfifth, Spelling.year]
    norm_num

end DiscoveryMetadata.Calendar
