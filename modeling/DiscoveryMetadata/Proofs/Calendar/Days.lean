import DiscoveryMetadata.Calendar
import Mathlib.Algebra.BigOperators.Intervals
import Mathlib.Algebra.Order.BigOperators.Group.Finset
/-
  Days and instants on a line.

  A day of the calendar has a number: the days of all earlier years, of the earlier months of its
  own year, and those of its month up to itself. An instant has the number of its second. What the
  calendar does with dates is arithmetic on these numbers:

    1. `Date.number_next`, `Date.number_previous`: the day after and the day before differ by one,
       across the ends of months and years;
    2. `Date.before_iff`, `Instant.before_iff`: what comes before has the smaller number;
    3. `Reading.number_instant`: the instant that is found for a reading has the number of the
       local day and clock, less the seconds of the zone.
-/
namespace DiscoveryMetadata.Calendar

/-- The days from the first day of the year 1 to the first day of a year. -/
def daysBefore (year : Int) : Int :=
  365 * (year - 1) + (year - 1) / 4 - (year - 1) / 100 + (year - 1) / 400

/-- The days of a year. -/
def daysOf (year : Int) : Nat := if isLeap year then 366 else 365

/-- The days of a year before a month. -/
def daysBeforeMonth (year : Int) (month : Nat) : Nat := ∑ m ∈ Finset.Ico 1 month, daysIn year m

theorem isLeap_iff {year : Int} :
    isLeap year = true ↔ year % 4 = 0 ∧ (year % 100 ≠ 0 ∨ year % 400 = 0) := by
  simp [isLeap]

theorem daysBefore_succ (year : Int) : daysBefore (year + 1) = daysBefore year + daysOf year := by
  unfold daysBefore daysOf
  by_cases h : isLeap year = true
  · rw [if_pos h]
    rw [isLeap_iff] at h
    omega
  · rw [if_neg h]
    rw [isLeap_iff] at h
    omega

theorem daysBefore_mono {a b : Int} (h : a ≤ b) : daysBefore a ≤ daysBefore b := by
  unfold daysBefore
  omega

theorem daysBeforeMonth_one (year : Int) : daysBeforeMonth year 1 = 0 := rfl

theorem daysBeforeMonth_succ (year : Int) {month : Nat} (h : 1 ≤ month) :
    daysBeforeMonth year (month + 1) = daysBeforeMonth year month + daysIn year month :=
  Finset.sum_Ico_succ_top h _

theorem daysBeforeMonth_mono (year : Int) {m n : Nat} (h : m ≤ n) :
    daysBeforeMonth year m ≤ daysBeforeMonth year n := by
  apply Finset.sum_le_sum_of_subset
  exact Finset.Ico_subset_Ico_right h

/-- The twelve months make up the year. -/
theorem daysBeforeMonth_thirteen (year : Int) : daysBeforeMonth year 13 = daysOf year := by
  unfold daysOf
  by_cases h : isLeap year = true
  · rw [if_pos h]
    simp [daysBeforeMonth, Finset.sum_Ico_succ_top, daysIn, h]
  · rw [if_neg h]
    simp [daysBeforeMonth, Finset.sum_Ico_succ_top, daysIn, h]

namespace Date

/-- The number of a day; the first day of the year 1 has the number 1. -/
def number (d : Date) : Int := daysBefore d.year + daysBeforeMonth d.year d.month + d.day

theorem isValid_iff {d : Date} : d.isValid = true ↔
    firstYear ≤ d.year ∧ d.year ≤ lastYear ∧ 1 ≤ d.month ∧ d.month ≤ 12 ∧ 1 ≤ d.day ∧
      d.day ≤ daysIn d.year d.month := by
  simp [isValid, and_assoc]

theorem number_next {d : Date} (h : d.isValid = true) : d.next.number = d.number + 1 := by
  obtain ⟨-, -, hm, hm', -, hd⟩ := isValid_iff.1 h
  unfold next
  split
  · show daysBefore d.year + daysBeforeMonth d.year d.month + ((d.day + 1 : Nat) : Int) = _
    unfold number
    omega
  · have hlast : d.day = daysIn d.year d.month := by omega
    split
    · -- the last day of a month other than December
      have hstep := daysBeforeMonth_succ d.year hm
      show daysBefore d.year + daysBeforeMonth d.year (d.month + 1) + ((1 : Nat) : Int) = _
      unfold number
      omega
    · -- the last day of the year
      have hdec : d.month = 12 := by omega
      have hyear := daysBefore_succ d.year
      have hmonths := daysBeforeMonth_thirteen d.year
      rw [daysBeforeMonth_succ d.year (by omega)] at hmonths
      show daysBefore (d.year + 1) + daysBeforeMonth (d.year + 1) 1 + ((1 : Nat) : Int) = _
      unfold number
      rw [daysBeforeMonth_one, hlast, hdec]
      omega

theorem number_previous {d : Date} (h : d.isValid = true) : d.previous.number = d.number - 1 := by
  obtain ⟨-, -, hm, -, hd, -⟩ := isValid_iff.1 h
  unfold previous
  split
  · show daysBefore d.year + daysBeforeMonth d.year d.month + ((d.day - 1 : Nat) : Int) = _
    unfold number
    omega
  · have hfirst : d.day = 1 := by omega
    split
    · -- the first day of a month other than January
      have hstep := daysBeforeMonth_succ d.year (show 1 ≤ d.month - 1 by omega)
      rw [Nat.sub_add_cancel hm] at hstep
      show daysBefore d.year + daysBeforeMonth d.year (d.month - 1) +
        (daysIn d.year (d.month - 1) : Int) = _
      unfold number
      omega
    · -- the first day of the year
      have hjan : d.month = 1 := by omega
      have hyear := daysBefore_succ (d.year - 1)
      rw [Int.sub_add_cancel] at hyear
      have hmonths := daysBeforeMonth_thirteen (d.year - 1)
      rw [daysBeforeMonth_succ (d.year - 1) (by omega)] at hmonths
      have hdec : daysIn (d.year - 1) 12 = 31 := rfl
      show daysBefore (d.year - 1) + daysBeforeMonth (d.year - 1) 12 + ((31 : Nat) : Int) = _
      unfold number
      rw [hjan, daysBeforeMonth_one, hfirst]
      omega

/-- A day lies behind all days of the earlier months and not behind its own month. -/
theorem number_month {d : Date} (h : d.isValid = true) :
    daysBefore d.year + daysBeforeMonth d.year d.month < d.number ∧
      d.number ≤ daysBefore d.year + daysBeforeMonth d.year (d.month + 1) := by
  obtain ⟨-, -, hm, -, hd, hd'⟩ := isValid_iff.1 h
  rw [daysBeforeMonth_succ d.year hm]
  unfold number
  omega

/-- A day lies behind all days of the earlier years and not behind its own year. -/
theorem number_year {d : Date} (h : d.isValid = true) :
    daysBefore d.year < d.number ∧ d.number ≤ daysBefore (d.year + 1) := by
  obtain ⟨-, -, -, hm, -, -⟩ := isValid_iff.1 h
  have hmonth := number_month h
  have hend := daysBeforeMonth_mono d.year (show d.month + 1 ≤ 13 by omega)
  rw [daysBeforeMonth_thirteen] at hend
  rw [daysBefore_succ]
  omega

theorem before_eq {a b : Date} : a.before b = true ↔
    a.year < b.year ∨ a.year = b.year ∧ (a.month < b.month ∨ a.month = b.month ∧ a.day < b.day) := by
  simp [before]

theorem number_lt_of_before {a b : Date} (ha : a.isValid = true) (hb : b.isValid = true)
    (h : a.before b = true) : a.number < b.number := by
  rcases before_eq.1 h with hyear | ⟨hyear, hmonth | ⟨hmonth, hday⟩⟩
  · calc a.number ≤ daysBefore (a.year + 1) := (number_year ha).2
      _ ≤ daysBefore b.year := daysBefore_mono (by omega)
      _ < b.number := (number_year hb).1
  · have hle := daysBeforeMonth_mono b.year (show a.month + 1 ≤ b.month by omega)
    have hbefore := (number_month ha).2
    have hafter := (number_month hb).1
    rw [hyear] at hbefore
    omega
  · unfold number
    rw [hyear, hmonth]
    omega

/-- Of two days that differ, one comes before the other. -/
theorem before_total (a b : Date) : a.before b = true ∨ a = b ∨ b.before a = true := by
  rw [before_eq, before_eq]
  have heq : a = b ↔ a.year = b.year ∧ a.month = b.month ∧ a.day = b.day := by
    cases a
    cases b
    simp
  rw [heq]
  omega

theorem before_iff {a b : Date} (ha : a.isValid = true) (hb : b.isValid = true) :
    a.before b = true ↔ a.number < b.number := by
  constructor
  · exact number_lt_of_before ha hb
  · intro h
    rcases before_total a b with hab | rfl | hba
    · exact hab
    · omega
    · have := number_lt_of_before hb ha hba
      omega

theorem eq_iff {a b : Date} (ha : a.isValid = true) (hb : b.isValid = true) :
    a = b ↔ a.number = b.number := by
  constructor
  · intro h
    rw [h]
  · intro h
    rcases before_total a b with hab | hab | hba
    · have := number_lt_of_before ha hb hab
      omega
    · exact hab
    · have := number_lt_of_before hb ha hba
      omega

end Date

namespace Instant

/-- The number of the second. -/
def number (i : Instant) : Int := i.date.number * dayLength + i.second

/-- The day exists and has that second. -/
structure Proper (i : Instant) : Prop where
  day : i.date.isValid = true
  clock : i.second < dayLength

theorem before_iff {a b : Instant} (ha : a.Proper) (hb : b.Proper) :
    a.before b = true ↔ a.number < b.number := by
  have hclock := ha.clock
  have hclock' := hb.clock
  rw [before, Bool.or_eq_true, Bool.and_eq_true, beq_iff_eq, decide_eq_true_eq,
    Date.before_iff ha.day hb.day, Date.eq_iff ha.day hb.day]
  unfold number
  unfold dayLength at *
  omega

/-- Less than a day earlier, the number is smaller by the seconds, whether or not the day changes. -/
theorem number_earlier {i j : Instant} {seconds : Int} (hi : i.Proper)
    (hs : seconds.natAbs < dayLength) (h : i.earlier? seconds = some j) :
    j.number = i.number - seconds ∧ j.Proper := by
  have hclock := hi.clock
  have hnext := Date.number_next hi.day
  have hprevious := Date.number_previous hi.day
  unfold earlier? at h
  simp only [Option.ite_none_right_eq_some, Option.some.injEq] at h
  obtain ⟨hday, rfl⟩ := h
  unfold dayLength at *
  -- the clock passes midnight backwards, forwards, or not at all
  split at hday <;> rename_i hneg
  · rw [if_pos hneg]
    refine ⟨?_, hday, ?_⟩
    · show i.date.previous.number * 86400 + (((i.second : Int) - seconds + 86400).toNat : Int) = _
      unfold number dayLength
      omega
    · show ((i.second : Int) - seconds + 86400).toNat < 86400
      omega
  · rw [if_neg hneg]
    split at hday <;> rename_i hfull
    · rw [if_pos hfull]
      refine ⟨?_, hday, ?_⟩
      · show i.date.next.number * 86400 + (((i.second : Int) - seconds - 86400).toNat : Int) = _
        unfold number dayLength
        omega
      · show ((i.second : Int) - seconds - 86400).toNat < 86400
        omega
    · rw [if_neg hfull]
      refine ⟨?_, hday, ?_⟩
      · show i.date.number * 86400 + (((i.second : Int) - seconds).toNat : Int) = _
        unfold number dayLength
        omega
      · show ((i.second : Int) - seconds).toNat < 86400
        omega

end Instant

namespace Reading

/-- The number of the second at which the day and clock of a reading stand in universal time. -/
def number (r : Reading) : Int :=
  r.date.number * dayLength + (r.hour * 3600 + r.minute * 60 + r.second : Nat) - r.zone

/-- The day of a reading and its clock are an instant if its numbers are in range. -/
theorem proper_clock {r : Reading} (hday : r.date.isValid = true) (hhour : r.hour < 24)
    (hminute : r.minute < 60) (hsecond : r.second < 60) :
    Instant.Proper ⟨r.date, r.hour * 3600 + r.minute * 60 + r.second⟩ := by
  refine ⟨hday, ?_⟩
  show r.hour * 3600 + r.minute * 60 + r.second < 86400
  omega

/-- The instant found for a reading is that of its day, clock and zone. -/
theorem number_instant {r : Reading} {i : Instant} (h : r.instant? = some i) :
    i.number = r.number ∧ i.Proper := by
  unfold instant? at h
  rw [Option.ite_none_right_eq_some] at h
  obtain ⟨hr, h⟩ := h
  simp only [Bool.and_eq_true, decide_eq_true_eq] at hr
  obtain ⟨⟨⟨⟨hday, hhour⟩, hminute⟩, hsecond⟩, hzone⟩ := hr
  have hclock := proper_clock hday hhour hminute hsecond
  obtain ⟨hnumber, hproper⟩ := Instant.number_earlier hclock hzone h
  refine ⟨?_, hproper⟩
  rw [hnumber, Instant.number, number]

end Reading

/-- One text is after another exactly if its instant has the greater number. -/
theorem isAfter_of_instants {a b : String} {r s : Reading} {x y : Instant}
    (ha : read? a = some r) (hx : r.instant? = some x) (hb : read? b = some s)
    (hy : s.instant? = some y) : isAfter a b = true ↔ s.number < r.number := by
  obtain ⟨hnx, hpx⟩ := Reading.number_instant hx
  obtain ⟨hny, hpy⟩ := Reading.number_instant hy
  have hia : Calendar.instant? a = some x := by rw [Calendar.instant?, ha]; exact hx
  have hib : Calendar.instant? b = some y := by rw [Calendar.instant?, hb]; exact hy
  unfold isAfter
  rw [hia, hib, ← hnx, ← hny]
  exact Instant.before_iff hpy hpx

end DiscoveryMetadata.Calendar
