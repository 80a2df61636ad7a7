import DiscoveryMetadata.Proofs.Calendar.Order
/-
  Which texts are dates.

  A text has a date kind if it is spelled as a date and what it spells can be found in the calendar:
  the numbers of its day and clock are in their ranges, its zone is less than a day away from
  universal time, and its moment does not leave the years of the calendar. `kind?_iff` says so in
  both directions. That is less than a date of the schema language asks for:

    1. the fraction of a second may have digits of any script;
    2. the minutes of a zone may go up to 99;
    3. a zone may be more than fourteen hours away.

  A text has only one spelling (`Spelling.Spells.unique`), so that its form, its fraction and its
  zone are its own. These three are then all that an accepted text may lack.
-/
namespace DiscoveryMetadata.Calendar

namespace Zone

/-- A zone of the schema language: minutes below sixty, and not more than fourteen hours in all. -/
def Legal : Zone → Prop
  | universal => True
  | offset _ hours minutes => minutes < 60 ∧ hours * 60 + minutes ≤ 14 * 60

end Zone

namespace Detail

/-- The form that goes into this much detail. -/
def kind : Detail → DateKind
  | year => .year
  | month _ => .yearMonth
  | day _ _ => .date
  | minute _ _ _ _ => .dateTime
  | second _ _ _ _ _ _ => .dateTime

/-- The numbers are those of a month, of a day of that month in that year, and of a clock. -/
def InRange (inYear : Int) : Detail → Prop
  | year => True
  | month m => 1 ≤ m ∧ m ≤ 12
  | day m d => (1 ≤ m ∧ m ≤ 12) ∧ 1 ≤ d ∧ d ≤ daysIn inYear m
  | minute m d h n => ((1 ≤ m ∧ m ≤ 12) ∧ 1 ≤ d ∧ d ≤ daysIn inYear m) ∧ h < 24 ∧ n < 60
  | second m d h n s _ =>
    ((1 ≤ m ∧ m ≤ 12) ∧ 1 ≤ d ∧ d ≤ daysIn inYear m) ∧ h < 24 ∧ n < 60 ∧ s < 60

end Detail

/-- The number of the first second of the calendar, -/
def firstSecond : Int := (daysBefore firstYear + 1) * dayLength

/-- and the number behind that of its last second. -/
def endSecond : Int := (daysBefore (lastYear + 1) + 1) * dayLength

/-- What is spelled can be found in the calendar. -/
structure Spelling.Admitted (s : Spelling) : Prop where
  year : firstYear ≤ s.year ∧ s.year ≤ lastYear
  range : s.detail.InRange s.year
  zone : (Zone.optionSeconds s.zone).natAbs < dayLength
  moment : firstSecond ≤ s.reading.number ∧ s.reading.number < endSecond

/-- The text, white space at its ends aside, is a date of the schema language in one of its forms. -/
def WellFormed (text : String) (k : DateKind) : Prop :=
  (∀ c ∈ (Text.trim text).toList, c.toNat < 128) ∧
    ∃ s : Spelling, s.Spells text ∧ s.detail.kind = k ∧ s.detail.InRange s.year ∧
      ∀ z ∈ s.zone, z.Legal

section Uniqueness

variable {m n : Nat} {r r' : List Char}

theorem pair_append_inj (hm : m < 100) (hn : n < 100) (h : pair m ++ r = pair n ++ r') :
    m = n ∧ r = r' := by
  have hread := two?_pair (r := r) hm
  rw [h, two?_pair hn] at hread
  obtain ⟨rfl, rfl⟩ := Prod.mk.inj (Option.some.inj hread)
  exact ⟨rfl, rfl⟩

theorem optionChars_inj {z w : Option Zone} (hz : ∀ x ∈ z, x.Proper) (hw : ∀ x ∈ w, x.Proper)
    (h : Zone.optionChars z = Zone.optionChars w) : z = w := by
  rcases z with _ | _ | ⟨ahead, hours, minutes⟩ <;> rcases w with _ | _ | ⟨ahead', hours', minutes'⟩
  case some.offset.some.offset =>
    obtain ⟨hh, hm⟩ : hours < 100 ∧ minutes < 100 := hz _ rfl
    obtain ⟨hh', hm'⟩ : hours' < 100 ∧ minutes' < 100 := hw _ rfl
    have h : (if ahead then '+' else '-') :: (pair hours ++ ':' :: pair minutes) =
        (if ahead' then '+' else '-') :: (pair hours' ++ ':' :: pair minutes') := h
    obtain ⟨hsign, hrest⟩ := List.cons.inj h
    have hahead : ahead = ahead' := by
      cases ahead <;> cases ahead' <;> simp at hsign <;> rfl
    obtain ⟨hhours, hcolon⟩ := pair_append_inj hh hh' hrest
    have hminutes : pair minutes ++ [] = pair minutes' ++ [] := by
      rw [List.append_nil, List.append_nil]
      exact (List.cons.inj hcolon).2
    rw [hahead, hhours, (pair_append_inj hm hm' hminutes).1]
  case none.none | some.universal.some.universal => rfl
  -- the other zones begin differently
  all_goals first | cases ahead | cases ahead' | skip
  all_goals simp [Zone.optionChars, Zone.chars] at h

theorem fractionChars_inj {f g : List Char} (h : fractionChars f = fractionChars g) : f = g := by
  unfold fractionChars at h
  split at h <;> split at h <;> simp_all

/-- Digits behind a point end where the zone begins. -/
theorem fraction_zone_inj {f g : List Char} {z w : Option Zone}
    (hf : ∀ c ∈ f, Text.isDecimalDigit c = true) (hg : ∀ c ∈ g, Text.isDecimalDigit c = true)
    (hz : ∀ x ∈ z, x.Proper) (hw : ∀ x ∈ w, x.Proper)
    (h : fractionChars f ++ Zone.optionChars z = fractionChars g ++ Zone.optionChars w) :
    f = g ∧ z = w := by
  have hhead : ∀ x : Option Zone, ∀ c ∈ (Zone.optionChars x).head?,
      c ≠ '.' ∧ Text.isDecimalDigit c = false := by
    intro x c hc
    rcases head?_optionChars x c hc with rfl | rfl | rfl <;> decide
  have hzone : Zone.optionChars z = Zone.optionChars w := by
    rw [← dropFraction_of hf (hhead z), h, dropFraction_of hg (hhead w)]
  rw [hzone, List.append_left_inj] at h
  exact ⟨fractionChars_inj h, optionChars_inj hz hw hzone⟩

/-- No zone goes on like a second. -/
theorem optionChars_ne_colon (z : Option Zone) (r : List Char) : Zone.optionChars z ≠ ':' :: r := by
  intro h
  have := head?_optionChars z ':' (by rw [h]; rfl)
  simp at this

end Uniqueness

/-- Details and zones that are written alike are read alike. -/
theorem reading_of_chars {d e : Detail} {z w : Option Zone} (hd : d.Proper) (he : e.Proper)
    (hz : ∀ x ∈ z, x.Proper) (hw : ∀ x ∈ w, x.Proper)
    (h : d.chars ++ Zone.optionChars z = e.chars ++ Zone.optionChars w) :
    d.reading 0 (Zone.optionSeconds z) = e.reading 0 (Zone.optionSeconds w) := by
  -- a year is followed by its zone only, which is no month
  have hyear : ∀ x : Option Zone, (∀ y ∈ x, y.Proper) →
      readMonth 0 (Detail.year.chars ++ Zone.optionChars x) = none :=
    fun x hx => readMonth_optionChars hx
  have hmonth : ∀ (f : Detail) (x : Option Zone), f.Proper → (∀ y ∈ x, y.Proper) → f ≠ .year →
      readMonth 0 (f.chars ++ Zone.optionChars x) =
        some (f.reading 0 (Zone.optionSeconds x)) :=
    fun f x hf hx hne => readMonth_chars hx hf hne
  by_cases hd' : d = .year <;> by_cases he' : e = .year
  · subst hd' he'
    have hzone : zone? (Zone.optionChars z) = zone? (Zone.optionChars w) := congrArg zone? h
    rw [zone?_optionChars hz, zone?_optionChars hw] at hzone
    rw [Option.some.inj hzone]
  · subst hd'
    have hread := hmonth e w he hw he'
    rw [← h, hyear z hz] at hread
    cases hread
  · subst he'
    have hread := hmonth d z hd hz hd'
    rw [h, hyear w hw] at hread
    cases hread
  · have hread := hmonth d z hd hz hd'
    rw [h, hmonth e w he hw he'] at hread
    exact (Option.some.inj hread).symm

/-- A detail and a zone can be told from how they are written. -/
theorem detail_zone_inj {d e : Detail} {z w : Option Zone} (hd : d.Proper) (he : e.Proper)
    (hz : ∀ x ∈ z, x.Proper) (hw : ∀ x ∈ w, x.Proper)
    (h : d.chars ++ Zone.optionChars z = e.chars ++ Zone.optionChars w) : d = e ∧ z = w := by
  -- the numbers and the form are those that are read; what stands behind them remains
  have hread := reading_of_chars hd he hz hw h
  cases d <;> cases e <;> simp only [Detail.reading, Reading.mk.injEq, Date.mk.injEq, reduceCtorEq,
    false_and, true_and, and_true] at hread
  case year.year => exact ⟨rfl, optionChars_inj hz hw h⟩
  case month.month =>
    obtain ⟨rfl, -⟩ := hread
    simp only [List.append_right_inj] at h
    exact ⟨rfl, optionChars_inj hz hw h⟩
  case day.day =>
    obtain ⟨⟨rfl, rfl⟩, -⟩ := hread
    simp only [List.append_right_inj] at h
    exact ⟨rfl, optionChars_inj hz hw h⟩
  case minute.minute =>
    obtain ⟨⟨rfl, rfl⟩, rfl, rfl, -⟩ := hread
    simp only [List.append_right_inj] at h
    exact ⟨rfl, optionChars_inj hz hw h⟩
  case minute.second =>
    obtain ⟨⟨rfl, rfl⟩, rfl, rfl, -, -⟩ := hread
    simp only [Detail.chars, List.cons_append, List.append_assoc, List.cons.injEq,
      List.append_right_inj, true_and] at h
    exact absurd h (optionChars_ne_colon _ _)
  case second.minute =>
    obtain ⟨⟨rfl, rfl⟩, rfl, rfl, -, -⟩ := hread
    simp only [Detail.chars, List.cons_append, List.append_assoc, List.cons.injEq,
      List.append_right_inj, true_and] at h
    exact absurd h.symm (optionChars_ne_colon _ _)
  case second.second =>
    obtain ⟨⟨rfl, rfl⟩, rfl, rfl, rfl, -⟩ := hread
    simp only [Detail.chars, List.cons_append, List.append_assoc, List.cons.injEq,
      List.append_right_inj, true_and] at h
    obtain ⟨-, -, -, -, -, hf⟩ := hd
    obtain ⟨-, -, -, -, -, hg⟩ := he
    obtain ⟨rfl, rfl⟩ := fraction_zone_inj hf hg hz hw h
    exact ⟨rfl, rfl⟩

namespace Spelling

variable {s t : Spelling} {text : String}

/-- A sign is no digit, so that it can be told from how a date begins. -/
theorem sign_inj (hs : s.Proper) (ht : t.Proper) (h : s.chars = t.chars) :
    s.negative = t.negative := by
  -- the character at which the digits begin
  have hfirst : ∀ u : Spelling, u.Proper → u.negative = false → u.chars.head? ≠ some '-' := by
    intro u hu hneg hhead
    obtain ⟨c, cs, hcs⟩ := List.exists_cons_of_length_pos (show 0 < u.digits.length by
      have := hu.long
      omega)
    rw [chars, hneg, hcs] at hhead
    obtain rfl : c = '-' := by simpa [signChars] using hhead
    exact absurd (hu.digits '-' (by simp [hcs])) (by decide)
  have hminus : ∀ u : Spelling, u.negative = true → u.chars.head? = some '-' := by
    intro u hneg
    rw [chars, hneg]
    rfl
  cases hneg : s.negative <;> cases hneg' : t.negative
  · rfl
  · exact absurd (by rw [h, hminus t hneg']) (hfirst s hs hneg)
  · exact absurd (by rw [← h, hminus s hneg]) (hfirst t ht hneg')
  · rfl

/-- A spelling can be told from the characters that it writes. -/
theorem chars_inj (hs : s.Proper) (ht : t.Proper) (h : s.chars = t.chars) : s = t := by
  have hsign := sign_inj hs ht h
  rw [chars, chars, hsign, List.append_right_inj] at h
  -- the digits of the year end where the next character is none
  have hdigits : ∀ u : Spelling, u.Proper →
      (u.digits ++ (u.detail.chars ++ Zone.optionChars u.zone)).takeWhile Char.isDigit =
        u.digits := by
    intro u hu
    rw [List.takeWhile_append_of_pos hu.digits]
    cases hrest : u.detail.chars ++ Zone.optionChars u.zone with
    | nil => simp
    | cons c r =>
      have hc := head?_detail u.detail u.zone c (by rw [hrest]; rfl)
      simp [hc]
  have hyear : s.digits = t.digits := by rw [← hdigits s hs, h, hdigits t ht]
  rw [hyear, List.append_right_inj] at h
  obtain ⟨hdetail, hzone⟩ := detail_zone_inj hs.detail ht.detail hs.zone ht.zone h
  cases s
  cases t
  simp_all only

/-- A text has one spelling. -/
theorem Spells.unique (hs : s.Spells text) (ht : t.Spells text) : s = t :=
  chars_inj hs.1 ht.1 (hs.2.trans ht.2.symm)

end Spelling

section Ascii

variable {n : Nat} {s : Spelling}

theorem toNat_lt_of_isDigit {c : Char} (h : c.isDigit = true) : c.toNat < 128 := by
  simp only [Char.isDigit, Bool.and_eq_true, decide_eq_true_eq] at h
  have : c.toNat ≤ 57 := h.2
  omega

theorem pair_ascii (h : n < 100) : ∀ c ∈ pair n, c.toNat < 128 := by
  have hhigh : n / 10 < 10 := by omega
  have hlow : n % 10 < 10 := by omega
  intro c hc
  apply toNat_lt_of_isDigit
  rcases List.mem_pair.1 hc with rfl | rfl
  · simp [Nat.isDigit_digitChar, hhigh]
  · simp [Nat.isDigit_digitChar, hlow]

theorem optionChars_ascii {z : Option Zone} (hz : ∀ x ∈ z, x.Proper) :
    ∀ c ∈ Zone.optionChars z, c.toNat < 128 := by
  rcases z with _ | _ | ⟨ahead, hours, minutes⟩
  · simp [Zone.optionChars]
  · simp [Zone.optionChars, Zone.chars]
  · obtain ⟨hh, hm⟩ : hours < 100 ∧ minutes < 100 := hz _ rfl
    intro c hc
    rcases List.mem_cons.1 hc with rfl | hc
    · cases ahead <;> decide
    · rcases List.mem_append.1 hc with hc | hc
      · exact pair_ascii hh c hc
      · rcases List.mem_cons.1 hc with rfl | hc
        · decide
        · exact pair_ascii hm c hc

theorem fractionChars_ascii {f : List Char} (hf : ∀ c ∈ f, Text.isDecimalDigit c = true) :
    (∀ c ∈ fractionChars f, c.toNat < 128) ↔ ∀ c ∈ f, c.isDigit = true := by
  have hdigit : ∀ c ∈ f, c.toNat < 128 ↔ c.isDigit = true := by
    intro c hc
    refine ⟨fun h => ?_, toNat_lt_of_isDigit⟩
    have := hf c hc
    rw [Text.isDecimalDigit, Bool.or_eq_true, Bool.and_eq_true, decide_eq_true_eq] at this
    rcases this with h' | ⟨h', -⟩
    · exact h'
    · omega
  rw [← forall₂_congr hdigit]
  unfold fractionChars
  split
  · rename_i hnil
    simp [hnil]
  · rw [List.forall_mem_cons]
    exact and_iff_right (by decide)

theorem Detail.Proper.ascii_iff {d : Detail} (hd : d.Proper) :
    (∀ c ∈ d.chars, c.toNat < 128) ↔ ∀ c ∈ d.fraction, c.isDigit = true := by
  have hminus : '-'.toNat < 128 := by decide
  have hcolon : ':'.toNat < 128 := by decide
  have ht : 'T'.toNat < 128 := by decide
  have hnone : ∀ p : Char → Prop, (∀ c ∈ [], p c) ↔ True := by simp
  cases d with
  | year => simp [Detail.chars, Detail.fraction]
  | month m =>
    have hm := pair_ascii hd
    simp only [Detail.chars, Detail.fraction, List.forall_mem_cons, hnone]
    exact iff_of_true ⟨hminus, hm⟩ trivial
  | day m d =>
    have hm := pair_ascii hd.1
    have hd := pair_ascii hd.2
    simp only [Detail.chars, Detail.fraction, List.forall_mem_cons, List.forall_mem_append, hnone]
    exact iff_of_true ⟨hminus, hm, hminus, hd⟩ trivial
  | minute m d h n =>
    obtain ⟨hm, hd, hh, hn⟩ := hd
    have hm := pair_ascii hm
    have hd := pair_ascii hd
    have hh := pair_ascii hh
    have hn := pair_ascii hn
    simp only [Detail.chars, Detail.fraction, List.forall_mem_cons, List.forall_mem_append, hnone]
    exact iff_of_true ⟨hminus, hm, hminus, hd, ht, hh, hcolon, hn⟩ trivial
  | second m d h n s f =>
    obtain ⟨hm, hd, hh, hn, hs, hf⟩ := hd
    have hm := pair_ascii hm
    have hd := pair_ascii hd
    have hh := pair_ascii hh
    have hn := pair_ascii hn
    have hs := pair_ascii hs
    have hf := fractionChars_ascii hf
    simp only [Detail.chars, Detail.fraction, List.forall_mem_cons, List.forall_mem_append, hminus,
      hcolon, ht, iff_true_intro hm, iff_true_intro hd, iff_true_intro hh, iff_true_intro hn,
      iff_true_intro hs, true_and]
    exact hf

/-- All that may be beyond ASCII in a date text is the fraction of its second. -/
theorem Spelling.Proper.ascii_iff (hs : s.Proper) :
    (∀ c ∈ s.chars, c.toNat < 128) ↔ ∀ c ∈ s.detail.fraction, c.isDigit = true := by
  have hsign : ∀ c ∈ signChars s.negative, c.toNat < 128 := by
    cases s.negative <;> simp [signChars]
  have hdigits : ∀ c ∈ s.digits, c.toNat < 128 := fun c hc => toNat_lt_of_isDigit (hs.digits c hc)
  have hzone := optionChars_ascii hs.zone
  rw [← hs.detail.ascii_iff]
  simp only [Spelling.chars, List.forall_mem_append]
  tauto

end Ascii

section Limits

theorem daysIn_pos (year : Int) (month : Nat) : 1 ≤ daysIn year month := by
  unfold daysIn
  repeat' split
  all_goals omega

namespace Date

variable {d : Date}

theorem number_bounds (h : d.isValid = true) :
    daysBefore firstYear < d.number ∧ d.number ≤ daysBefore (lastYear + 1) := by
  obtain ⟨hfirst, hlast, -⟩ := isValid_iff.1 h
  obtain ⟨hlow, hhigh⟩ := number_year h
  exact ⟨(daysBefore_mono hfirst).trans_lt hlow, hhigh.trans (daysBefore_mono (by omega))⟩

theorem isValid_mk {year : Int} {month day : Nat} (hy : firstYear ≤ year) (hy' : year ≤ lastYear)
    (hm : 1 ≤ month) (hm' : month ≤ 12) (hd : 1 ≤ day) (hd' : day ≤ daysIn year month) :
    (⟨year, month, day⟩ : Date).isValid = true :=
  isValid_iff.2 ⟨hy, hy', hm, hm', hd, hd'⟩

/-- Every day but the last of the calendar has a day after it. -/
theorem isValid_next (h : d.isValid = true) (hlast : d.number < daysBefore (lastYear + 1)) :
    d.next.isValid = true := by
  have hnumber := number_next h
  obtain ⟨hy, hy', hm, hm', hd, hd'⟩ := isValid_iff.1 h
  unfold next at hnumber ⊢
  split
  · rename_i hday
    exact isValid_mk hy hy' hm hm' (by omega) hday
  · rename_i hfull
    rw [if_neg hfull] at hnumber
    split
    · rename_i hmonth
      exact isValid_mk hy hy' (by omega) hmonth le_rfl (daysIn_pos _ _)
    · rename_i hdec
      rw [if_neg hdec] at hnumber
      have hyear : d.year + 1 ≤ lastYear := by
        by_contra hover
        -- the first day of a year behind the calendar has too great a number
        have hmono := daysBefore_mono (show lastYear + 1 ≤ d.year + 1 by omega)
        have hfirst : (⟨d.year + 1, 1, 1⟩ : Date).number = daysBefore (d.year + 1) + 1 := by
          rw [number, daysBeforeMonth_one]
          simp
        omega
      exact isValid_mk (by omega) hyear le_rfl (by omega) le_rfl (daysIn_pos _ _)

/-- Every day but the first of the calendar has a day before it. -/
theorem isValid_previous (h : d.isValid = true) (hfirst : daysBefore firstYear + 1 < d.number) :
    d.previous.isValid = true := by
  obtain ⟨hy, hy', hm, hm', hd, hd'⟩ := isValid_iff.1 h
  unfold previous
  split
  · exact isValid_mk hy hy' hm hm' (by omega) (by omega)
  · split
    · exact isValid_mk hy hy' (by omega) (by omega) (daysIn_pos _ _) le_rfl
    · -- the first day of a year
      have hyear : firstYear ≤ d.year - 1 := by
        by_contra hunder
        have hmono := daysBefore_mono (show d.year ≤ firstYear by omega)
        have hnumber : d.number = daysBefore d.year + 1 := by
          rw [number, show d.month = 1 by omega, show d.day = 1 by omega, daysBeforeMonth_one]
          simp
        omega
      exact isValid_mk hyear (by omega) (by omega) le_rfl (by omega) le_rfl

end Date

/-- An instant can be moved by less than a day unless that leads out of the calendar. -/
theorem Instant.isSome_earlier?_iff {i : Instant} {seconds : Int} (hi : i.Proper)
    (hs : seconds.natAbs < dayLength) :
    (i.earlier? seconds).isSome = true ↔
      firstSecond ≤ i.number - seconds ∧ i.number - seconds < endSecond := by
  constructor
  · intro h
    obtain ⟨j, hj⟩ := Option.isSome_iff_exists.1 h
    obtain ⟨hnumber, hproper⟩ := number_earlier hi hs hj
    obtain ⟨hfirst, hlast⟩ := Date.number_bounds hproper.day
    have hclock := hproper.clock
    rw [← hnumber, number, firstSecond, endSecond]
    unfold dayLength at *
    omega
  · rintro ⟨hfirst, hlast⟩
    have hclock := hi.clock
    obtain ⟨hlow, hhigh⟩ := Date.number_bounds hi.day
    rw [number] at hfirst hlast
    unfold firstSecond at hfirst
    unfold endSecond at hlast
    unfold earlier?
    dsimp only
    rw [Option.isSome_ite]
    -- an instant that stays in its day is as good as before
    unfold dayLength at *
    split
    · exact Date.isValid_previous hi.day (by omega)
    · split
      · exact Date.isValid_next hi.day (by omega)
      · exact hi.day

end Limits

section Kinds

variable {s : Spelling} {text : String} {k : DateKind}

theorem Detail.reading_kind (d : Detail) (year zone : Int) : (d.reading year zone).kind = d.kind := by
  cases d <;> rfl

theorem Detail.reading_zone (d : Detail) (year zone : Int) : (d.reading year zone).zone = zone := by
  cases d <;> rfl

/-- What is checked of the day and the clock of a reading. -/
theorem Detail.reading_inRange (d : Detail) (year zone : Int) :
    ((d.reading year zone).date.isValid = true ∧ (d.reading year zone).hour < 24 ∧
        (d.reading year zone).minute < 60 ∧ (d.reading year zone).second < 60) ↔
      (firstYear ≤ year ∧ year ≤ lastYear) ∧ d.InRange year := by
  have hpos := daysIn_pos year
  cases d <;> simp only [Detail.reading, Detail.InRange, Date.isValid_iff, and_true]
  case year =>
    have := hpos 1
    omega
  case month m =>
    have := hpos m
    omega
  all_goals omega

/-- A reading has an instant if its numbers are in range and its moment is in the calendar. -/
theorem Reading.isSome_instant?_iff {r : Reading} :
    r.instant?.isSome = true ↔
      (r.date.isValid = true ∧ r.hour < 24 ∧ r.minute < 60 ∧ r.second < 60) ∧
        r.zone.natAbs < dayLength ∧ firstSecond ≤ r.number ∧ r.number < endSecond := by
  have hcheck : (r.date.isValid && r.hour < 24 && r.minute < 60 && r.second < 60 &&
      r.zone.natAbs < dayLength) = true ↔
      (r.date.isValid = true ∧ r.hour < 24 ∧ r.minute < 60 ∧ r.second < 60) ∧
        r.zone.natAbs < dayLength := by
    simp only [Bool.and_eq_true, decide_eq_true_eq, and_assoc]
  unfold instant?
  split
  · rename_i h
    obtain ⟨⟨hday, hhour, hminute, hsecond⟩, hzone⟩ := hcheck.1 h
    rw [Instant.isSome_earlier?_iff (Reading.proper_clock hday hhour hminute hsecond) hzone]
    refine ⟨fun hmoment => ⟨⟨hday, hhour, hminute, hsecond⟩, hzone, hmoment⟩, ?_⟩
    rintro ⟨-, -, hmoment⟩
    exact hmoment
  · rename_i h
    refine iff_of_false (by simp) ?_
    rintro ⟨hrange, hzone, -⟩
    exact h (hcheck.2 ⟨hrange, hzone⟩)

/-- A spelled text has a date kind if what it spells can be found in the calendar, and then the kind
is that of its detail. -/
theorem Spelling.Spells.kind?_eq (hs : s.Spells text) :
    kind? text = some k ↔ s.detail.kind = k ∧ s.Admitted := by
  have hadmitted : s.Admitted ↔ Text.fits 32 s.year = true ∧ s.reading.instant?.isSome = true := by
    rw [Reading.isSome_instant?_iff, Spelling.reading, Detail.reading_inRange, Detail.reading_zone]
    constructor
    · intro h
      refine ⟨?_, ⟨h.year, h.range⟩, h.zone, h.moment⟩
      have hbound : Nat.pow 2 (32 - 1) = 2147483648 := rfl
      obtain ⟨hfirst, hlast⟩ := h.year
      unfold firstYear at hfirst
      unfold lastYear at hlast
      simp only [Text.fits, hbound, Bool.and_eq_true, decide_eq_true_eq]
      omega
    · rintro ⟨-, ⟨hyear, hrange⟩, hzone, hmoment⟩
      exact ⟨hyear, hrange, hzone, hmoment⟩
  rw [hadmitted, kind?, read?_of_spells hs]
  by_cases hfits : Text.fits 32 s.year = true
  · rw [if_pos hfits, Option.bind_some, Option.map_eq_some_iff, Option.isSome_iff_exists,
      Spelling.reading, Detail.reading_kind]
    constructor
    · rintro ⟨i, hi, hk⟩
      exact ⟨hk, hfits, i, hi⟩
    · rintro ⟨hk, -, i, hi⟩
      exact ⟨i, hi, hk⟩
  · rw [if_neg hfits, Option.bind_none]
    exact iff_of_false (by simp) fun h => hfits h.2.1

/-- The texts of a date kind are those that are spelled as one and can be found in the calendar. -/
theorem kind?_iff :
    kind? text = some k ↔ ∃ s : Spelling, s.Spells text ∧ s.detail.kind = k ∧ s.Admitted := by
  constructor
  · intro h
    obtain ⟨r, -, hr, -⟩ := read?_of_kind? (by rw [h]; rfl)
    obtain ⟨s, hs, -⟩ := exists_spelling hr
    exact ⟨s, hs, hs.kind?_eq.1 h⟩
  · rintro ⟨s, hs, h⟩
    exact hs.kind?_eq.2 h

/-- A spelled text of a kind is a date of the schema language if its fraction and its zone are. -/
theorem Spelling.Spells.wellFormed_iff (hs : s.Spells text) (hk : s.detail.kind = k)
    (hrange : s.detail.InRange s.year) :
    WellFormed text k ↔ (∀ c ∈ s.detail.fraction, c.isDigit = true) ∧ ∀ z ∈ s.zone, z.Legal := by
  rw [← hs.1.ascii_iff, hs.2]
  constructor
  · rintro ⟨hascii, t, ht, -, -, hzone⟩
    obtain rfl := hs.unique ht
    exact ⟨hascii, hzone⟩
  · rintro ⟨hascii, hzone⟩
    exact ⟨hascii, s, hs, hk, hrange, hzone⟩

/-- A text has a date kind exactly if it is spelled in that form and what it spells can be found in
the calendar. It is then a date of the schema language, but for a fraction with other than ASCII
digits and a zone with too many minutes or too far away. -/
theorem kind_eq_some_iff (text : String) (k : DateKind) :
    kind? text = some k ↔
      ∃ s : Spelling, s.Spells text ∧ (∀ t : Spelling, t.Spells text → t = s) ∧
        s.detail.kind = k ∧ s.Admitted ∧
        (WellFormed text k ↔
          (∀ c ∈ s.detail.fraction, c.isDigit = true) ∧ ∀ z ∈ s.zone, z.Legal) := by
  rw [kind?_iff]
  constructor
  · rintro ⟨s, hs, hk, hadmitted⟩
    exact ⟨s, hs, fun t ht => ht.unique hs, hk, hadmitted, hs.wellFormed_iff hk hadmitted.range⟩
  · rintro ⟨s, hs, -, hk, hadmitted, -⟩
    exact ⟨s, hs, hk, hadmitted⟩

example : kind? " 2004-02-29+14:00 " = some .date ∧ kind? "2003-02-29" = none := by decide +kernel

/-- A fraction in Arabic-Indic digits, a zone with 99 minutes and one of almost a day: all three are
accepted, and none is a date of the schema language. -/
theorem kind_not_wellFormed :
    (kind? "2003-01-01T00:00:00.\u0665Z" = some .dateTime ∧
        ¬WellFormed "2003-01-01T00:00:00.\u0665Z" .dateTime) ∧
      (kind? "2003-01-01+00:99" = some .date ∧ ¬WellFormed "2003-01-01+00:99" .date) ∧
      kind? "2003-01-01+23:59" = some .date ∧ ¬WellFormed "2003-01-01+23:59" .date := by
  have hday : ∀ (zone : Zone) (text : String), zone.Proper → ¬zone.Legal →
      (⟨false, ['2', '0', '0', '3'], .day 1 1, some zone⟩ : Spelling).chars =
        (Text.trim text).toList → ¬WellFormed text .date := by
    intro zone text hzone hlegal hchars h
    have hs : (⟨false, ['2', '0', '0', '3'], .day 1 1, some zone⟩ : Spelling).Spells text :=
      ⟨⟨List.all_eq_true.1 rfl, le_rfl, ⟨by decide, by decide⟩, by simpa using hzone⟩, hchars⟩
    obtain ⟨-, t, ht, -, -, hall⟩ := h
    obtain rfl := hs.unique ht
    exact hlegal (hall zone rfl)
  refine ⟨⟨by decide +kernel, ?_⟩, ⟨by decide +kernel, ?_⟩, by decide +kernel, ?_⟩
  · intro h
    exact absurd (h.1 '\u0665' (by decide +kernel)) (by decide)
  · exact hday (.offset true 0 99) _ ⟨by decide, by decide⟩ (fun h => absurd h.1 (by decide))
      (by decide +kernel)
  · exact hday (.offset true 23 59) _ ⟨by decide, by decide⟩ (fun h => absurd h.2 (by decide))
      (by decide +kernel)

end Kinds

end DiscoveryMetadata.Calendar
