import DiscoveryMetadata.Calendar
import Mathlib.Data.List.TakeWhile
import Mathlib.Data.Nat.Digits.Defs
/-
  How date texts are spelled.

  A date text is a year of at least four digits, perhaps with a minus; then, as far as it goes into
  detail, the month, the day, the hour and minute, the second and its fraction; then perhaps a zone.
  `Spelling` holds these parts and `Spelling.chars` writes them, without a word about how they are
  read. The two directions between this grammar and the reader are

    1. `exists_spelling`: whatever is read is spelled so, and the spelling says what was read;
    2. `read?_of_spells`: whatever is spelled so is read, unless its year is too large.

  The number ranges of the calendar are no matter of spelling: a month or an hour is here any number
  of two digits.
-/
namespace DiscoveryMetadata.Calendar

/-- A number in two digits. -/
def pair (n : Nat) : List Char := [Nat.digitChar (n / 10), Nat.digitChar (n % 10)]

/-- A time zone: universal time, or so much ahead of it or behind it. -/
inductive Zone where
  | universal
  | offset (ahead : Bool) (hours minutes : Nat)
  deriving DecidableEq, Repr

namespace Zone

/-- The zone as it is written. -/
def chars : Zone → List Char
  | universal => ['Z']
  | offset ahead hours minutes =>
    (if ahead then '+' else '-') :: (pair hours ++ ':' :: pair minutes)

/-- Hours and minutes have two digits. -/
def Proper : Zone → Prop
  | universal => True
  | offset _ hours minutes => hours < 100 ∧ minutes < 100

/-- The seconds by which the zone is ahead of universal time. -/
def seconds : Zone → Int
  | universal => 0
  | offset ahead hours minutes =>
    if ahead then (hours * 3600 + minutes * 60 : Int) else -(hours * 3600 + minutes * 60 : Int)

/-- A zone that may be left out, as it is written. -/
def optionChars (zone : Option Zone) : List Char := (zone.map chars).getD []

/-- Without a zone the time is universal. -/
def optionSeconds (zone : Option Zone) : Int := (zone.map seconds).getD 0

end Zone

/-- The fraction of a second, which may be without digits and is then not written. -/
def fractionChars (digits : List Char) : List Char := if digits = [] then [] else '.' :: digits

/-- What a date text says behind its year. -/
inductive Detail where
  | year
  | month (month : Nat)
  | day (month day : Nat)
  | minute (month day hour minute : Nat)
  | second (month day hour minute second : Nat) (fraction : List Char)
  deriving DecidableEq, Repr

namespace Detail

/-- The detail as it is written. -/
def chars : Detail → List Char
  | year => []
  | month m => '-' :: pair m
  | day m d => '-' :: (pair m ++ '-' :: pair d)
  | minute m d h n => '-' :: (pair m ++ '-' :: (pair d ++ 'T' :: (pair h ++ ':' :: pair n)))
  | second m d h n s f =>
    '-' :: (pair m ++ '-' :: (pair d ++ 'T' :: (pair h ++ ':' :: (pair n ++
      ':' :: (pair s ++ fractionChars f)))))

/-- All numbers have two digits, and a fraction consists of decimal digits. -/
def Proper : Detail → Prop
  | year => True
  | month m => m < 100
  | day m d => m < 100 ∧ d < 100
  | minute m d h n => m < 100 ∧ d < 100 ∧ h < 100 ∧ n < 100
  | second m d h n s f =>
    m < 100 ∧ d < 100 ∧ h < 100 ∧ n < 100 ∧ s < 100 ∧ ∀ c ∈ f, Text.isDecimalDigit c = true

/-- The earliest moment within a year and a zone that has the detail, its fraction aside. -/
def reading (year : Int) (zone : Int) : Detail → Reading
  | .year => { kind := .year, date := ⟨year, 1, 1⟩, zone }
  | .month m => { kind := .yearMonth, date := ⟨year, m, 1⟩, zone }
  | .day m d => { kind := .date, date := ⟨year, m, d⟩, zone }
  | .minute m d h n => ⟨.dateTime, ⟨year, m, d⟩, h, n, 0, zone⟩
  | .second m d h n s _ => ⟨.dateTime, ⟨year, m, d⟩, h, n, s, zone⟩

/-- The digits of the fraction of a second. -/
def fraction : Detail → List Char
  | .second _ _ _ _ _ f => f
  | _ => []

end Detail

/-- A minus, or nothing. -/
def signChars (negative : Bool) : List Char := if negative then ['-'] else []

/-- The year with these digits, before or after the beginning of the count. -/
def yearOf (negative : Bool) (digits : List Char) : Int :=
  if negative then -(Nat.ofDigitChars 10 digits 0 : Int) else Nat.ofDigitChars 10 digits 0

/-- The parts of a date text. -/
structure Spelling where
  negative : Bool
  digits : List Char
  detail : Detail
  zone : Option Zone
  deriving DecidableEq, Repr

namespace Spelling

/-- The date text. -/
def chars (s : Spelling) : List Char :=
  signChars s.negative ++ (s.digits ++ (s.detail.chars ++ Zone.optionChars s.zone))

/-- The parts can be written. -/
structure Proper (s : Spelling) : Prop where
  digits : ∀ c ∈ s.digits, c.isDigit = true
  long : 4 ≤ s.digits.length
  detail : s.detail.Proper
  zone : ∀ z ∈ s.zone, z.Proper

/-- The year. -/
def year (s : Spelling) : Int := yearOf s.negative s.digits

/-- What the text says, the fraction of a second aside. -/
def reading (s : Spelling) : Reading := s.detail.reading s.year (Zone.optionSeconds s.zone)

/-- The text, white space at its ends aside, is spelled by these parts. -/
def Spells (s : Spelling) (text : String) : Prop :=
  s.Proper ∧ s.chars = (Text.trim text).toList

end Spelling

section Numbers

variable {cs r : List Char} {n : Nat}

theorem digits?_of_digits (hne : cs ≠ []) (h : ∀ c ∈ cs, c.isDigit = true) :
    Text.digits? cs = some (Nat.ofDigitChars 10 cs 0) := by
  unfold Text.digits?
  rw [if_neg]
  · simp only [Nat.ofDigitChars_eq_foldl, Nat.mul_comm]
  · rw [Bool.or_eq_true, not_or]
    exact ⟨by simpa using hne, by simpa using h⟩

theorem digits?_some (h : Text.digits? cs = some n) :
    cs ≠ [] ∧ (∀ c ∈ cs, c.isDigit = true) ∧ n = Nat.ofDigitChars 10 cs 0 := by
  unfold Text.digits? at h
  rw [Option.ite_none_left_eq_some, Bool.or_eq_true, not_or] at h
  obtain ⟨⟨hne, hall⟩, h⟩ := h
  have hne : cs ≠ [] := by simpa using hne
  have hall : ∀ c ∈ cs, c.isDigit = true := by simpa using hall
  have hsome := digits?_of_digits hne hall
  refine ⟨hne, hall, ?_⟩
  unfold Text.digits? at hsome
  rw [Option.ite_none_left_eq_some] at hsome
  exact Option.some.inj (h.symm.trans hsome.2)

theorem digitChar_of_isDigit {c : Char} (h : c.isDigit = true) :
    Nat.digitChar (c.toNat - 48) = c ∧ c.toNat - 48 < 10 := by
  have hb : 48 ≤ c.toNat ∧ c.toNat ≤ 57 := by
    simp only [Char.isDigit, Bool.and_eq_true, decide_eq_true_eq] at h
    exact h
  have hlt : c.toNat - 48 < 10 := by omega
  refine ⟨?_, hlt⟩
  apply Char.toNat_inj.1
  rw [Nat.toNat_digitChar_of_lt_ten hlt]
  omega

theorem two?_pair (h : n < 100) : two? (pair n ++ r) = some (n, r) := by
  have hhigh : n / 10 < 10 := by omega
  have hlow : n % 10 < 10 := by omega
  have hdigits : ∀ c ∈ pair n, c.isDigit = true := by
    simp [pair, Nat.isDigit_digitChar, hhigh, hlow]
  have hvalue : Nat.ofDigitChars 10 (pair n) 0 = n := by
    rw [pair, Nat.ofDigitChars_cons_digitChar_of_lt_ten hhigh,
      Nat.ofDigitChars_cons_digitChar_of_lt_ten hlow, Nat.ofDigitChars_nil]
    omega
  show (Text.digits? (pair n)).map (fun n => (n, r)) = some (n, r)
  rw [digits?_of_digits (by simp [pair]) hdigits, hvalue]
  rfl

theorem two?_some (h : two? cs = some (n, r)) : n < 100 ∧ cs = pair n ++ r := by
  unfold two? at h
  split at h
  · rename_i a b rest
    rw [Option.map_eq_some_iff] at h
    obtain ⟨m, hm, h⟩ := h
    rw [Prod.mk.injEq] at h
    obtain ⟨rfl, rfl⟩ := h
    obtain ⟨-, hall, rfl⟩ := digits?_some hm
    obtain ⟨ha, hal⟩ := digitChar_of_isDigit (hall a (by simp))
    obtain ⟨hb, hbl⟩ := digitChar_of_isDigit (hall b (by simp))
    have hvalue : Nat.ofDigitChars 10 [a, b] 0 = 10 * (a.toNat - 48) + (b.toNat - 48) := by
      simp [Nat.ofDigitChars_cons, Nat.ofDigitChars_nil]
    rw [hvalue]
    refine ⟨by omega, ?_⟩
    rw [pair, show (10 * (a.toNat - 48) + (b.toNat - 48)) / 10 = a.toNat - 48 by omega,
      show (10 * (a.toNat - 48) + (b.toNat - 48)) % 10 = b.toNat - 48 by omega, ha, hb]
    rfl
  · cases h

theorem marked?_pair (mark : Char) (h : n < 100) :
    marked? mark (mark :: (pair n ++ r)) = some (n, r) := by
  rw [marked?, if_pos rfl, two?_pair h]

theorem marked?_ne {mark c : Char} (h : c ≠ mark) : marked? mark (c :: r) = none := if_neg h

theorem marked?_some {mark : Char} (h : marked? mark cs = some (n, r)) :
    n < 100 ∧ cs = mark :: (pair n ++ r) := by
  cases cs with
  | nil => cases h
  | cons c cs =>
    rw [marked?, Option.ite_none_right_eq_some] at h
    obtain ⟨rfl, h⟩ := h
    obtain ⟨hn, rfl⟩ := two?_some h
    exact ⟨hn, rfl⟩

end Numbers

section Zones

variable {cs : List Char} {z : Int}

theorem zone?_optionChars {zone : Option Zone} (h : ∀ z ∈ zone, z.Proper) :
    zone? (Zone.optionChars zone) = some (Zone.optionSeconds zone) := by
  cases zone with
  | none => rfl
  | some zone =>
    cases zone with
    | universal => rfl
    | offset ahead hours minutes =>
      obtain ⟨hh, hm⟩ : hours < 100 ∧ minutes < 100 := h _ rfl
      show zone? ((if ahead then '+' else '-') :: (pair hours ++ ':' :: pair minutes)) = _
      have hminutes : marked? ':' (':' :: pair minutes) = some (minutes, []) := by
        have := marked?_pair (r := []) ':' hm
        rwa [List.append_nil] at this
      cases ahead <;> simp [zone?, two?_pair hh, hminutes, Zone.optionSeconds, Zone.seconds]

theorem zone?_some (h : zone? cs = some z) :
    ∃ zone : Option Zone, (∀ z ∈ zone, z.Proper) ∧ cs = Zone.optionChars zone ∧
      z = Zone.optionSeconds zone := by
  unfold zone? at h
  split at h
  · cases h
    exact ⟨none, by simp, rfl, rfl⟩
  · cases h
    exact ⟨some .universal, by simp [Zone.Proper], rfl, rfl⟩
  · rename_i c r _
    rw [Option.ite_none_right_eq_some] at h
    obtain ⟨hc, h⟩ := h
    split at h
    · rename_i hours rest hhours
      obtain ⟨hh, rfl⟩ := two?_some hhours
      split at h
      · rename_i minutes hminutes
        obtain ⟨hm, rfl⟩ := marked?_some hminutes
        refine ⟨some (.offset (c = '+') hours minutes), by simp [Zone.Proper, hh, hm], ?_, ?_⟩
        · rcases (by simpa using hc : c = '+' ∨ c = '-') with rfl | rfl <;>
            simp [Zone.optionChars, Zone.chars]
        · rcases (by simpa using hc : c = '+' ∨ c = '-') with rfl | rfl <;>
            simpa [Zone.optionSeconds, Zone.seconds] using h.symm
      · cases h
    · cases h

/-- What a zone begins with. -/
theorem head?_optionChars (zone : Option Zone) :
    ∀ c ∈ (Zone.optionChars zone).head?, c = 'Z' ∨ c = '+' ∨ c = '-' := by
  rcases zone with _ | _ | ⟨ahead, _, _⟩
  · simp [Zone.optionChars]
  · simp [Zone.optionChars, Zone.chars]
  · cases ahead <;> simp [Zone.optionChars, Zone.chars]

theorem zone?_cons_none {c : Char} {r : List Char} (h : c ≠ 'Z' ∧ c ≠ '+' ∧ c ≠ '-') :
    zone? (c :: r) = none := by
  cases hz : zone? (c :: r) with
  | none => rfl
  | some z =>
    obtain ⟨zone, -, hcs, -⟩ := zone?_some hz
    have hc := head?_optionChars zone c (by rw [← hcs]; rfl)
    tauto

end Zones

section Seconds

variable {cs r : List Char} {n : Nat}

theorem dropFraction_of {f : List Char} (hf : ∀ c ∈ f, Text.isDecimalDigit c = true)
    (hr : ∀ c ∈ r.head?, c ≠ '.' ∧ Text.isDecimalDigit c = false) :
    dropFraction (fractionChars f ++ r) = r := by
  cases f with
  | nil =>
    rw [fractionChars, if_pos rfl, List.nil_append]
    unfold dropFraction
    split
    · exact absurd rfl (hr '.' rfl).1
    · rfl
  | cons c f =>
    obtain ⟨hc, hf⟩ := List.forall_mem_cons.1 hf
    show dropFraction ('.' :: c :: (f ++ r)) = r
    rw [dropFraction, if_pos hc, List.dropWhile_append_of_pos hf]
    cases r with
    | nil => rfl
    | cons d r => exact List.dropWhile_cons_of_neg (by simp [(hr d rfl).2])

/-- What is dropped is a fraction. -/
theorem dropFraction_spec (cs : List Char) :
    ∃ f : List Char, (∀ c ∈ f, Text.isDecimalDigit c = true) ∧
      cs = fractionChars f ++ dropFraction cs := by
  unfold dropFraction
  split
  · rename_i c r
    split
    · rename_i hc
      refine ⟨c :: r.takeWhile Text.isDecimalDigit, ?_, ?_⟩
      · rw [List.forall_mem_cons]
        exact ⟨hc, fun d hd => List.mem_takeWhile_imp hd⟩
      · show _ = '.' :: c :: (r.takeWhile Text.isDecimalDigit ++ r.dropWhile Text.isDecimalDigit)
        rw [List.takeWhile_append_dropWhile]
    · exact ⟨[], by simp, rfl⟩
  · exact ⟨[], by simp, rfl⟩

theorem seconds_pair {f : List Char} (hn : n < 100)
    (hf : ∀ c ∈ f, Text.isDecimalDigit c = true) (zone : Option Zone) :
    seconds (':' :: (pair n ++ (fractionChars f ++ Zone.optionChars zone))) =
      (n, Zone.optionChars zone) := by
  have hhead : ∀ c ∈ (Zone.optionChars zone).head?, c ≠ '.' ∧ Text.isDecimalDigit c = false := by
    intro c hc
    rcases head?_optionChars zone c hc with rfl | rfl | rfl <;> decide
  rw [seconds, two?_pair hn]
  show (n, dropFraction _) = _
  rw [dropFraction_of hf hhead]

theorem seconds_optionChars (zone : Option Zone) :
    seconds (Zone.optionChars zone) = (0, Zone.optionChars zone) := by
  unfold seconds
  split
  · rename_i r h
    have := head?_optionChars zone ':' (by rw [h]; rfl)
    simp at this
  · rfl

/-- Either there are no seconds, or a number of two digits and a fraction are read. -/
theorem seconds_spec (h : seconds cs = (n, r)) :
    (n = 0 ∧ r = cs) ∨ n < 100 ∧ ∃ f : List Char,
      (∀ c ∈ f, Text.isDecimalDigit c = true) ∧ cs = ':' :: (pair n ++ (fractionChars f ++ r)) := by
  unfold seconds at h
  split at h
  · split at h
    · rename_i s rest hs
      obtain ⟨hn, rfl⟩ := two?_some hs
      obtain ⟨rfl, rfl⟩ := Prod.mk.inj h
      obtain ⟨f, hf, hrest⟩ := dropFraction_spec rest
      refine Or.inr ⟨hn, f, hf, ?_⟩
      rw [← hrest]
    · obtain ⟨rfl, rfl⟩ := Prod.mk.inj h
      exact Or.inl ⟨rfl, rfl⟩
  · obtain ⟨rfl, rfl⟩ := Prod.mk.inj h
    exact Or.inl ⟨rfl, rfl⟩

end Seconds

section Details

variable {cs : List Char} {year : Int} {month day : Nat} {r : Reading} {zone : Option Zone}

/-- The characters behind a year are a detail and a zone, and the reading is what these say. -/
def Says (cs : List Char) (year : Int) (r : Reading) : Prop :=
  ∃ (detail : Detail) (zone : Option Zone), detail.Proper ∧ (∀ z ∈ zone, z.Proper) ∧
    cs = detail.chars ++ Zone.optionChars zone ∧ r = detail.reading year (Zone.optionSeconds zone)

theorem readTime_some (hm : month < 100) (hd : day < 100)
    (h : readTime ⟨year, month, day⟩ cs = some r) :
    Says ('-' :: (pair month ++ '-' :: (pair day ++ 'T' :: cs))) year r := by
  unfold readTime at h
  split at h
  · cases h
  · rename_i hour rest hhour
    obtain ⟨hh, rfl⟩ := two?_some hhour
    split at h
    · cases h
    · rename_i minute rest hminute
      obtain ⟨hn, rfl⟩ := marked?_some hminute
      rw [Option.map_eq_some_iff] at h
      obtain ⟨z, hz, rfl⟩ := h
      obtain ⟨zone, hzone, hchars, rfl⟩ := zone?_some hz
      rcases seconds_spec (Prod.eta (seconds rest)).symm with ⟨hs, hrest⟩ | ⟨hs, f, hf, hrest⟩
      · rw [hs, ← hrest, hchars]
        exact ⟨.minute month day hour minute, zone, ⟨hm, hd, hh, hn⟩, hzone,
          by simp [Detail.chars], rfl⟩
      · refine ⟨.second month day hour minute (seconds rest).1 f, zone,
          ⟨hm, hd, hh, hn, hs, hf⟩, hzone, ?_, rfl⟩
        rw [hchars] at hrest
        simp only [Detail.chars, List.cons_append, List.append_assoc, ← hrest]

theorem readDay_some (hm : month < 100) (h : readDay year month cs = some r) :
    Says ('-' :: (pair month ++ cs)) year r := by
  unfold readDay at h
  split at h
  · rename_i day rest hday
    obtain ⟨hd, rfl⟩ := marked?_some hday
    exact readTime_some hm hd h
  · rename_i day rest _ hday
    obtain ⟨hd, rfl⟩ := marked?_some hday
    rw [Option.map_eq_some_iff] at h
    obtain ⟨z, hz, rfl⟩ := h
    obtain ⟨zone, hzone, rfl, rfl⟩ := zone?_some hz
    exact ⟨.day month day, zone, ⟨hm, hd⟩, hzone, by simp [Detail.chars], rfl⟩
  · cases h

theorem readMonth_some (h : readMonth year cs = some r) : Says cs year r := by
  unfold readMonth at h
  split at h
  · rename_i month rest hmonth
    obtain ⟨hm, rfl⟩ := marked?_some hmonth
    rw [Option.orElse_eq_some] at h
    rcases h with h | ⟨-, h⟩
    · exact readDay_some hm h
    · rw [Option.map_eq_some_iff] at h
      obtain ⟨z, hz, rfl⟩ := h
      obtain ⟨zone, hzone, rfl, rfl⟩ := zone?_some hz
      exact ⟨.month month, zone, hm, hzone, by simp [Detail.chars], rfl⟩
  · cases h

theorem zone?_colon : zone? (':' :: cs) = none := zone?_cons_none (by decide)

variable (hzone : ∀ z ∈ zone, z.Proper)
include hzone

/-- A zone may begin like a month or a day, but then it goes on with a colon. -/
theorem marked?_optionChars : marked? '-' (Zone.optionChars zone) = none ∨
    ∃ n r, marked? '-' (Zone.optionChars zone) = some (n, ':' :: r) := by
  rcases zone with _ | _ | ⟨_ | _, hours, minutes⟩
  · exact Or.inl rfl
  · exact Or.inl rfl
  · have hh : hours < 100 := (hzone _ rfl).1
    exact Or.inr ⟨hours, pair minutes, marked?_pair '-' hh⟩
  · exact Or.inl rfl

theorem readDay_optionChars : readDay year month (Zone.optionChars zone) = none := by
  unfold readDay
  rcases marked?_optionChars hzone with h | ⟨n, r, h⟩
  · rw [h]
  · -- the hours of the zone are taken for a day, but no zone begins with the colon behind them
    rw [h]
    show (zone? (':' :: r)).map _ = none
    rw [zone?_colon]
    rfl

theorem readMonth_optionChars : readMonth year (Zone.optionChars zone) = none := by
  unfold readMonth
  rcases marked?_optionChars hzone with h | ⟨n, r, h⟩
  · rw [h]
  · rw [h]
    show (readDay year n (':' :: r) <|> (zone? (':' :: r)).map _) = none
    rw [zone?_colon, readDay, marked?_ne (by decide)]
    rfl

theorem readDay_zone (hd : day < 100) :
    readDay year month ('-' :: (pair day ++ Zone.optionChars zone)) =
      some { kind := .date, date := ⟨year, month, day⟩, zone := Zone.optionSeconds zone } := by
  unfold readDay
  rw [marked?_pair '-' hd]
  split
  · rename_i h
    obtain ⟨-, h⟩ := Prod.mk.inj (Option.some.inj h)
    have := head?_optionChars zone 'T' (by rw [h]; rfl)
    simp at this
  · rename_i h
    obtain ⟨rfl, rfl⟩ := Prod.mk.inj (Option.some.inj h)
    rw [zone?_optionChars hzone]
    rfl
  · rename_i h
    cases h

omit hzone in
theorem readDay_time (hd : day < 100) :
    readDay year month ('-' :: (pair day ++ 'T' :: cs)) = readTime ⟨year, month, day⟩ cs := by
  simp only [readDay, marked?_pair '-' hd]

variable {hour minute second : Nat} {date : Date}

theorem readTime_minute (hh : hour < 100) (hn : minute < 100) :
    readTime date (pair hour ++ ':' :: (pair minute ++ Zone.optionChars zone)) =
      some ⟨.dateTime, date, hour, minute, 0, Zone.optionSeconds zone⟩ := by
  unfold readTime
  simp only [two?_pair hh, marked?_pair ':' hn, seconds_optionChars, zone?_optionChars hzone,
    Option.map_some]

theorem readTime_second {f : List Char} (hh : hour < 100) (hn : minute < 100) (hs : second < 100)
    (hf : ∀ c ∈ f, Text.isDecimalDigit c = true) :
    readTime date (pair hour ++ ':' :: (pair minute ++
        ':' :: (pair second ++ (fractionChars f ++ Zone.optionChars zone)))) =
      some ⟨.dateTime, date, hour, minute, second, Zone.optionSeconds zone⟩ := by
  unfold readTime
  simp only [two?_pair hh, marked?_pair ':' hn, seconds_pair hs hf, zone?_optionChars hzone,
    Option.map_some]

/-- A detail behind the year is read as it stands there. -/
theorem readMonth_chars {detail : Detail} (hdetail : detail.Proper) (hyear : detail ≠ .year) :
    readMonth year (detail.chars ++ Zone.optionChars zone) =
      some (detail.reading year (Zone.optionSeconds zone)) := by
  unfold readMonth
  cases detail with
  | year => exact absurd rfl hyear
  | month m =>
    simp only [Detail.chars, List.cons_append, marked?_pair '-' hdetail,
      readDay_optionChars hzone, zone?_optionChars hzone]
    rfl
  | day m d =>
    obtain ⟨hm, hd⟩ := hdetail
    simp only [Detail.chars, List.cons_append, List.append_assoc, marked?_pair '-' hm,
      readDay_zone hzone hd]
    rfl
  | minute m d h n =>
    obtain ⟨hm, hd, hh, hn⟩ := hdetail
    simp only [Detail.chars, List.cons_append, List.append_assoc, marked?_pair '-' hm,
      readDay_time hd, readTime_minute hzone hh hn]
    rfl
  | second m d h n s f =>
    obtain ⟨hm, hd, hh, hn, hs, hf⟩ := hdetail
    simp only [Detail.chars, List.cons_append, List.append_assoc, marked?_pair '-' hm,
      readDay_time hd, readTime_second hzone hh hn hs hf]
    rfl

end Details

section Texts

variable {cs ds r : List Char} {y : Int} {text : String} {reading : Reading}

/-- What follows a year does not begin with a digit. -/
theorem head?_detail (detail : Detail) (zone : Option Zone) :
    ∀ c ∈ (detail.chars ++ Zone.optionChars zone).head?, c.isDigit = false := by
  cases detail with
  | year =>
    intro c hc
    rcases head?_optionChars zone c hc with rfl | rfl | rfl <;> decide
  | _ => simp [Detail.chars]

theorem int32?_sign (negative : Bool) (hds : ∀ c ∈ ds, c.isDigit = true) (hne : ds ≠ []) :
    Text.int32? (signChars negative ++ ds) =
      if Text.fits 32 (yearOf negative ds) then some (yearOf negative ds) else none := by
  have hdigits := digits?_of_digits hne hds
  have hsigned : Text.signed? (signChars negative ++ ds) = some (yearOf negative ds) := by
    cases negative with
    | true =>
      show Text.signed? ('-' :: ds) = _
      rw [Text.signed?, hdigits]
      rfl
    | false =>
      show Text.signed? ds = _
      unfold Text.signed?
      split
      · exact absurd (hds '-' (by simp)) (by decide)
      · exact absurd (hds '+' (by simp)) (by decide)
      · rw [hdigits]
        rfl
  rw [Text.int32?, hsigned, Option.filter_some]

/-- The sign is taken off before the digits are counted. -/
theorem year?_sign (negative : Bool) (hcs : negative = false → ∀ c ∈ cs.head?, c ≠ '-') :
    year? (signChars negative ++ cs) =
      if (cs.takeWhile Char.isDigit).length < 4 then none
      else (Text.int32? (signChars negative ++ cs.takeWhile Char.isDigit)).map
        fun y => (y, cs.dropWhile Char.isDigit) := by
  cases negative with
  | true => rfl
  | false =>
    show year? cs = _
    unfold year?
    split
    rename_i minus rest hsplit
    split at hsplit
    · exact absurd rfl (hcs rfl '-' rfl)
    · obtain ⟨rfl, rfl⟩ := Prod.mk.inj hsplit
      rfl

theorem year?_of (negative : Bool) (hds : ∀ c ∈ ds, c.isDigit = true) (hlong : 4 ≤ ds.length)
    (hr : ∀ c ∈ r.head?, c.isDigit = false) :
    year? (signChars negative ++ (ds ++ r)) =
      if Text.fits 32 (yearOf negative ds) then some (yearOf negative ds, r) else none := by
  have hne : ds ≠ [] := List.ne_nil_of_length_pos (by omega)
  have htake : (ds ++ r).takeWhile Char.isDigit = ds := by
    rw [List.takeWhile_append_of_pos hds]
    cases r with
    | nil => simp
    | cons c r => simp [hr c rfl]
  have hdrop : (ds ++ r).dropWhile Char.isDigit = r := by
    rw [List.dropWhile_append_of_pos hds]
    cases r with
    | nil => rfl
    | cons c r => simp [hr c rfl]
  have hhead : ∀ c ∈ (ds ++ r).head?, c ≠ '-' := by
    cases ds with
    | nil => exact absurd rfl hne
    | cons d ds =>
      rintro c hc rfl
      obtain rfl : d = '-' := by simpa using hc
      exact absurd (hds '-' (by simp)) (by decide)
  rw [year?_sign negative (fun _ => hhead), htake, hdrop, if_neg (by omega),
    int32?_sign negative hds hne]
  split <;> rfl

theorem year?_some (h : year? cs = some (y, r)) :
    ∃ (negative : Bool) (ds : List Char), (∀ c ∈ ds, c.isDigit = true) ∧ 4 ≤ ds.length ∧
      cs = signChars negative ++ (ds ++ r) ∧ y = yearOf negative ds := by
  obtain ⟨negative, rest, rfl, hhead⟩ : ∃ negative rest, cs = signChars negative ++ rest ∧
      (negative = false → ∀ c ∈ rest.head?, c ≠ '-') := by
    by_cases hminus : cs.head? = some '-'
    · obtain ⟨rest, rfl⟩ := List.head?_eq_some_iff.1 hminus
      exact ⟨true, rest, rfl, by simp⟩
    · refine ⟨false, cs, rfl, ?_⟩
      rintro - c hc rfl
      exact hminus hc
  rw [year?_sign negative hhead] at h
  split at h
  · cases h
  · rename_i hlong
    have hds : ∀ c ∈ rest.takeWhile Char.isDigit, c.isDigit = true :=
      fun c hc => List.mem_takeWhile_imp hc
    rw [int32?_sign negative hds (List.ne_nil_of_length_pos (by omega))] at h
    split at h
    · obtain ⟨rfl, rfl⟩ := Prod.mk.inj (Option.some.inj h)
      refine ⟨negative, rest.takeWhile Char.isDigit, hds, by omega, ?_, rfl⟩
      rw [List.takeWhile_append_dropWhile]
    · cases h

/-- Whatever is read as a date is spelled as one, and the spelling says what was read. -/
theorem exists_spelling (h : read? text = some reading) :
    ∃ s : Spelling, s.Spells text ∧ s.reading = reading := by
  unfold read? at h
  split at h
  · cases h
  · rename_i y rest hyear
    obtain ⟨negative, ds, hds, hlong, hchars, rfl⟩ := year?_some hyear
    rw [Option.orElse_eq_some] at h
    rcases h with h | ⟨-, h⟩
    · obtain ⟨detail, zone, hdetail, hzone, rfl, rfl⟩ := readMonth_some h
      exact ⟨⟨negative, ds, detail, zone⟩, ⟨⟨hds, hlong, hdetail, hzone⟩, hchars.symm⟩, rfl⟩
    · rw [Option.map_eq_some_iff] at h
      obtain ⟨z, hz, rfl⟩ := h
      obtain ⟨zone, hzone, rfl, rfl⟩ := zone?_some hz
      exact ⟨⟨negative, ds, .year, zone⟩, ⟨⟨hds, hlong, trivial, hzone⟩, hchars.symm⟩, rfl⟩

/-- Whatever is spelled as a date is read as one, if its year is not too large. -/
theorem read?_of_spells {s : Spelling} (h : s.Spells text) :
    read? text = if Text.fits 32 s.year then some s.reading else none := by
  obtain ⟨hs, hchars⟩ := h
  have hyear := year?_of s.negative hs.digits hs.long (head?_detail s.detail s.zone)
  rw [← Spelling.year] at hyear
  unfold read?
  rw [← hchars, Spelling.chars, hyear]
  by_cases hfits : Text.fits 32 s.year = true
  · rw [if_pos hfits, if_pos hfits]
    show (readMonth s.year _ <|> _) = some s.reading
    by_cases hdetail : s.detail = .year
    · have hchars : s.detail.chars ++ Zone.optionChars s.zone = Zone.optionChars s.zone := by
        rw [hdetail]
        rfl
      rw [hchars, readMonth_optionChars hs.zone, zone?_optionChars hs.zone, Spelling.reading,
        hdetail]
      rfl
    · rw [readMonth_chars hs.zone hs.detail hdetail]
      rfl
  · rw [if_neg hfits, if_neg hfits]

/-- A text that is read as a date and a spelling of it say the same. -/
theorem reading_of_spells {s : Spelling} (hs : s.Spells text) (h : read? text = some reading) :
    s.reading = reading := by
  rw [read?_of_spells hs, Option.ite_none_right_eq_some] at h
  exact Option.some.inj h.2

end Texts

end DiscoveryMetadata.Calendar
