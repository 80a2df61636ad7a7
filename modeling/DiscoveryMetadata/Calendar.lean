import DiscoveryMetadata.Fault
import DiscoveryMetadata.Text.Basic
/-
  Dates as documents write them: a year, a month, a day or a moment of a day, each with an
  optional time zone.

  A date text denotes the earliest instant that it covers, in universal time; without a zone it is
  taken as universal time. The fraction of a second is read and then left aside. Years and zones
  are limited to what the calendar here represents.
-/
namespace DiscoveryMetadata

/-- The four forms of a date text. -/
inductive DateKind where
  | dateTime
  | date
  | yearMonth
  | year
  deriving DecidableEq, Repr

namespace DateKind

/-- The name of the form in the schema language. -/
def name : DateKind → String
  | dateTime => "xs:dateTime"
  | date => "xs:date"
  | yearMonth => "xs:gYearMonth"
  | year => "xs:gYear"

end DateKind

namespace Calendar

/-- A day of the Gregorian calendar, extended in both directions. -/
structure Date where
  year : Int
  month : Nat
  day : Nat
  deriving DecidableEq, Repr

/-- The years of the calendar: from this one, -/
def firstYear : Int := -262143

/-- to this one. -/
def lastYear : Int := 262142

/-- The year has a 29th of February. -/
def isLeap (year : Int) : Bool := year % 4 == 0 && (year % 100 != 0 || year % 400 == 0)

/-- The number of days in a month. -/
def daysIn (year : Int) (month : Nat) : Nat :=
  if month = 2 then (if isLeap year then 29 else 28)
  else if month = 4 || month = 6 || month = 9 || month = 11 then 30
  else 31

namespace Date

/-- The day exists. -/
def isValid (d : Date) : Bool :=
  firstYear ≤ d.year && d.year ≤ lastYear && 1 ≤ d.month && d.month ≤ 12 && 1 ≤ d.day &&
    d.day ≤ daysIn d.year d.month

/-- The day after. -/
def next (d : Date) : Date :=
  if d.day < daysIn d.year d.month then { d with day := d.day + 1 }
  else if d.month < 12 then ⟨d.year, d.month + 1, 1⟩
  else ⟨d.year + 1, 1, 1⟩

/-- The day before. -/
def previous (d : Date) : Date :=
  if 1 < d.day then { d with day := d.day - 1 }
  else if 1 < d.month then ⟨d.year, d.month - 1, daysIn d.year (d.month - 1)⟩
  else ⟨d.year - 1, 12, 31⟩

/-- `a` comes before `b`. -/
def before (a b : Date) : Bool :=
  a.year < b.year || (a.year == b.year &&
    (a.month < b.month || (a.month == b.month && a.day < b.day)))

end Date

/-- A second of a day. -/
structure Instant where
  date : Date
  second : Nat
  deriving DecidableEq, Repr

/-- The seconds of a day. -/
def dayLength : Nat := 86400

namespace Instant

/-- `a` comes before `b`. -/
def before (a b : Instant) : Bool :=
  a.date.before b.date || (a.date == b.date && a.second < b.second)

/-- The instant earlier by `seconds`, which is less than a day in either direction; `none` if that
leaves the calendar. -/
def earlier? (i : Instant) (seconds : Int) : Option Instant :=
  let s := (i.second : Int) - seconds
  let moved : Instant :=
    if s < 0 then ⟨i.date.previous, (s + dayLength).toNat⟩
    else if dayLength ≤ s then ⟨i.date.next, (s - dayLength).toNat⟩
    else ⟨i.date, s.toNat⟩
  if moved.date.isValid then some moved else none

/-- A number in at least `width` digits. -/
def padded (width n : Nat) : String :=
  let digits := (toString n).toList
  String.ofList (List.replicate (width - digits.length) '0' ++ digits)

/-- The instant as text; a year of more or less than four digits carries a sign. -/
def text (i : Instant) : String :=
  let y := i.date.year
  let year := padded 4 y.natAbs
  let year := if y < 0 then "-" ++ year else if 9999 < y then "+" ++ year else year
  let clock := ":".intercalate
    [padded 2 (i.second / 3600), padded 2 (i.second / 60 % 60), padded 2 (i.second % 60)]
  s!"{year}-{padded 2 i.date.month}-{padded 2 i.date.day} {clock}"

end Instant

/-- What a date text says, before it is checked against the calendar. -/
structure Reading where
  kind : DateKind
  date : Date
  hour : Nat := 0
  minute : Nat := 0
  second : Nat := 0
  /-- Seconds by which the zone is ahead of universal time. -/
  zone : Int := 0
  deriving DecidableEq, Repr

/-- A number of exactly two digits, and what follows it. -/
def two? : List Char → Option (Nat × List Char)
  | a :: b :: r => (Text.digits? [a, b]).map fun n => (n, r)
  | _ => none

/-- A two-digit number behind the character `mark`, and what follows it. -/
def marked? (mark : Char) : List Char → Option (Nat × List Char)
  | c :: r => if c = mark then two? r else none
  | [] => none

/-- The zone that a text consists of, in seconds ahead of universal time. -/
def zone? : List Char → Option Int
  | [] => some 0
  | ['Z'] => some 0
  | c :: r =>
    if c = '+' || c = '-' then
      match two? r with
      | some (h, r) =>
        match marked? ':' r with
        | some (m, []) =>
          let seconds : Int := h * 3600 + m * 60
          some (if c = '-' then -seconds else seconds)
        | _ => none
      | none => none
    else none

/-- Drops the fraction of a second, if the text begins with one. -/
def dropFraction : List Char → List Char
  | '.' :: c :: r =>
    if Text.isDecimalDigit c then r.dropWhile Text.isDecimalDigit else '.' :: c :: r
  | r => r

/-- The seconds, which may be absent, and what follows them and their fraction. -/
def seconds : List Char → Nat × List Char
  | ':' :: r =>
    match two? r with
    | some (s, r) => (s, dropFraction r)
    | none => (0, ':' :: r)
  | r => (0, r)

/-- Reads what follows the `T` of a text with a time. -/
def readTime (date : Date) (cs : List Char) : Option Reading :=
  match two? cs with
  | none => none
  | some (h, r) =>
    match marked? ':' r with
    | none => none
    | some (m, r) =>
      let (s, r) := seconds r
      (zone? r).map fun z => ⟨.dateTime, date, h, m, s, z⟩

/-- Reads what follows the month. -/
def readDay (year : Int) (month : Nat) (cs : List Char) : Option Reading :=
  match marked? '-' cs with
  | some (day, 'T' :: r) => readTime ⟨year, month, day⟩ r
  | some (day, r) => (zone? r).map fun z => { kind := .date, date := ⟨year, month, day⟩, zone := z }
  | none => none

/-- Reads what follows the year. -/
def readMonth (year : Int) (cs : List Char) : Option Reading :=
  match marked? '-' cs with
  | some (month, r) =>
    (readDay year month r) <|>
      (zone? r).map fun z => { kind := .yearMonth, date := ⟨year, month, 1⟩, zone := z }
  | none => none

/-- Reads a year of at least four digits, which may be negative, and what follows it. -/
def year? (cs : List Char) : Option (Int × List Char) :=
  let (minus, cs) := match cs with
    | '-' :: r => (['-'], r)
    | r => ([], r)
  let digits := cs.takeWhile Char.isDigit
  if digits.length < 4 then none
  else (Text.int32? (minus ++ digits)).map fun y => (y, cs.dropWhile Char.isDigit)

/-- Reads a date text. -/
def read? (text : String) : Option Reading :=
  match year? (Text.trim text).toList with
  | none => none
  | some (year, r) =>
    (readMonth year r) <|>
      (zone? r).map fun z => { kind := .year, date := ⟨year, 1, 1⟩, zone := z }

namespace Reading

/-- The earliest instant that a reading covers, if the calendar has it. -/
def instant? (r : Reading) : Option Instant :=
  if r.date.isValid && r.hour < 24 && r.minute < 60 && r.second < 60 &&
      r.zone.natAbs < dayLength then
    Instant.earlier? ⟨r.date, r.hour * 3600 + r.minute * 60 + r.second⟩ r.zone
  else none

end Reading

/-- The earliest instant that a date text covers. -/
def instant? (text : String) : Option Instant := (read? text).bind (·.instant?)

/-- The form of a date text. -/
def kind? (text : String) : Option DateKind :=
  (read? text).bind fun r => r.instant?.map fun _ => r.kind

/-- The text names a calendar day. -/
def isDate (text : String) : Bool := kind? text == some .date

/-- The form of a date text, which it must have. -/
def requireKind (text : String) : Outcome DateKind :=
  match kind? text with
  | some k => .ok k
  | none => .error (.rule
      ("The date datatype must be one of xs:dateTime, xs:date, xs:gYearMonth, or xs:gYear: " ++
        text))

/-- `a` begins later than `b`; false if one of them is no date text. -/
def isAfter (a b : String) : Bool :=
  match instant? a, instant? b with
  | some x, some y => y.before x
  | _, _ => false

end Calendar

end DiscoveryMetadata
