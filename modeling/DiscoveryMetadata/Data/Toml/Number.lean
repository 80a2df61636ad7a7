import DiscoveryMetadata.Calendar
import DiscoveryMetadata.Data.Value
import DiscoveryMetadata.Decimal
import DiscoveryMetadata.Text.Escape
/-
  The numbers and dates of TOML. Only what is well formed and in range is taken; the value keeps
  the text it was written with.
-/
namespace DiscoveryMetadata.Data.Toml

/-- What a step of reading took, and the rest. -/
abbrev Step := Option (List Char × List Char)

/-- A run of digits that underscores may divide, and what follows it. No underscore stands at
either end of the run or beside another. -/
def run? (isDigit : Char → Bool) : List Char → Step
  | [] => none
  | c :: '_' :: r =>
    if isDigit c then (run? isDigit r).map fun (taken, rest) => (c :: taken, rest) else none
  | c :: r =>
    if isDigit c then
      match run? isDigit r with
      | some (taken, rest) => some (c :: taken, rest)
      | none => some ([c], r)
    else none

/-- An optional sign. -/
def sign : List Char → List Char × List Char
  | '+' :: r => (['+'], r)
  | '-' :: r => (['-'], r)
  | r => ([], r)

/-- A decimal integer with an optional sign and no leading zeros. Underscores are left out of what
it gives. -/
def decimal? (cs : List Char) : Step :=
  let (s, cs) := sign cs
  match cs with
  | '0' :: r => some (s ++ ['0'], r)
  | r => (run? Char.isDigit r).map fun (taken, rest) => (s ++ taken, rest)

/-- The exponent of a number, from its letter on. -/
def exponent? : List Char → Step
  | c :: r =>
    if c == 'e' || c == 'E' then
      let (s, r) := sign r
      (run? Char.isDigit r).map fun (taken, rest) => (c :: s ++ taken, rest)
    else none
  | [] => none

/-- The fraction of a number, from its point on. -/
def fraction? : List Char → Step
  | '.' :: r => (run? Char.isDigit r).map fun (taken, rest) => ('.' :: taken, rest)
  | _ => none

/-- The text begins with one of the letters. -/
def begins (letters : List Char) (cs : List Char) : Bool := cs.head?.any letters.contains

/-- Reads a number with a fraction or an exponent. -/
def fractional? (cs : List Char) : Step := do
  let (w, rest) ← decimal? cs
  let (f, rest) ← if begins ['.'] rest then fraction? rest else some ([], rest)
  let (e, rest) ← if begins ['e', 'E'] rest then exponent? rest else some ([], rest)
  let written := w ++ f ++ e
  if Double.ofText? (String.ofList written) == some (.infinity false) then none
  else some (written, rest)

/-- Reads the word for infinity or for what is not a number, with an optional sign. -/
def special? (cs : List Char) : Step :=
  let (s, r) := sign cs
  match r with
  | 'i' :: 'n' :: 'f' :: r => some (s ++ ['i', 'n', 'f'], r)
  | 'n' :: 'a' :: 'n' :: r => some (s ++ ['n', 'a', 'n'], r)
  | _ => none

/-- The value of a digit in a base up to 16. -/
def digitIn? (base : Nat) (c : Char) : Option Nat :=
  (Text.digitValue? 16 c).filter (· < base)

/-- Reads the digits of an integer in a base, which must fit 63 bits. -/
def based? (base : Nat) (cs : List Char) : Step := do
  let (taken, rest) ← run? (fun c => (digitIn? base c).isSome) cs
  let n := taken.foldl (fun n c => n * base + (digitIn? base c).getD 0) 0
  if n < Nat.pow 2 63 then some (taken, rest) else none

/-- Reads an integer, which must fit 64 bits. -/
def integer? : List Char → Step
  | '0' :: 'x' :: r => based? 16 r
  | '0' :: 'o' :: r => based? 8 r
  | '0' :: 'b' :: r => based? 2 r
  | cs => do
    let (taken, rest) ← decimal? cs
    if (Text.int64? (String.ofList taken)).isSome then some (taken, rest) else none

/-- Reads exactly `n` digits that write a number between two bounds. -/
def field? (n low high : Nat) (cs : List Char) : Option (Nat × List Char) := do
  let value ← if cs.length < n then none else Text.digits? (cs.take n)
  if low ≤ value && value ≤ high then some (value, cs.drop n) else none

/-- Passes over one character. -/
def after? (mark : Char) : List Char → Option (List Char)
  | c :: r => if c == mark then some r else none
  | [] => none

/-- Reads a time of day; gives what follows it. -/
def time? (cs : List Char) : Option (List Char) := do
  let (_, cs) ← field? 2 0 23 cs
  let cs ← after? ':' cs
  let (_, cs) ← field? 2 0 59 cs
  let cs ← after? ':' cs
  let (_, cs) ← field? 2 0 60 cs
  match cs with
  | '.' :: r => if begins ['0', '1', '2', '3', '4', '5', '6', '7', '8', '9'] r
      then some (r.dropWhile Char.isDigit) else none
  | r => some r

/-- Passes over the distance from Greenwich after a time, if it is there. -/
def zone? : List Char → Option (List Char)
  | 'Z' :: r | 'z' :: r => some r
  | '+' :: r | '-' :: r => do
    let (_, r) ← field? 2 0 23 r
    let r ← after? ':' r
    let (_, r) ← field? 2 0 59 r
    some r
  | r => some r

/-- Reads a calendar day; gives what follows it. -/
def day? (cs : List Char) : Option (List Char) := do
  let (year, cs) ← field? 4 0 9999 cs
  let cs ← after? '-' cs
  let (month, cs) ← field? 2 1 12 cs
  let cs ← after? '-' cs
  let (_, cs) ← field? 2 1 (Calendar.daysIn year month) cs
  some cs

/-- Passes over the time after a day, if it is there. -/
def timeOfDay? (cs : List Char) : Option (List Char) :=
  match cs with
  | c :: r =>
    if c == 'T' || c == 't' || c == ' ' then
      match time? r with
      | some rest => zone? rest
      | none => some cs
    else some cs
  | [] => some []

/-- Reads a day, a time or both; gives what follows. -/
def date? (cs : List Char) : Option (List Char) :=
  match day? cs with
  | some rest => timeOfDay? rest
  | none => time? cs

/-- Reads a date or a number of any form. -/
def number? (cs : List Char) : Option (Value × List Char) :=
  match date? cs with
  | some rest => some (.number (String.ofList (cs.take (cs.length - rest.length))), rest)
  | none =>
    let (_, unsigned) := sign cs
    let (taken, rest) := (unsigned.takeWhile Char.isDigit, unsigned.dropWhile fun c =>
      c.isDigit || c == '_')
    let step :=
      if !taken.isEmpty && begins ['.', 'e', 'E'] rest then fractional? cs
      else (special? cs).or (integer? cs)
    step.map fun (written, rest) => (.number (String.ofList written), rest)

end DiscoveryMetadata.Data.Toml
