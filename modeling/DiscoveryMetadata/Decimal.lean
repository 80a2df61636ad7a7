import DiscoveryMetadata.Text.Basic
/-
  Binary floating-point numbers of 64 bits, as exact arithmetic sees them.

  A number is its bit pattern: a sign, eleven bits of exponent, 52 bits of fraction. Comparison
  goes by the pattern as well, because the patterns of positive numbers are ordered as the numbers
  are; zero has two patterns that are equal, and what is not a number equals nothing.

  A double is read from a decimal with an optional sign, point and exponent, or from the word for
  infinity or for what is not a number; the result is the double nearest to the value written. It
  is written with the fewest digits that read back to the same double, and of those the nearest to
  its value, always in positional notation. A whole number below 10 ^ 15 has one decimal place,
  which is zero.
-/
namespace DiscoveryMetadata

/-- A binary floating-point number of 64 bits. -/
structure Double where
  bits : UInt64
  deriving DecidableEq, Repr, Inhabited

namespace Double

/-- The pattern of infinity. -/
def infinityBits : Nat := 0x7FF0000000000000

/-- The weight of the sign bit. -/
def signWeight : Nat := Nat.pow 2 63

/-- The number with this sign and this pattern of its magnitude. -/
def ofParts (negative : Bool) (magnitude : Nat) : Double :=
  ⟨(if negative then signWeight + magnitude else magnitude).toUInt64⟩

/-- Infinity with a sign. -/
def infinity (negative : Bool) : Double := ofParts negative infinityBits

/-- What is not a number. -/
def nan : Double := ⟨0x7FF8000000000000⟩

/-- The sign bit is set. -/
def isNegative (x : Double) : Bool := signWeight ≤ x.bits.toNat

/-- The pattern without the sign. -/
def magnitude (x : Double) : Nat := x.bits.toNat % signWeight

/-- Not a number. -/
def isNaN (x : Double) : Bool := infinityBits < x.magnitude

/-- A number, and not infinite. -/
def isFinite (x : Double) : Bool := x.magnitude < infinityBits

/-- The whole number `m` of the magnitude `m * 2 ^ q` of a finite number. -/
def significand (x : Double) : Nat :=
  let fraction := x.magnitude % Nat.pow 2 52
  if x.magnitude < Nat.pow 2 52 then fraction else fraction + Nat.pow 2 52

/-- The exponent `q` of the magnitude `m * 2 ^ q` of a finite number. -/
def exponent (x : Double) : Int := max (x.magnitude / Nat.pow 2 52 : Nat) 1 - 1075

/-- The magnitude of a finite number over `denominator`. -/
def numerator (x : Double) : Nat := x.significand * Nat.pow 2 x.exponent.toNat

/-- The power of two that the magnitude of a finite number is a fraction over. -/
def denominator (x : Double) : Nat := Nat.pow 2 (-x.exponent).toNat

/-- A whole number that orders numbers as their values do. -/
def order (x : Double) : Int := if x.isNegative then -(x.magnitude : Int) else x.magnitude

/-- The numbers have the same value. -/
def equal (x y : Double) : Bool := !x.isNaN && !y.isNaN && x.order == y.order

instance : BEq Double := ⟨equal⟩

/-- `x` is less than `y`. -/
def less (x y : Double) : Bool := !x.isNaN && !y.isNaN && x.order < y.order

/-- The quotient of two whole numbers, rounded to the nearest whole number; a half goes to the
even neighbour. -/
def roundDiv (num den : Nat) : Nat :=
  let q := num / den
  let r := num % den
  if den < 2 * r || (2 * r == den && q % 2 == 1) then q + 1 else q

/-- The pattern of the magnitude nearest to `num / den`. -/
def nearest (num den : Nat) : Nat :=
  if num = 0 then 0
  else
    let scaled := fun (e : Int) => (num * Nat.pow 2 (-e).toNat, den * Nat.pow 2 e.toNat)
    let e0 : Int := max ((num.log2 : Int) - den.log2 - 53) (-1074)
    let (n0, d0) := scaled e0
    let e := if Nat.pow 2 53 ≤ n0 / d0 then e0 + 1 else e0
    let (n, d) := scaled e
    min ((e + 1074).toNat * Nat.pow 2 52 + roundDiv n d) infinityBits

/-- The number lies between `-n` and `n`, ends included. -/
def within (x : Double) (n : Nat) : Bool := x.magnitude ≤ nearest n 1

section Reading

/-- The pattern of the magnitude nearest to `digits * 10 ^ exponent`. Values far outside the range
of doubles are told by their size alone. -/
def nearestDecimal (digits : Nat) (exponent : Int) : Nat :=
  let size := (toString digits).length + exponent
  if digits = 0 then 0
  else if 310 < size then infinityBits
  else if size < -330 then 0
  else nearest (digits * Nat.pow 10 exponent.toNat) (Nat.pow 10 (-exponent).toNat)

/-- The exponent of a decimal, which begins with its letter; an absent one is zero. -/
def exponent? : List Char → Option Int
  | [] => some 0
  | c :: r => if c = 'e' || c = 'E' then Text.signed? r else none

/-- The magnitude that a decimal without a sign writes. -/
def unsigned? (cs : List Char) : Option Nat :=
  let whole := cs.takeWhile Char.isDigit
  let rest := cs.dropWhile Char.isDigit
  let (fraction, rest) := match rest with
    | '.' :: r => (r.takeWhile Char.isDigit, r.dropWhile Char.isDigit)
    | r => ([], r)
  match Text.digits? (whole ++ fraction), exponent? rest with
  | some digits, some e => some (nearestDecimal digits (e - fraction.length))
  | _, _ => none

/-- Splits off a sign; the flag tells a minus. -/
def sign : List Char → Bool × List Char
  | '-' :: r => (true, r)
  | '+' :: r => (false, r)
  | r => (false, r)

/-- The double that a text writes. -/
def ofText? (text : String) : Option Double :=
  let (negative, cs) := sign text.toList
  let word := String.ofList (cs.map Char.toLower)
  if word = "inf" || word = "infinity" then some (infinity negative)
  else if word = "nan" then some nan
  else (unsigned? cs).map (ofParts negative)

/-- The double that the text of an element or attribute writes; blanks around it do not matter. -/
def ofContent? (text : String) : Option Double :=
  let t := Text.trim text
  if t = "INF" then some (infinity false)
  else if t = "-INF" then some (infinity true)
  else if t = "NaN" then some nan
  else ofText? t

end Reading

section Writing

/-- The finite numbers that read back to one double lie between two bounds over one denominator;
all are whole multiples of one quarter of the last binary place. -/
structure Interval where
  low : Nat
  value : Nat
  high : Nat
  den : Nat
  /-- The bounds themselves read back. -/
  closed : Bool

/-- The interval of a finite double other than zero. -/
def interval (x : Double) : Interval :=
  let m := x.significand
  let q := x.exponent - 2
  let up := Nat.pow 2 q.toNat
  let below := if m = Nat.pow 2 52 && Nat.pow 2 53 ≤ x.magnitude then 1 else 2
  ⟨(4 * m - below) * up, 4 * m * up, (4 * m + 2) * up, Nat.pow 2 (-q).toNat, m % 2 == 0⟩

namespace Interval

/-- The decimal `d * 10 ^ e` lies in the interval. -/
def contains (i : Interval) (d : Nat) (e : Int) : Bool :=
  let x := d * Nat.pow 10 e.toNat * i.den
  let scale := Nat.pow 10 (-e).toNat
  if i.closed then i.low * scale ≤ x && x ≤ i.high * scale
  else i.low * scale < x && x < i.high * scale

/-- The whole part of the value in units of `10 ^ e`, and whether the rest is half a unit or
more. -/
def units (i : Interval) (e : Int) : Nat × Bool :=
  let num := i.value * Nat.pow 10 (-e).toNat
  let den := i.den * Nat.pow 10 e.toNat
  (num / den, den ≤ 2 * (num % den))

/-- The decimal with the last place `10 ^ e` that stands for the value, if one next to it lies in
the interval. -/
def decimalAt? (i : Interval) (e : Int) : Option (Nat × Int) :=
  let (d, upper) := i.units e
  let down := i.contains d e
  let up := i.contains (d + 1) e
  if up && (!down || upper) then some (d + 1, e) else if down then some (d, e) else none

/-- The number of decimal places before the point that the value fills; at most the given one. -/
def places (i : Interval) : Nat → Int → Int
  | 0, k => k
  | fuel + 1, k => if 1 ≤ (i.units (k - 1)).1 then k else places i fuel (k - 1)

/-- The decimal with the fewest digits in the interval, of which the first has the place
`10 ^ (k - 1)`; `fuel` counts the digits that may still be added. -/
def shortestFrom (i : Interval) (k : Int) (n : Nat) : Nat → Nat × Int
  | 0 => ((i.units (k - n)).1, k - n)
  | fuel + 1 =>
    match i.decimalAt? (k - n) with
    | some r => r
    | none => shortestFrom i k (n + 1) fuel

/-- The decimal with the fewest digits in the interval. -/
def shortest (i : Interval) : Nat × Int := i.shortestFrom (i.places 640 310) 1 17

end Interval

/-- The digits without the zeros at their end, of which at most `most` are dropped. -/
def dropZeros : Nat → Nat → Nat × Nat
  | 0, d => (d, 0)
  | most + 1, d =>
    if d % 10 = 0 then
      let (d, n) := dropZeros most (d / 10)
      (d, n + 1)
    else (d, 0)

/-- The decimal `d * 10 ^ e` in positional notation. -/
def positional (d : Nat) (e : Int) : String :=
  if 0 ≤ e then toString (d * Nat.pow 10 e.toNat)
  else
    let (d, dropped) := dropZeros (-e).toNat d
    let places := (-e).toNat - dropped
    if places = 0 then toString d
    else
      let digits := (toString d).toList
      let padded := List.replicate (places + 1 - digits.length) '0' ++ digits
      let point := padded.length - places
      String.ofList (padded.take point ++ '.' :: padded.drop point)

/-- The number has no fraction and is below 10 ^ 15. -/
def isSmallWhole (x : Double) : Bool :=
  x.numerator % x.denominator == 0 && x.numerator / x.denominator < Nat.pow 10 15

/-- The text of a double. -/
def format (x : Double) : String :=
  let minus := if x.isNegative then "-" else ""
  if x.isNaN then "NaN"
  else if !x.isFinite then minus ++ "inf"
  else if x.isSmallWhole then minus ++ toString (x.numerator / x.denominator) ++ ".0"
  else
    let (d, e) := x.interval.shortest
    minus ++ positional d e

end Writing

end Double

end DiscoveryMetadata
