import DiscoveryMetadata.Text.Basic
import DiscoveryMetadata.Text.Escape
/-
  Domain names: percent escapes are read, letters are mapped to their plain lower forms, and each
  label is checked.

  Mapping takes account of what occurs in practice: the case of ASCII, digits and letters in other
  styles, the full stops of other scripts, and characters that do not show. A label may be written
  in its encoded form, which begins with `xn--` and must decode to text beyond ASCII that mapping
  leaves as it is, without capital letters.

  The full tables for domain names, which say of each character whether it may stand in one and
  what it is mapped to, are not here. So domains are accepted that these tables refuse: domains
  with characters that are not assigned, as U+0378, or that are kept out for a reason of their own;
  with characters that are mapped to several, of which one may be forbidden, as in U+2100, or a
  number or a full stop, as in U+2488; with a joiner in a place where no script has one; with marks
  that should have been composed with the character before them; with an encoded label that stands
  for a compatibility form of another kind; with a mark of a script that is not listed at the
  beginning of a label; or, beside a label from right to left, with one that only domains from left
  to right can have. Which way a character is written is told by its block.
-/
namespace DiscoveryMetadata.Uri.Domain

/-- The byte that two hexadecimal digits write. -/
def byte? (a b : Char) : Option UInt8 :=
  match Text.digitValue? 16 a, Text.digitValue? 16 b with
  | some x, some y => some (x * 16 + y).toUInt8
  | _, _ => none

/-- The bytes of a text with percent escapes read. -/
def bytes : List Char → List UInt8
  | '%' :: a :: b :: r =>
    match byte? a b with
    | some x => x :: bytes r
    | none => '%'.toUInt8 :: bytes (a :: b :: r)
  | c :: r => (String.singleton c).toUTF8.toList ++ bytes r
  | [] => []

/-- The text with percent escapes read, unless that gives no text. -/
def unescape? (cs : List Char) : Option (List Char) :=
  (String.fromUTF8? ⟨(bytes cs).toArray⟩).map String.toList

/-- Characters that do not show and are dropped. -/
def isIgnored (c : Char) : Bool :=
  let n := c.toNat
  n == 0xAD || n == 0x34F || (0x180B ≤ n && n ≤ 0x180F && n != 0x180E) || n == 0x200B ||
    n == 0x2060 || n == 0x2064 || (0xFE00 ≤ n && n ≤ 0xFE0F) || n == 0xFEFF ||
    (0xE0100 ≤ n && n ≤ 0xE01EF)

/-- Runs of ASCII characters in another style: the first and the last of the run, the plain form of
the first, and after how many characters the plain forms begin anew. -/
def styledRuns : List (Nat × Nat × Char × Nat) :=
  [(0xAA, 0xAA, 'a', 1), (0xB2, 0xB3, '2', 2), (0xB9, 0xB9, '1', 1), (0xBA, 0xBA, 'o', 1),
   (0x2070, 0x2070, '0', 1), (0x2074, 0x2079, '4', 6), (0x2080, 0x2089, '0', 10),
   (0x2460, 0x2468, '1', 9), (0x24B6, 0x24E9, 'a', 26), (0x24EA, 0x24EA, '0', 1),
   (0xFF01, 0xFF5E, '!', 94), (0x1D400, 0x1D6A3, 'a', 26), (0x1D7CE, 0x1D7FF, '0', 10),
   (0x1F130, 0x1F149, 'a', 26), (0x1FBF0, 0x1FBF9, '0', 10)]

/-- The plain lower form of a character. -/
def mapped (c : Char) : Char :=
  let n := c.toNat
  if n == 0x3002 || n == 0xFF61 then '.'
  else
    match styledRuns.find? fun (first, last, _) => first ≤ n && n ≤ last with
    | some (first, _, plain, period) =>
      (Char.ofNat (plain.toNat + (n - first) % period)).toLower
    | none => c.toLower

/-- Runs of capital letters beyond ASCII: the first and the last of the run, and how far they are
apart, since in some scripts a small letter follows each capital one. The capital letters of
Cherokee are not among them, since domains have these as they are. -/
def capitalRuns : List (Nat × Nat × Nat) :=
  [(0xC0, 0xD6, 1), (0xD8, 0xDE, 1), (0x100, 0x130, 2), (0x132, 0x136, 2), (0x139, 0x147, 2),
   (0x14A, 0x178, 2), (0x179, 0x17D, 2), (0x181, 0x182, 1), (0x184, 0x186, 2), (0x187, 0x189, 2),
   (0x18A, 0x18B, 1), (0x18E, 0x191, 1), (0x193, 0x194, 1), (0x196, 0x198, 1), (0x19C, 0x19D, 1),
   (0x19F, 0x1A0, 1), (0x1A2, 0x1A6, 2), (0x1A7, 0x1A9, 2), (0x1AC, 0x1AE, 2), (0x1AF, 0x1B1, 2),
   (0x1B2, 0x1B3, 1), (0x1B5, 0x1B7, 2), (0x1B8, 0x1B8, 1), (0x1BC, 0x1BC, 1), (0x1C4, 0x1C5, 1),
   (0x1C7, 0x1C8, 1), (0x1CA, 0x1CB, 1), (0x1CD, 0x1DB, 2), (0x1DE, 0x1EE, 2), (0x1F1, 0x1F2, 1),
   (0x1F4, 0x1F6, 2), (0x1F7, 0x1F8, 1), (0x1FA, 0x232, 2), (0x23A, 0x23B, 1), (0x23D, 0x23E, 1),
   (0x241, 0x243, 2), (0x244, 0x246, 1), (0x248, 0x24E, 2), (0x370, 0x372, 2), (0x376, 0x376, 1),
   (0x37F, 0x37F, 1), (0x386, 0x388, 2), (0x389, 0x38A, 1), (0x38C, 0x38E, 2), (0x38F, 0x391, 2),
   (0x392, 0x3A1, 1), (0x3A3, 0x3AB, 1), (0x3CF, 0x3CF, 1), (0x3D8, 0x3EE, 2), (0x3F4, 0x3F4, 1),
   (0x3F7, 0x3F9, 2), (0x3FA, 0x3FA, 1), (0x3FD, 0x42F, 1), (0x460, 0x480, 2), (0x48A, 0x4C0, 2),
   (0x4C1, 0x4CD, 2), (0x4D0, 0x52E, 2), (0x531, 0x556, 1), (0x10A0, 0x10C5, 1),
   (0x10C7, 0x10C7, 1), (0x10CD, 0x10CD, 1), (0x1C90, 0x1CBA, 1),
   (0x1CBD, 0x1CBF, 1), (0x1E00, 0x1E94, 2), (0x1E9E, 0x1EFE, 2), (0x1F08, 0x1F0F, 1),
   (0x1F18, 0x1F1D, 1), (0x1F28, 0x1F2F, 1), (0x1F38, 0x1F3F, 1), (0x1F48, 0x1F4D, 1),
   (0x1F59, 0x1F5F, 2), (0x1F68, 0x1F6F, 1), (0x1F88, 0x1F8F, 1), (0x1F98, 0x1F9F, 1),
   (0x1FA8, 0x1FAF, 1), (0x1FB8, 0x1FBC, 1), (0x1FC8, 0x1FCC, 1), (0x1FD8, 0x1FDB, 1),
   (0x1FE8, 0x1FEC, 1), (0x1FF8, 0x1FFC, 1), (0x2126, 0x2126, 1), (0x212A, 0x212B, 1),
   (0x2132, 0x2132, 1), (0x2160, 0x216F, 1), (0x2183, 0x2183, 1), (0x2C00, 0x2C2F, 1),
   (0x2C60, 0x2C62, 2), (0x2C63, 0x2C64, 1), (0x2C67, 0x2C6D, 2), (0x2C6E, 0x2C70, 1),
   (0x2C72, 0x2C72, 1), (0x2C75, 0x2C75, 1), (0x2C7E, 0x2C80, 1), (0x2C82, 0x2CE2, 2),
   (0x2CEB, 0x2CED, 2), (0x2CF2, 0x2CF2, 1), (0xA640, 0xA66C, 2), (0xA680, 0xA69A, 2),
   (0xA722, 0xA72E, 2), (0xA732, 0xA76E, 2), (0xA779, 0xA77D, 2), (0xA77E, 0xA786, 2),
   (0xA78B, 0xA78D, 2), (0xA790, 0xA792, 2), (0xA796, 0xA7AA, 2), (0xA7AB, 0xA7AE, 1),
   (0xA7B0, 0xA7B4, 1), (0xA7B6, 0xA7C4, 2), (0xA7C5, 0xA7C7, 1), (0xA7C9, 0xA7C9, 1),
   (0xA7D0, 0xA7D0, 1), (0xA7D6, 0xA7D8, 2), (0xA7F5, 0xA7F5, 1), (0x10400, 0x10427, 1),
   (0x104B0, 0x104D3, 1), (0x10570, 0x1057A, 1), (0x1057C, 0x1058A, 1), (0x1058C, 0x10592, 1),
   (0x10594, 0x10595, 1), (0x10C80, 0x10CB2, 1), (0x118A0, 0x118BF, 1), (0x16E40, 0x16E5F, 1),
   (0x1E900, 0x1E921, 1)]

/-- A capital letter, of whatever script. -/
def isCapital (c : Char) : Bool :=
  let n := c.toNat
  c.isUpper || capitalRuns.any fun (first, last, apart) =>
    first ≤ n && n ≤ last && (n - first) % apart == 0

/-- A character that no domain may hold. -/
def isForbidden (c : Char) : Bool :=
  let n := c.toNat
  n ≤ 0x20 || (0x7F ≤ n && n ≤ 0x9F) || "%#/:<>?@[\\]^|".toList.contains c ||
    Text.isSpace c || n == 0x61C || n == 0x180E || n == 0x200E || n == 0x200F ||
    (0x202A ≤ n && n ≤ 0x202E) || (0x2061 ≤ n && n ≤ 0x206F) || (0x2FF0 ≤ n && n ≤ 0x2FFF) ||
    (0xE000 ≤ n && n ≤ 0xF8FF) || (0xFDD0 ≤ n && n ≤ 0xFDEF) || (0xFFF0 ≤ n && n ≤ 0xFFFF) ||
    n % 0x10000 == 0xFFFE || n % 0x10000 == 0xFFFF || 0xE0000 ≤ n

/-- A mark that needs a character before it. -/
def isMark (c : Char) : Bool :=
  let n := c.toNat
  (0x300 ≤ n && n ≤ 0x36F) || (0x483 ≤ n && n ≤ 0x489) || (0x591 ≤ n && n ≤ 0x5BD) ||
    (0x610 ≤ n && n ≤ 0x61A) || (0x64B ≤ n && n ≤ 0x65F) || (0x900 ≤ n && n ≤ 0x903) ||
    (0x93A ≤ n && n ≤ 0x93C) || (0x93E ≤ n && n ≤ 0x94F) || (0x1AB0 ≤ n && n ≤ 0x1AFF) ||
    (0x1DC0 ≤ n && n ≤ 0x1DFF) || (0x20D0 ≤ n && n ≤ 0x20FF) || (0x302A ≤ n && n ≤ 0x302F) ||
    (0x3099 ≤ n && n ≤ 0x309A) || (0xFE20 ≤ n && n ≤ 0xFE2F)

/-- A letter that is written from right to left. -/
def isRightToLeft (c : Char) : Bool :=
  let n := c.toNat
  !isMark c && ((0x5BE ≤ n && n ≤ 0x8FF && !(0x660 ≤ n && n ≤ 0x669)) ||
    (0xFB1D ≤ n && n ≤ 0xFDFF) || (0xFE70 ≤ n && n ≤ 0xFEFC) || (0x10800 ≤ n && n ≤ 0x10FFF))

/-- The value of a digit of the encoded form. -/
def encodedDigit? (c : Char) : Option Nat :=
  if c.isDigit then some (c.toNat - 22)
  else if c.isAlpha then some (c.toLower.toNat - 97)
  else none

/-- The weight bias after a number was read. -/
def adapt (delta count : Nat) (first : Bool) : Nat :=
  let delta := if first then delta / 700 else delta / 2
  let delta := delta + delta / count
  let rec go : Nat → Nat → Nat → Nat
    | 0, k, d => k + 36 * d / (d + 38)
    | fuel + 1, k, d => if d > 455 then go fuel (k + 36) (d / 35) else k + 36 * d / (d + 38)
  go 32 0 delta

/-- Reads one number of the encoded form, with what follows it. -/
def encodedNumber? (bias : Nat) : Nat → Nat → Nat → List Char → Option (Nat × List Char)
  | _, _, _, [] => none
  | k, weight, acc, c :: r =>
    match encodedDigit? c with
    | none => none
    | some d =>
      let acc := acc + d * weight
      let t := if k ≤ bias then 1 else if bias + 26 ≤ k then 26 else k - bias
      if d < t then some (acc, r)
      else encodedNumber? bias (k + 36) (weight * (36 - t)) acc r

/-- Inserts the characters that the numbers of the encoded form tell. -/
def insertEncoded : Nat → Nat → Nat → Nat → List Char → List Char → Option (List Char)
  | 0, _, _, _, _, _ => none
  | fuel + 1, n, i, bias, out, cs =>
    if cs.isEmpty then some out
    else
      match encodedNumber? bias 36 1 i cs with
      | none => none
      | some (j, rest) =>
        let count := out.length + 1
        let n := n + j / count
        let at_ := j % count
        if 0x10FFFF < n then none
        else
          match Text.charOfNumber? n with
          | none => none
          | some c =>
            insertEncoded fuel n (at_ + 1) (adapt (j - i) count (i == 0))
              (out.take at_ ++ c :: out.drop at_) rest

/-- The text that a label in encoded form stands for, given without `xn--`. -/
def decode? (cs : List Char) : Option (List Char) :=
  let tail := (cs.reverse.takeWhile (· != '-')).reverse
  let plain := (cs.reverse.dropWhile (· != '-')).reverse.dropLast
  insertEncoded (cs.length + 1) 128 0 72 plain tail

/-- The label, after mapping, may stand in a domain. -/
def isLabel (cs : List Char) : Bool :=
  !cs.any isForbidden && !cs.head?.any isMark &&
    (!cs.any isRightToLeft || (cs.head?.any isRightToLeft && !cs.any Char.isAlpha))

/-- The label may stand in a domain, be it encoded or not. -/
def isEncodedOrLabel (cs : List Char) : Bool :=
  if cs.take 4 = "xn--".toList then
    match decode? (cs.drop 4) with
    | some plain =>
      plain.any (128 ≤ ·.toNat) && isLabel plain &&
        plain.all fun c => !isCapital c && !isIgnored c && mapped c == c
    | none => false
  else isLabel cs

/-- The domain that a host writes, if it may be one. -/
def ofHost? (host : List Char) : Option (List Char) :=
  (unescape? host).bind fun cs =>
    let domain := (cs.filter (!isIgnored ·)).map mapped
    if (domain.splitOn '.').all isEncodedOrLabel then some domain else none

end DiscoveryMetadata.Uri.Domain
