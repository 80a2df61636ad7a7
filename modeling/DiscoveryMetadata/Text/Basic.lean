/-
  What texts are made of.

  White space: the characters of Unicode's property White_Space, the text without it at its ends,
  and the words it separates. Truth values as documents write them. Decimal digits of all scripts:
  the characters of Unicode's general category Nd. Whole numbers: an optional sign, then at least
  one ASCII digit.
-/
namespace DiscoveryMetadata.Text

/-- The property White_Space of Unicode. -/
def isSpace (c : Char) : Bool :=
  let n := c.toNat
  (9 ≤ n && n ≤ 13) || n == 0x20 || n == 0x85 || n == 0xA0 || n == 0x1680 ||
    (0x2000 ≤ n && n ≤ 0x200A) || n == 0x2028 || n == 0x2029 || n == 0x202F || n == 0x205F ||
    n == 0x3000

/-- The four characters that separate the parts of an XML tag. -/
def isXmlSpace (c : Char) : Bool := c == ' ' || c == '\t' || c == '\r' || c == '\n'

/-- Drops the characters at both ends that satisfy `p`. -/
def strip (p : Char → Bool) (cs : List Char) : List Char :=
  ((cs.dropWhile p).reverse.dropWhile p).reverse

/-- The text without white space at its ends. -/
def trim (s : String) : String := String.ofList (strip isSpace s.toList)

/-- The text holds nothing but white space. -/
def isBlank (s : String) : Bool := s.toList.all isSpace

/-- The pieces between the separators; there is one more of them than separators. -/
def fields (sep : Char → Bool) : List Char → List (List Char)
  | [] => [[]]
  | c :: r =>
    if sep c then [] :: fields sep r
    else match fields sep r with
      | [] => [[c]]
      | f :: fs => (c :: f) :: fs

/-- The words of a text: its longest runs without white space. -/
def words (s : String) : List String :=
  ((fields isSpace s.toList).filter (!·.isEmpty)).map String.ofList

/-- The words as one text, a space between each two. -/
def unwords (ws : List String) : String := " ".intercalate ws

/-- The truth value that a text writes, in one of its two spellings. -/
def truth? (text : String) : Option Bool :=
  let t := trim text
  if t = "true" || t = "1" then some true
  else if t = "false" || t = "0" then some false
  else none

/-- The word for a truth value. -/
def ofTruth (b : Bool) : String := if b then "true" else "false"

/-- The first and the last character of each run of ten digits. -/
def digitRuns : List (Nat × Nat) :=
  [(0x30, 0x39), (0x660, 0x669), (0x6f0, 0x6f9), (0x7c0, 0x7c9), (0x966, 0x96f), (0x9e6, 0x9ef),
   (0xa66, 0xa6f), (0xae6, 0xaef), (0xb66, 0xb6f), (0xbe6, 0xbef), (0xc66, 0xc6f),
   (0xce6, 0xcef), (0xd66, 0xd6f), (0xde6, 0xdef), (0xe50, 0xe59), (0xed0, 0xed9),
   (0xf20, 0xf29), (0x1040, 0x1049), (0x1090, 0x1099), (0x17e0, 0x17e9), (0x1810, 0x1819),
   (0x1946, 0x194f), (0x19d0, 0x19d9), (0x1a80, 0x1a89), (0x1a90, 0x1a99), (0x1b50, 0x1b59),
   (0x1bb0, 0x1bb9), (0x1c40, 0x1c49), (0x1c50, 0x1c59), (0xa620, 0xa629), (0xa8d0, 0xa8d9),
   (0xa900, 0xa909), (0xa9d0, 0xa9d9), (0xa9f0, 0xa9f9), (0xaa50, 0xaa59), (0xabf0, 0xabf9),
   (0xff10, 0xff19), (0x104a0, 0x104a9), (0x10d30, 0x10d39), (0x11066, 0x1106f),
   (0x110f0, 0x110f9), (0x11136, 0x1113f), (0x111d0, 0x111d9), (0x112f0, 0x112f9),
   (0x11450, 0x11459), (0x114d0, 0x114d9), (0x11650, 0x11659), (0x116c0, 0x116c9),
   (0x11730, 0x11739), (0x118e0, 0x118e9), (0x11950, 0x11959), (0x11c50, 0x11c59),
   (0x11d50, 0x11d59), (0x11da0, 0x11da9), (0x11f50, 0x11f59), (0x16a60, 0x16a69),
   (0x16ac0, 0x16ac9), (0x16b50, 0x16b59), (0x1d7ce, 0x1d7ff), (0x1e140, 0x1e149),
   (0x1e2f0, 0x1e2f9), (0x1e4f0, 0x1e4f9), (0x1e950, 0x1e959), (0x1fbf0, 0x1fbf9)]

/-- A decimal digit of any script. -/
def isDecimalDigit (c : Char) : Bool :=
  c.isDigit || (0x80 ≤ c.toNat && digitRuns.any fun (a, b) => a ≤ c.toNat && c.toNat ≤ b)

/-- The value of a run of ASCII digits; `none` if it is empty or holds anything else. -/
def digits? (cs : List Char) : Option Nat :=
  if cs.isEmpty || !cs.all Char.isDigit then none
  else some (cs.foldl (fun n c => n * 10 + (c.toNat - '0'.toNat)) 0)

/-- A number with an optional sign. -/
def signed? : List Char → Option Int
  | '-' :: r => (digits? r).map fun n => -(n : Int)
  | '+' :: r => (digits? r).map fun n => (n : Int)
  | r => (digits? r).map fun n => (n : Int)

/-- The number has this many bits at most, one of which tells the sign. -/
def fits (bits : Nat) (n : Int) : Bool :=
  let bound : Int := Nat.pow 2 (bits - 1)
  0 ≤ n + bound && n < bound

/-- A number that fits 64 bits. -/
def int64? (s : String) : Option Int := (signed? s.toList).filter (fits 64)

/-- A number that fits 32 bits. -/
def int32? (cs : List Char) : Option Int := (signed? cs).filter (fits 32)

end DiscoveryMetadata.Text
