import DiscoveryMetadata.Data.Value
import DiscoveryMetadata.Text.Basic
import DiscoveryMetadata.Text.Escape
/-
  Values as JSON: reading a text, and writing a value on one line or spread over several.

  The reader takes the strict grammar: no comma after the last item, no leading zeros, no control
  characters in strings, and half of a surrogate pair only beside the other half.
-/
namespace DiscoveryMetadata.Data.Json

open Text (isXmlSpace)

/-- The rest of a text after blanks. -/
def skip (cs : List Char) : List Char := cs.dropWhile isXmlSpace

/-- The character that an escape of one letter stands for. -/
def letter? : Char → Option Char
  | '"' => some '"'
  | '\\' => some '\\'
  | '/' => some '/'
  | 'b' => some '\x08'
  | 'f' => some '\x0c'
  | 'n' => some '\n'
  | 'r' => some '\r'
  | 't' => some '\t'
  | _ => none

/-- The number written by hexadecimal digits. -/
def hex? (cs : List Char) : Option Nat := Text.number? 16 8 cs

/-- The character with this number. -/
def charOf? (n : Nat) : Option Char :=
  if h : n.isValidChar then some (Char.ofNatAux n h) else none

/-- The character that two halves of a surrogate pair stand for. -/
def pair? (high low : Nat) : Option Char :=
  if 0xD800 ≤ high && high < 0xDC00 && 0xDC00 ≤ low && low < 0xE000 then
    charOf? (0x10000 + (high - 0xD800) * 0x400 + (low - 0xDC00))
  else none

/-- Reads a string from after its opening quote; `done` holds the characters so far, last first. -/
def string? (done : List Char) : List Char → Option (String × List Char)
  | [] => none
  | '"' :: r => some (String.ofList done.reverse, r)
  | '\\' :: 'u' :: a :: b :: c :: d :: r =>
    match hex? [a, b, c, d] with
    | none => none
    | some n =>
      match charOf? n with
      | some x => string? (x :: done) r
      | none =>
        match r with
        | '\\' :: 'u' :: e :: f :: g :: h :: r =>
          match (hex? [e, f, g, h]).bind (pair? n) with
          | some x => string? (x :: done) r
          | none => none
        | _ => none
  | '\\' :: c :: r =>
    match letter? c with
    | some x => string? (x :: done) r
    | none => none
  | c :: r => if c.toNat < 0x20 || c == '\\' then none else string? (c :: done) r

/-- A run of digits, at least one, and what follows it. -/
def digits? (cs : List Char) : Option (List Char × List Char) :=
  let run := cs.takeWhile Char.isDigit
  if run.isEmpty then none else some (run, cs.dropWhile Char.isDigit)

/-- The whole part of a number, which has no leading zeros. -/
def whole? : List Char → Option (List Char × List Char)
  | '0' :: r => if r.head?.any Char.isDigit then none else some (['0'], r)
  | cs => digits? cs

/-- The fraction of a number, if there is one, with its point. -/
def fraction? : List Char → Option (List Char × List Char)
  | '.' :: r => (digits? r).map fun (run, rest) => ('.' :: run, rest)
  | cs => some ([], cs)

/-- The exponent of a number, if there is one, with its letter and sign. -/
def exponent? (cs : List Char) : Option (List Char × List Char) :=
  match cs with
  | c :: r =>
    if c == 'e' || c == 'E' then
      match r with
      | '+' :: r => (digits? r).map fun (run, rest) => (c :: '+' :: run, rest)
      | '-' :: r => (digits? r).map fun (run, rest) => (c :: '-' :: run, rest)
      | r => (digits? r).map fun (run, rest) => (c :: run, rest)
    else some ([], cs)
  | [] => some ([], [])

/-- Reads a number. -/
def number? (cs : List Char) : Option (Value × List Char) := do
  let (minus, cs) := match cs with
    | '-' :: r => (['-'], r)
    | r => ([], r)
  let (w, cs) ← whole? cs
  let (f, cs) ← fraction? cs
  let (e, cs) ← exponent? cs
  return (.number (String.ofList (minus ++ w ++ f ++ e)), cs)

mutual

/-- Reads a value. Each step reads at least one character, so the number of characters is enough
of a bound. -/
def value? : Nat → List Char → Option (Value × List Char)
  | 0, _ => none
  | n + 1, cs =>
    match skip cs with
    | '"' :: r => (string? [] r).map fun (s, rest) => (.text s, rest)
    | '[' :: r =>
      match skip r with
      | ']' :: r => some (.list [], r)
      | r => (items? n [] r).map fun (vs, rest) => (.list vs, rest)
    | '{' :: r =>
      match skip r with
      | '}' :: r => some (.record [], r)
      | r => (members? n [] r).map fun (es, rest) => (.record es, rest)
    | 't' :: 'r' :: 'u' :: 'e' :: r => some (.truth true, r)
    | 'f' :: 'a' :: 'l' :: 's' :: 'e' :: r => some (.truth false, r)
    | 'n' :: 'u' :: 'l' :: 'l' :: r => some (.null, r)
    | r => number? r

/-- Reads the items of a list up to and with its end; `done` holds those so far, last first. -/
def items? : Nat → List Value → List Char → Option (List Value × List Char)
  | 0, _, _ => none
  | n + 1, done, cs =>
    match value? n cs with
    | none => none
    | some (v, rest) =>
      match skip rest with
      | ',' :: r => items? n (v :: done) r
      | ']' :: r => some ((v :: done).reverse, r)
      | _ => none

/-- Reads the entries of a record up to and with its end; `done` holds those so far, last first. -/
def members? : Nat → List (String × Value) → List Char →
    Option (List (String × Value) × List Char)
  | 0, _, _ => none
  | n + 1, done, cs =>
    match skip cs with
    | '"' :: r =>
      match string? [] r with
      | none => none
      | some (name, rest) =>
        match skip rest with
        | ':' :: r =>
          match value? n r with
          | none => none
          | some (v, rest) =>
            match skip rest with
            | ',' :: r => members? n ((name, v) :: done) r
            | '}' :: r => some (((name, v) :: done).reverse, r)
            | _ => none
        | _ => none
    | _ => none

end

/-- The value that a text writes. -/
def ofText? (s : String) : Option Value :=
  let cs := s.toList
  match value? (cs.length + 1) cs with
  | some (v, rest) => if (skip rest).isEmpty then some v else none
  | none => none

/-- Two hexadecimal digits of a number below 256. -/
def twoDigits (n : Nat) : List Char := [Nat.digitChar (n / 16), Nat.digitChar (n % 16)]

/-- A character as it is written in a string. -/
def escapeChar (c : Char) : List Char :=
  match c with
  | '"' => ['\\', '"']
  | '\\' => ['\\', '\\']
  | '\x08' => ['\\', 'b']
  | '\x0c' => ['\\', 'f']
  | '\n' => ['\\', 'n']
  | '\r' => ['\\', 'r']
  | '\t' => ['\\', 't']
  | c => if c.toNat < 0x20 then ['\\', 'u', '0', '0'] ++ twoDigits c.toNat else [c]

/-- A text as a string. -/
def quote (s : String) : String :=
  "\"" ++ String.ofList (s.toList.flatMap escapeChar) ++ "\""

mutual

/-- A value on one line. -/
def compact : Value → String
  | .null => "null"
  | .truth b => if b then "true" else "false"
  | .number l => l
  | .text s => quote s
  | .list vs => "[" ++ ",".intercalate (compactItems vs) ++ "]"
  | .record es => "\x7b" ++ ",".intercalate (compactEntries es) ++ "\x7d"

/-- The items of a list, each on one line. -/
def compactItems : List Value → List String
  | [] => []
  | v :: r => compact v :: compactItems r

/-- The entries of a record, each on one line. -/
def compactEntries : List (String × Value) → List String
  | [] => []
  | (name, v) :: r => (quote name ++ ":" ++ compact v) :: compactEntries r

end

/-- Lines between two brackets, separated by commas and indented one step more than the brackets;
nothing at all stands between the brackets where there are no lines. -/
def block (indent opening closing : String) (lines : List String) : String :=
  if lines.isEmpty then opening ++ closing
  else opening ++ "\n" ++ ",\n".intercalate (lines.map (indent ++ "  " ++ ·)) ++ "\n" ++ indent ++
    closing

mutual

/-- A value over several lines, all but the first beginning with an indent. -/
def spread (indent : String) : Value → String
  | .list vs => block indent "[" "]" (spreadItems (indent ++ "  ") vs)
  | .record es => block indent "\x7b" "\x7d" (spreadEntries (indent ++ "  ") es)
  | v => compact v

/-- The items of a list, each over several lines. -/
def spreadItems (indent : String) : List Value → List String
  | [] => []
  | v :: r => spread indent v :: spreadItems indent r

/-- The entries of a record, each over several lines. -/
def spreadEntries (indent : String) : List (String × Value) → List String
  | [] => []
  | (name, v) :: r => (quote name ++ ": " ++ spread indent v) :: spreadEntries indent r

end

end DiscoveryMetadata.Data.Json
