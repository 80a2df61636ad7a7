import DiscoveryMetadata.Data.Json
/-
  The strings of TOML: basic strings with escapes and literal strings without, each on one line or
  over several.
-/
namespace DiscoveryMetadata.Data.Toml

/-- A blank that does not end a line. -/
def isBlank (c : Char) : Bool := c == ' ' || c == '\t'

/-- A character that may stand unescaped in strings and comments. -/
def isPrintable (c : Char) : Bool := c == '\t' || (0x20 ≤ c.toNat && c.toNat != 0x7F)

/-- The character that an escape of one letter stands for. -/
def letter? : Char → Option Char
  | '"' => some '"'
  | '\\' => some '\\'
  | 'b' => some '\x08'
  | 'f' => some '\x0c'
  | 'n' => some '\n'
  | 'r' => some '\r'
  | 't' => some '\t'
  | _ => none

/-- The character whose number some hexadecimal digits write. -/
def numbered? (cs : List Char) : Option Char := (Json.hex? cs).bind Json.charOf?

/-- Reads a basic string from after its opening quote. -/
def basic? (done : List Char) : List Char → Option (String × List Char)
  | [] => none
  | '"' :: r => some (String.ofList done.reverse, r)
  | '\\' :: 'u' :: a :: b :: c :: d :: r =>
    match numbered? [a, b, c, d] with
    | some x => basic? (x :: done) r
    | none => none
  | '\\' :: 'U' :: a :: b :: c :: d :: e :: f :: g :: h :: r =>
    match numbered? [a, b, c, d, e, f, g, h] with
    | some x => basic? (x :: done) r
    | none => none
  | '\\' :: c :: r =>
    match letter? c with
    | some x => basic? (x :: done) r
    | none => none
  | c :: r => if isPrintable c && c != '\\' then basic? (c :: done) r else none

/-- Reads a literal string from after its opening quote. -/
def literal? (done : List Char) : List Char → Option (String × List Char)
  | [] => none
  | '\'' :: r => some (String.ofList done.reverse, r)
  | c :: r => if isPrintable c then literal? (c :: done) r else none

/-- The end of a string over several lines: of the quotes behind its closing mark, up to two belong
to the string. -/
def closed (mark : Char) (done rest : List Char) : String × List Char :=
  let extra := min 2 (rest.takeWhile (· == mark)).length
  (String.ofList (List.replicate extra mark ++ done).reverse, rest.drop extra)

/-- The text begins with the end of a line. -/
def atLineEnd : List Char → Bool
  | '\n' :: _ => true
  | '\r' :: '\n' :: _ => true
  | _ => false

/-- Reads a basic string over several lines from after its opening mark. After a backslash at the
end of a line, all blanks and ends of lines are passed over. -/
def longBasic? (passing : Bool) (done : List Char) : List Char → Option (String × List Char)
  | [] => none
  | '"' :: '"' :: '"' :: r => some (closed '"' done r)
  | '\r' :: '\n' :: r => longBasic? passing (if passing then done else '\n' :: done) r
  | '\n' :: r => longBasic? passing (if passing then done else '\n' :: done) r
  | '\\' :: 'u' :: a :: b :: c :: d :: r =>
    match numbered? [a, b, c, d] with
    | some x => longBasic? false (x :: done) r
    | none => none
  | '\\' :: 'U' :: a :: b :: c :: d :: e :: f :: g :: h :: r =>
    match numbered? [a, b, c, d, e, f, g, h] with
    | some x => longBasic? false (x :: done) r
    | none => none
  | '\\' :: c :: r =>
    if atLineEnd ((c :: r).dropWhile isBlank) then longBasic? true done (c :: r)
    else match letter? c with
      | some x => longBasic? false (x :: done) r
      | none => none
  | c :: r =>
    if passing && isBlank c then longBasic? true done r
    else if isPrintable c && c != '\\' then longBasic? false (c :: done) r
    else none

/-- Reads a literal string over several lines from after its opening mark. -/
def longLiteral? (done : List Char) : List Char → Option (String × List Char)
  | [] => none
  | '\'' :: '\'' :: '\'' :: r => some (closed '\'' done r)
  | '\r' :: '\n' :: r => longLiteral? ('\n' :: done) r
  | c :: r => if isPrintable c || c == '\n' then longLiteral? (c :: done) r else none

/-- The text without the end of a line that it begins with. -/
def dropLineEnd : List Char → List Char
  | '\n' :: r => r
  | '\r' :: '\n' :: r => r
  | r => r

/-- Reads a string of any form. -/
def string? : List Char → Option (String × List Char)
  | '"' :: '"' :: '"' :: r => longBasic? false [] (dropLineEnd r)
  | '"' :: r => basic? [] r
  | '\'' :: '\'' :: '\'' :: r => longLiteral? [] (dropLineEnd r)
  | '\'' :: r => literal? [] r
  | _ => none

end DiscoveryMetadata.Data.Toml
