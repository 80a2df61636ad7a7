import DiscoveryMetadata.Data.Toml.Number
import DiscoveryMetadata.Data.Toml.Quoted
import DiscoveryMetadata.Data.Toml.Table
/-
  Reading TOML documents: keys, values, and the lines that put them into tables.
-/
namespace DiscoveryMetadata.Data.Toml

/-- The text after blanks on its line. -/
def skip (cs : List Char) : List Char := cs.dropWhile isBlank

/-- A character of a key that is not quoted. -/
def isBare (c : Char) : Bool := c.isAlphanum || c == '-' || c == '_'

/-- Reads one part of a key. -/
def part? : List Char → Option (String × List Char)
  | '"' :: r => basic? [] r
  | '\'' :: r => literal? [] r
  | cs =>
    let bare := cs.takeWhile isBare
    if bare.isEmpty then none else some (String.ofList bare, cs.dropWhile isBare)

/-- How deep values may nest, and how many parts a key may have. -/
def depthLimit : Nat := 79

/-- Reads a key of one or more parts with dots between them, at most as many as the first argument
says; gives the parts before the last, the last one, and what follows with its blanks passed
over. -/
def key? : Nat → List Char → Option (List String × String × List Char)
  | 0, _ => none
  | n + 1, cs => do
    let (name, rest) ← part? (skip cs)
    match skip rest with
    | '.' :: r =>
      let (path, last, rest) ← key? n r
      return (name :: path, last, rest)
    | rest => return ([], name, rest)

/-- Passes over a comment up to the end of its line. -/
def skipComment : List Char → List Char
  | '#' :: r => r.dropWhile isPrintable
  | r => r

/-- Passes over blanks, comments and ends of lines. -/
def skipLines : Nat → List Char → List Char
  | 0, cs => cs
  | n + 1, cs =>
    match skip cs with
    | '\n' :: r => skipLines n r
    | '\r' :: '\n' :: r => skipLines n r
    | '#' :: r => skipLines n (r.dropWhile isPrintable)
    | r => r

/-- Passes over the rest of a line: blanks, a comment, and the end of the line or of the text. -/
def lineEnd? (cs : List Char) : Option (List Char) :=
  match skipComment (skip cs) with
  | [] => some []
  | '\n' :: r => some r
  | '\r' :: '\n' :: r => some r
  | _ => none

mutual

/-- Reads a value that may hold `depth` levels of others. Each step reads at least one character,
so the number of characters is enough of a bound. -/
def value? : Nat → Nat → List Char → Option (Value × List Char)
  | 0, _, _ => none
  | n + 1, depth, cs =>
    match depth, cs with
    | 0, '[' :: _ | 0, '{' :: _ => none
    | depth + 1, '[' :: r => items? n depth [] (skipLines n r)
    | depth + 1, '{' :: r =>
      match skip r with
      | '}' :: r => some (.record [], r)
      | r => pairs? n depth [] r
    | _, 't' :: 'r' :: 'u' :: 'e' :: r => some (.truth true, r)
    | _, 'f' :: 'a' :: 'l' :: 's' :: 'e' :: r => some (.truth false, r)
    | _, '"' :: _ | _, '\'' :: _ => (string? cs).map fun (s, rest) => (.text s, rest)
    | _, _ => number? cs

/-- Reads the items of a list up to and with its end; `done` holds those so far, last first. -/
def items? : Nat → Nat → List Value → List Char → Option (Value × List Char)
  | 0, _, _, _ => none
  | n + 1, depth, done, cs =>
    match cs with
    | ']' :: r => some (.list done.reverse, r)
    | _ =>
      match value? n depth cs with
      | none => none
      | some (v, rest) =>
        match skipLines n rest with
        | ',' :: r => items? n depth (v :: done) (skipLines n r)
        | ']' :: r => some (.list (v :: done).reverse, r)
        | _ => none

/-- Reads the entries of a table on one line up to and with its end. -/
def pairs? : Nat → Nat → Entries → List Char → Option (Value × List Char)
  | 0, _, _, _ => none
  | n + 1, depth, done, cs =>
    match key? depthLimit cs with
    | some (path, name, '=' :: r) =>
      match value? n depth (skip r) with
      | none => none
      | some (v, rest) =>
        match done.addValue? path name v with
        | none => none
        | some done =>
          match skip rest with
          | ',' :: r => pairs? n depth done r
          | '}' :: r => some (.record (entriesToValues done), r)
          | _ => none
    | _ => none

end

/-- What one line says. -/
inductive Statement where
  | openTable (path : List String) (name : String)
  | openNext (path : List String) (name : String)
  | value (path : List String) (name : String) (v : Value)

/-- Reads a line that says something, from its first character that is no blank. -/
def statement? (n : Nat) (cs : List Char) : Option (Statement × List Char) := do
  match cs with
  | '[' :: '[' :: r =>
    let (path, name, rest) ← key? depthLimit r
    match rest with
    | ']' :: ']' :: r => return (.openNext path name, ← lineEnd? r)
    | _ => none
  | '[' :: r =>
    let (path, name, rest) ← key? depthLimit r
    match rest with
    | ']' :: r => return (.openTable path name, ← lineEnd? r)
    | _ => none
  | _ =>
    let (path, name, rest) ← key? depthLimit cs
    match rest with
    | '=' :: r =>
      let (v, rest) ← value? n depthLimit (skip r)
      return (.value path name v, ← lineEnd? rest)
    | _ => none

/-- The document after one more statement, and the path of the table that is then open. -/
def Statement.apply? (s : Statement) (current : List String) (es : Entries) :
    Option (List String × Entries) :=
  match s with
  | openTable path name => (es.openTable? path name).map fun es => (path ++ [name], es)
  | openNext path name => (es.openNext? path name).map fun es => (path ++ [name], es)
  | value path name v =>
    (es.change? false (fun _ es => es.addValue? path name v) .header current).map fun es =>
      (current, es)

/-- Reads the lines of a document. -/
def lines? : Nat → List String → Entries → List Char → Option Entries
  | 0, _, _, _ => none
  | n + 1, current, es, cs =>
    match skipLines n cs with
    | [] => some es
    | r => do
      let (s, rest) ← statement? n r
      let (current, es) ← s.apply? current es
      lines? n current es rest

/-- The record that a document writes. A mark of the byte order at its head is passed over. -/
def ofText? (s : String) : Option Value :=
  let cs := match s.toList with
    | '\uFEFF' :: r => r
    | r => r
  (lines? (cs.length + 2) [] [] cs).map fun es => .record (entriesToValues es)

end DiscoveryMetadata.Data.Toml
