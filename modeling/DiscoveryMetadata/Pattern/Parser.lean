import DiscoveryMetadata.Pattern.Basic
import DiscoveryMetadata.Text.Escape
/-
  Reading a pattern from its written form.

  The written form has literals, `.`, bracketed classes with ranges, nesting and set operations,
  escapes, groups, alternatives, repetitions and inline flags. Reading fails where the form is not
  complete or means nothing, such as an unclosed bracket or a repetition of nothing.

  Four things that are usual in patterns are left out, and a table with patterns of its own may
  hold them. A class by a property of characters (`\p` and `\P`) is refused. So is a repetition by a
  number above `repetitionLimit`, whatever is repeated; this stands for a limit on the size of what
  a pattern is made into, and there is none on how deep groups are nested. The flag `i` makes equal
  the two cases of ASCII letters only. The flag `u` is read but changes nothing, so that a pattern
  in which it is turned off has the classes of all scripts still.
-/
namespace DiscoveryMetadata.Pattern

/-- The flags in force at a place of a pattern. -/
structure Flags where
  anyCase : Bool := false
  dotAll : Bool := false
  multiLine : Bool := false
  verbose : Bool := false

namespace Flags

/-- The set as the flags read it. -/
def fold (f : Flags) (s : CharSet) : CharSet := if f.anyCase then .anyCase s else s

/-- Turns the flag written `c` on or off. -/
def set? (f : Flags) (on : Bool) (c : Char) : Option Flags :=
  if c = 'i' then some { f with anyCase := on }
  else if c = 's' then some { f with dotAll := on }
  else if c = 'm' then some { f with multiLine := on }
  else if c = 'x' then some { f with verbose := on }
  else if c = 'U' || c = 'u' || c = 'R' then some f
  else none

/-- Reads flags up to the `)` or `:` after them. -/
def read? : Flags → Bool → List Char → Option (Flags × Char × List Char)
  | _, _, [] => none
  | f, on, c :: r =>
    if c = ')' || c = ':' then some (f, c, r)
    else if c = '-' then if on then read? f false r else none
    else (f.set? on c).bind fun g => read? g on r

end Flags

namespace Parser

/-- What an escape stands for. -/
inductive Escaped where
  | char (c : Char)
  | set (s : CharSet)
  | anchor (a : Anchor)

/-- The character whose number is written in hexadecimal. -/
def hexChar? (cs : List Char) : Option Char :=
  if cs.isEmpty || 8 < cs.length then none
  else (Text.number? 16 8 cs).bind fun n => if n = 0 then some '\x00' else Text.charOfNumber? n

/-- A number of `width` digits, or of any number of digits in braces. -/
def hexEscape? (width : Nat) : List Char → Option (Escaped × List Char)
  | '\x7b' :: r =>
    match r.dropWhile (· != '\x7d') with
    | _ :: rest => (hexChar? (r.takeWhile (· != '\x7d'))).map fun c => (.char c, rest)
    | [] => none
  | cs =>
    if cs.length < width then none
    else (hexChar? (cs.take width)).map fun c => (.char c, cs.drop width)

/-- Reads what follows a backslash. -/
def escape? : List Char → Option (Escaped × List Char)
  | [] => none
  | c :: r =>
    if c = 'n' then some (.char '\n', r)
    else if c = 't' then some (.char '\t', r)
    else if c = 'r' then some (.char '\r', r)
    else if c = 'f' then some (.char '\x0c', r)
    else if c = 'v' then some (.char '\x0b', r)
    else if c = 'a' then some (.char '\x07', r)
    else if c = 'd' then some (.set .digit, r)
    else if c = 'D' then some (.set (.compl .digit), r)
    else if c = 's' then some (.set .space, r)
    else if c = 'S' then some (.set (.compl .space), r)
    else if c = 'w' then some (.set .word, r)
    else if c = 'W' then some (.set (.compl .word), r)
    else if c = 'x' then hexEscape? 2 r
    else if c = 'u' then hexEscape? 4 r
    else if c = 'U' then hexEscape? 8 r
    else if c = 'b' then some (.anchor .wordBoundary, r)
    else if c = 'B' then some (.anchor .noWordBoundary, r)
    else if c = 'A' then some (.anchor .textStart, r)
    else if c = 'z' then some (.anchor .textEnd, r)
    else if c = '<' then some (.anchor .wordStart, r)
    else if c = '>' then some (.anchor .wordEnd, r)
    else if c.toNat < 128 && !c.isAlphanum then some (.char c, r)
    else none

/-- The ASCII class of this name. -/
def asciiClass? (name : String) : Option CharSet :=
  let upper := CharSet.range 'A' 'Z'
  let lower := CharSet.range 'a' 'z'
  let decimal := CharSet.range '0' '9'
  let graph := CharSet.range '!' '~'
  let alpha := upper.union lower
  match name with
  | "alnum" => some (alpha.union decimal)
  | "alpha" => some alpha
  | "ascii" => some (.range '\x00' '\x7f')
  | "blank" => some (.union (.single '\t') (.single ' '))
  | "cntrl" => some (.union (.range '\x00' '\x1f') (.single '\x7f'))
  | "digit" => some decimal
  | "graph" => some graph
  | "lower" => some lower
  | "print" => some (.range ' ' '~')
  | "punct" => some (graph.diff (alpha.union decimal))
  | "space" => some (.union (.range '\t' '\r') (.single ' '))
  | "upper" => some upper
  | "word" => some ((alpha.union decimal).union (.single '_'))
  | "xdigit" => some (decimal.union (.union (.range 'a' 'f') (.range 'A' 'F')))
  | _ => none

/-- A named class such as `[:alpha:]`, given from after its opening bracket. -/
def named? : List Char → Option (CharSet × List Char)
  | ':' :: r =>
    let (negated, r) := match r with
      | '^' :: r => (true, r)
      | r => (false, r)
    match r.dropWhile Char.isAlpha with
    | ':' :: ']' :: rest =>
      (asciiClass? (String.ofList (r.takeWhile Char.isAlpha))).map fun s =>
        (if negated then .compl s else s, rest)
    | _ => none
  | _ => none

/-- A character of a class, or a class that an escape stands for. -/
def classAtom? : List Char → Option (Escaped × List Char)
  | '\\' :: r =>
    match escape? r with
    | some (.anchor _, _) | none => none
    | e => e
  | c :: r => some (.char c, r)
  | [] => none

/-- One member of a class: a character, a range or a class. -/
def classItem? (cs : List Char) : Option (CharSet × List Char) :=
  match classAtom? cs with
  | none | some (.anchor _, _) => none
  | some (.set s, r) =>
    match r with
    | '-' :: x :: _ => if x = ']' || x = '-' then some (s, r) else none
    | _ => some (s, r)
  | some (.char a, r) =>
    match r with
    | '-' :: x :: rest =>
      if x = ']' || x = '-' then some (.single a, r)
      else match classAtom? (x :: rest) with
        | some (.char b, rest) => if a ≤ b then some (.range a b, rest) else none
        | _ => none
    | _ => some (.single a, r)

/-- The operation of two sets that is written at the beginning of the text. -/
def setOperation? : List Char → Option ((CharSet → CharSet → CharSet) × List Char)
  | '&' :: '&' :: r => some (.inter, r)
  | '-' :: '-' :: r => some (.diff, r)
  | '~' :: '~' :: r => some (.symmDiff, r)
  | _ => none

mutual
/-- Reads a class from after its opening bracket. -/
def bracket : Nat → List Char → Option (CharSet × List Char)
  | 0, _ => none
  | fuel + 1, cs =>
    let (negated, cs) := match cs with
      | '^' :: r => (true, r)
      | r => (false, r)
    let dashes := cs.takeWhile (· == '-')
    let cs := cs.dropWhile (· == '-')
    let start := if dashes.isEmpty then CharSet.none else .single '-'
    let (start, cs) := match cs with
      | ']' :: r => if dashes.isEmpty then (CharSet.single ']', r) else (start, cs)
      | _ => (start, cs)
    (bracketItems fuel (fun s => s) start cs).map fun (s, r) =>
      (if negated then .compl s else s, r)

/-- Reads the members of a class; `before` combines them with the sets before the last operation
and `acc` holds those read since. -/
def bracketItems : Nat → (CharSet → CharSet) → CharSet → List Char → Option (CharSet × List Char)
  | 0, _, _, _ => none
  | fuel + 1, before, acc, cs =>
    match cs with
    | [] => none
    | ']' :: r => some (before acc, r)
    | '[' :: r =>
      match named? r with
      | some (s, r) => bracketItems fuel before (acc.union s) r
      | none =>
        match bracket fuel r with
        | some (s, r) => bracketItems fuel before (acc.union s) r
        | none => none
    | cs =>
      match setOperation? cs with
      | some (op, r) => bracketItems fuel (op (before acc)) .none r
      | none =>
        match classItem? cs with
        | some (s, r) => bracketItems fuel before (acc.union s) r
        | none => none
end

/-- The text without the blanks and remarks that verbose patterns may hold. -/
def skipRemarks (f : Flags) : Nat → List Char → List Char
  | 0, cs => cs
  | fuel + 1, cs =>
    if f.verbose then
      match cs.dropWhile Text.isSpace with
      | '#' :: r => skipRemarks f fuel (r.dropWhile (· != '\n'))
      | r => r
    else cs

/-- The bounds of a repetition, from after its opening brace; none for no upper bound. -/
def bounds? (cs : List Char) : Option (Nat × Option Nat × List Char) :=
  let blankless := fun (cs : List Char) => cs.dropWhile Text.isSpace
  let number := fun (cs : List Char) => match cs.takeWhile Char.isDigit with
    | [] => none
    | ds => (Text.number? 10 9 ds).map fun n => (n, blankless (cs.dropWhile Char.isDigit))
  match number (blankless cs) with
  | none => none
  | some (low, '\x7d' :: r) => some (low, some low, r)
  | some (low, ',' :: r) =>
    match blankless r with
    | '\x7d' :: r => some (low, none, r)
    | r =>
      match number r with
      | some (high, '\x7d' :: r) => if low ≤ high then some (low, some high, r) else none
      | _ => none
  | _ => none

/-- The most repetitions that a pattern may ask for by number. -/
def repetitionLimit : Nat := 10000

/-- The text without the mark that makes a repetition prefer less; what is found stays the same. -/
def dropLazy : List Char → List Char
  | '?' :: r => r
  | r => r

/-- Applies the repetitions that follow a pattern. -/
def repeated (f : Flags) : Nat → Regex → List Char → Option (Regex × List Char)
  | 0, _, _ => none
  | fuel + 1, a, cs =>
    match skipRemarks f fuel cs with
    | '*' :: r => repeated f fuel (.star a) (dropLazy r)
    | '+' :: r => repeated f fuel (a.andThen (.star a)) (dropLazy r)
    | '?' :: r => repeated f fuel (a.either .empty) (dropLazy r)
    | '\x7b' :: r =>
      match bounds? r with
      | none => none
      | some (low, high, r) =>
        if repetitionLimit < high.getD low then none
        else
          let rest := match high with
            | some h => a.upTo (h - low)
            | none => .star a
          repeated f fuel ((a.times low).andThen rest) (dropLazy r)
    | cs => some (a, cs)

/-- The flags and the rest of the text where a group begins, from after its parenthesis; the flag
says whether the group has a body. -/
def groupStart? (f : Flags) : List Char → Option (Flags × Bool × List Char)
  | '?' :: 'P' :: '<' :: r | '?' :: '<' :: r =>
    match r.takeWhile (· != '>'), r.dropWhile (· != '>') with
    | c :: name, _ :: rest =>
      if (c.isAlpha || c = '_') && name.all fun x => x.isAlphanum || x = '_' || x = '.' then
        some (f, true, rest)
      else none
    | _, _ => none
  | '?' :: r => (f.read? true r).map fun (g, c, rest) => (g, c == ':', rest)
  | r => some (f, true, r)

mutual
/-- Reads alternatives up to a `)` or the end; gives the flags in force there as well. -/
def alternatives : Nat → Flags → List Char → Option (Regex × Flags × List Char)
  | 0, _, _ => none
  | fuel + 1, f, cs =>
    match sequence fuel f .empty cs with
    | none => none
    | some (a, f, '|' :: r) =>
      (alternatives fuel f r).map fun (b, f, r) => (a.either b, f, r)
    | some r => some r

/-- Reads parts that follow each other; `acc` holds those read so far. -/
def sequence : Nat → Flags → Regex → List Char → Option (Regex × Flags × List Char)
  | 0, _, _, _ => none
  | fuel + 1, f, acc, cs =>
    let go := fun a r => match repeated f fuel a r with
      | some (a, r) => sequence fuel f (acc.andThen a) r
      | none => none
    match skipRemarks f fuel cs with
    | [] => some (acc, f, [])
    | ')' :: r => some (acc, f, ')' :: r)
    | '|' :: r => some (acc, f, '|' :: r)
    | '(' :: r =>
      match groupStart? f r with
      | none => none
      | some (g, false, r) => sequence fuel g acc r
      | some (g, true, r) =>
        match alternatives fuel g r with
        | some (a, _, ')' :: r) => go a r
        | _ => none
    | '[' :: r =>
      match bracket fuel r with
      | some (s, r) => go (.one (f.fold s)) r
      | none => none
    | '\\' :: r =>
      match escape? r with
      | some (.char c, r) => go (.one (f.fold (.single c))) r
      | some (.set s, r) => go (.one s) r
      | some (.anchor a, r) => go (.anchor a) r
      | none => none
    | '.' :: r => go (.one (if f.dotAll then .compl .none else .notNewline)) r
    | '^' :: r => go (.anchor (if f.multiLine then .lineStart else .textStart)) r
    | '$' :: r => go (.anchor (if f.multiLine then .lineEnd else .textEnd)) r
    | '*' :: _ | '+' :: _ | '?' :: _ | '\x7b' :: _ => none
    | c :: r => go (.one (f.fold (.single c))) r
end

end Parser

/-- The pattern that a text writes; every step reads at least one character or ends a level, so
twice the length of the text bounds the steps. -/
def Regex.ofText? (text : String) : Option Regex :=
  let cs := text.toList
  match Parser.alternatives (2 * cs.length + 4) {} cs with
  | some (r, _, []) => some r
  | _ => none

end DiscoveryMetadata.Pattern
