/-
  Characters that markup reserves, written as references, and references read back.

  Writing replaces a reserved character by the reference that names it. Reading knows the five
  named references and the numeric ones, of at most seven decimal or six hexadecimal digits; a
  numeric reference names any character but U+0000.
-/
namespace DiscoveryMetadata.Text

/-- The reference that stands for a reserved character. -/
def reference : Char → Option String
  | '<' => some "&lt;"
  | '>' => some "&gt;"
  | '&' => some "&amp;"
  | '\'' => some "&apos;"
  | '"' => some "&quot;"
  | _ => none

/-- The text with every reserved character that satisfies `p` written as its reference. -/
def escapeWhere (p : Char → Bool) : List Char → List Char
  | [] => []
  | c :: r =>
    match reference c with
    | some name => if p c then name.toList ++ escapeWhere p r else c :: escapeWhere p r
    | none => c :: escapeWhere p r

/-- The text as it is written between quotes. -/
def escape (s : String) : String := String.ofList (escapeWhere (fun _ => true) s.toList)

/-- The text as it is written between tags, where quotes are free. -/
def escapeContent (s : String) : String :=
  String.ofList (escapeWhere (fun c => c != '\'' && c != '"') s.toList)

/-- The value of a digit in base `base`, which is 10 or 16. -/
def digitValue? (base : Nat) (c : Char) : Option Nat :=
  let n := c.toNat
  let v := if c.isDigit then n - 48
    else if 97 ≤ n && n ≤ 102 then n - 87
    else if 65 ≤ n && n ≤ 70 then n - 55
    else 16
  if v < base then some v else none

/-- The character that a number names; neither U+0000 nor a surrogate is one. -/
def charOfNumber? (n : Nat) : Option Char :=
  if h : n.isValidChar then if n = 0 then none else some (Char.ofNatAux n h) else none

/-- The number written by at most `most` digits in base `base`. -/
def number? (base most : Nat) (cs : List Char) : Option Nat :=
  if most < cs.length then none
  else cs.foldlM (fun n c => (digitValue? base c).map fun d => n * base + d) 0

/-- The character that a reference names, given what stands between `&` and `;`. -/
def referent? : List Char → Option Char
  | ['l', 't'] => some '<'
  | ['g', 't'] => some '>'
  | ['a', 'm', 'p'] => some '&'
  | ['a', 'p', 'o', 's'] => some '\''
  | ['q', 'u', 'o', 't'] => some '"'
  | '#' :: 'x' :: r => number? 16 6 r >>= charOfNumber?
  | '#' :: r => number? 10 7 r >>= charOfNumber?
  | _ => none

/-- Reads references; `pending` holds, last first, what was read of an unfinished one. -/
def unescapeFrom : Option (List Char) → List Char → Option (List Char)
  | none, [] => some []
  | some _, [] => none
  | none, c :: r => if c = '&' then unescapeFrom (some []) r else (unescapeFrom none r).map (c :: ·)
  | some pending, c :: r =>
    if c = ';' then
      (referent? pending.reverse).bind fun x => (unescapeFrom none r).map (x :: ·)
    else if c = '&' then none
    else unescapeFrom (some (c :: pending)) r

/-- The text with its references replaced by what they name; `none` if one is unknown or open. -/
def unescape (cs : List Char) : Option (List Char) := unescapeFrom none cs

end DiscoveryMetadata.Text
