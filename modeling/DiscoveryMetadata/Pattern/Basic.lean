import DiscoveryMetadata.Text.Basic
import DiscoveryMetadata.Text.Word
/-
  Patterns and the texts they find.

  A pattern is put together of sets of characters, as bracketed classes describe them. Matching is by
  partial derivatives: after each character a pattern is replaced by the patterns that can be left
  of it to match, without repetitions among them. The conditions on a place, such as the start of
  the text, look at the characters on both sides of it, so nullability is asked of a pattern at a
  place.
-/
namespace DiscoveryMetadata.Pattern

/-- A set of characters. -/
inductive CharSet where
  | range (low high : Char)
  | digit
  | space
  | word
  | none
  | union (a b : CharSet)
  | inter (a b : CharSet)
  | compl (a : CharSet)
  /-- The characters of which one case form is in the set. -/
  | anyCase (a : CharSet)
  deriving DecidableEq, Inhabited

namespace CharSet

/-- The set of one character. -/
def single (c : Char) : CharSet := range c c

/-- The characters in `a` but not in `b`. -/
def diff (a b : CharSet) : CharSet := inter a (compl b)

/-- The characters in one of the two sets but not in both. -/
def symmDiff (a b : CharSet) : CharSet := union (diff a b) (diff b a)

/-- The characters that are not the end of a line. -/
def notNewline : CharSet := compl (single '\n')

/-- The character is in the set. -/
def contains : CharSet → Char → Bool
  | range a b, c => a ≤ c && c ≤ b
  | digit, c => Text.isDecimalDigit c
  | space, c => Text.isSpace c
  | word, c => Text.isWordChar c
  | none, _ => false
  | union a b, c => a.contains c || b.contains c
  | inter a b, c => a.contains c && b.contains c
  | compl a, c => !a.contains c
  | anyCase a, c => a.contains c || a.contains c.toLower || a.contains c.toUpper

end CharSet

/-- The characters before and after a place in a text. -/
structure Place where
  before : Option Char
  after : Option Char

namespace Place

/-- One side of the place belongs to a word and the other does not. -/
def isWordBoundary (p : Place) : Bool :=
  p.before.any Text.isWordChar != p.after.any Text.isWordChar

end Place

/-- A condition on a place. -/
inductive Anchor where
  | textStart
  | textEnd
  | lineStart
  | lineEnd
  | wordBoundary
  | noWordBoundary
  | wordStart
  | wordEnd
  deriving DecidableEq

namespace Anchor

/-- The condition holds at the place. -/
def holds (p : Place) : Anchor → Bool
  | textStart => p.before.isNone
  | textEnd => p.after.isNone
  | lineStart => p.before.isNone || p.before == some '\n'
  | lineEnd => p.after.isNone || p.after == some '\n'
  | wordBoundary => p.isWordBoundary
  | noWordBoundary => !p.isWordBoundary
  | wordStart => !p.before.any Text.isWordChar && p.after.any Text.isWordChar
  | wordEnd => p.before.any Text.isWordChar && !p.after.any Text.isWordChar

end Anchor

/-- A pattern. -/
inductive Regex where
  /-- Matches nothing. -/
  | never
  /-- Matches the empty text. -/
  | empty
  | anchor (a : Anchor)
  | one (s : CharSet)
  | seq (a b : Regex)
  | alt (a b : Regex)
  | star (a : Regex)
  deriving DecidableEq, Inhabited

namespace Regex

/-- The pattern matches the empty text at the place. -/
def nullable (p : Place) : Regex → Bool
  | never => false
  | empty => true
  | anchor a => a.holds p
  | one _ => false
  | seq a b => a.nullable p && b.nullable p
  | alt a b => a.nullable p || b.nullable p
  | star _ => true

/-- One after the other, without parts that cannot matter. -/
def andThen : Regex → Regex → Regex
  | never, _ => never
  | _, never => never
  | empty, b => b
  | a, b => seq a b

/-- Either of two, without parts that cannot matter. -/
def either : Regex → Regex → Regex
  | never, b => b
  | a, never => a
  | a, b => if a = b then a else alt a b

/-- What can be left to match after the character `c`, read behind `before`: one pattern for each
way to read it. The patterns that can arise from one by such steps are no more than its parts. -/
def rests (before : Option Char) (c : Char) : Regex → List Regex
  | never | empty | anchor _ => []
  | one s => if s.contains c then [empty] else []
  | seq a b =>
    let first := (a.rests before c).map (·.andThen b)
    if a.nullable ⟨before, some c⟩ then first ++ b.rests before c else first
  | alt a b => a.rests before c ++ b.rests before c
  | star a => (a.rests before c).map (·.andThen (star a))

/-- One of the patterns matches all of a text that stands behind `before`. -/
def anyMatches (before : Option Char) (rs : List Regex) : List Char → Bool
  | [] => rs.any (·.nullable ⟨before, none⟩)
  | c :: cs => anyMatches (some c) (rs.flatMap (·.rests before c)).eraseDups cs

/-- Any text. -/
def anything : Regex := star (one (.compl .none))

/-- Some part of the text matches. -/
def finds (r : Regex) (text : String) : Bool :=
  anyMatches none [seq anything (seq r anything)] text.toList

/-- The pattern repeated `n` times. -/
def times (r : Regex) : Nat → Regex
  | 0 => empty
  | n + 1 => (times r n).andThen r

/-- The pattern repeated at most `n` times. -/
def upTo (r : Regex) : Nat → Regex
  | 0 => empty
  | n + 1 => either (r.andThen (upTo r n)) empty

end Regex

end DiscoveryMetadata.Pattern
