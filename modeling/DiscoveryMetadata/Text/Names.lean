import DiscoveryMetadata.Fault
import DiscoveryMetadata.Text.Basic
/-
  Names without a colon, and name tokens, as the schemas' identifiers and labels use them. Both
  are taken from the part of Unicode below U+2000.
-/
namespace DiscoveryMetadata.Text

/-- A character that can begin a name. -/
def isNameStart (c : Char) : Bool :=
  let n := c.toNat
  c.isAlpha || c == '_' || (0xC0 ≤ n && n ≤ 0xD6) || (0xD8 ≤ n && n ≤ 0xF6) ||
    (0xF8 ≤ n && n ≤ 0x2FF) || (0x370 ≤ n && n ≤ 0x37D) || (0x37F ≤ n && n ≤ 0x1FFF)

/-- A character that can stand inside a name. -/
def isNamePart (c : Char) : Bool :=
  isNameStart c || c.isDigit || c == '-' || c == '.' || c.toNat == 0xB7 ||
    (0x300 ≤ c.toNat && c.toNat ≤ 0x36F)

/-- A name without a colon. -/
def isNCName (s : String) : Bool :=
  match s.toList with
  | [] => false
  | c :: r => isNameStart c && r.all isNamePart

/-- A name token: at least one character, each that of a name or a colon. -/
def isNameToken (s : String) : Bool :=
  !s.isEmpty && s.toList.all fun c => isNamePart c || c == ':'

/-- Refuses a text that is no name without a colon. -/
def checkNCName (s : String) : Outcome Unit :=
  demand (isNCName s) (.rule s!"\"{s}\" is not a valid NCName.")

/-- Refuses a list of words unless each is a name without a colon. -/
def checkNCNames (s : String) : Outcome Unit := (words s).forM checkNCName

/-- Refuses a text that is no name token. -/
def checkNameToken (s : String) : Outcome Unit :=
  demand (isNameToken s) (.rule s!"\"{s}\" is not a valid NMTOKEN.")

end DiscoveryMetadata.Text
