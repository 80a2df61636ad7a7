/-
  Findings: remarks on a document that was accepted, or that an outside rule pass made.

  A finding travels from the component that raised it up to the root; each component on the way
  puts its own name in front of the locator.
-/
namespace DiscoveryMetadata

/-- How grave a finding is. -/
inductive Gravity where
  | warning
  | error
  deriving DecidableEq, Repr, Inhabited

namespace Gravity

/-- The word for the gravity. -/
def word : Gravity → String
  | warning => "warning"
  | error => "error"

end Gravity

/-- One remark and the place it is about. -/
structure Finding where
  gravity : Gravity
  text : String
  locator : String
  deriving DecidableEq, Repr, Inhabited

namespace Finding

/-- A warning about the place `locator`. -/
def warning (text locator : String) : Finding := ⟨.warning, text, locator⟩

/-- An error about the place `locator`. -/
def error (text locator : String) : Finding := ⟨.error, text, locator⟩

/-- The finding as seen from the enclosing element `name`. -/
def under (name : String) (f : Finding) : Finding :=
  { f with locator := "/" ++ name ++ f.locator }

/-- The finding as one line for a reader. -/
def describe (f : Finding) : String :=
  let place := if f.locator.isEmpty then "" else " (" ++ f.locator ++ ")"
  "[" ++ f.gravity.word ++ "] " ++ f.text ++ place

end Finding

end DiscoveryMetadata
