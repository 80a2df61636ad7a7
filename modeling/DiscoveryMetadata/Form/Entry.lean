import DiscoveryMetadata.Data.Value
import DiscoveryMetadata.Decimal
import DiscoveryMetadata.Version
/-
  The entries of a form: numbers, versions and words in plain data, and entries laid over contents
  that are there already.

  A form is a record of plain data. An entry that a form does not have leaves the content as it
  was; an entry that is null, or no value of the wanted sort, empties it. A number that is not an
  integer stands as a text, so that every double can be written.
-/
namespace DiscoveryMetadata.Data.Value

/-- The integer of 64 bits that a value is. -/
def integer? : Value → Option Int
  | number literal => if literal == "-0" then none else Text.int64? literal
  | _ => none

/-- The double that a value is the text of. -/
def double? (v : Value) : Option Double := v.text?.bind Double.ofText?

/-- A double as the sixteen hexadecimal digits of its bits. There are many bits for one that is
not a number, and one text. -/
def ofDouble (x : Double) : Value :=
  let digits := Nat.toDigits 16 x.bits.toNat
  if x.isNaN then text "NaN"
  else text (String.ofList (List.replicate (16 - digits.length) '0' ++ digits))

/-- The version whose number a value is, if it is a text. -/
def version? (v : Value) : Outcome (Option Version) := v.text?.mapM Version.ofText

/-- The version whose number a value is, the latest if it is no text. -/
def version (v : Value) : Outcome Version := do return (← v.version?).getD .latest

/-- The meaning of a word in a table, `other` if it is not there. -/
def meaning {κ : Type} (v : Value) (table : List (String × κ)) (other : κ) : κ :=
  (table.lookup v.content).getD other

/-- The word that means `k` in a table. -/
def wordFor {κ : Type} [DecidableEq κ] (table : List (String × κ)) (k : κ) : Value :=
  optional text ((table.find? fun (_, k') => k' = k).map (·.1))

/-- The text of an entry. -/
def textAt (v : Value) (name : String) : String := (v.entry name).content

/-- The texts of an entry. -/
def textsAt (v : Value) (name : String) : List String := (v.entry name).contents

/-- The integer of an entry. -/
def integerAt? (v : Value) (name : String) : Option Int := (v.entry name).integer?

/-- The double of an entry, zero if there is none. -/
def doubleAt (v : Value) (name : String) : Double := (v.entry name).double?.getD ⟨0⟩

/-- An entry read in the place of the old content, if a form has it. -/
def readOver {β : Type} (v : Value) (name : String) (old : β) (read : Value → β) : β :=
  match v.get? name with
  | some e => read e
  | none => old

/-- The text of an entry over the old one. -/
def textOver (v : Value) (name old : String) : String := v.readOver name old content

/-- The texts of an entry over the old ones. -/
def textsOver (v : Value) (name : String) (old : List String) : List String :=
  v.readOver name old contents

/-- The truth of an entry over the old one. -/
def flagOver (v : Value) (name : String) (old : Bool) : Bool := v.readOver name old isTrue

/-- The truth of an entry, if it is one, over the old one. -/
def truthOver (v : Value) (name : String) (old : Option Bool) : Option Bool :=
  v.readOver name old truth?

/-- The integer of an entry over the old one. -/
def integerOver (v : Value) (name : String) (old : Option Int) : Option Int :=
  v.readOver name old integer?

/-- The double of an entry over the old one. -/
def doubleOver (v : Value) (name : String) (old : Option Double) : Option Double :=
  v.readOver name old double?

/-- The word of an entry over the old meaning. -/
def wordOver {κ : Type} (v : Value) (table : List (String × κ)) (name : String) (old : κ) : κ :=
  v.readOver name old fun e => e.meaning table old

/-- The version of a form over the old one. -/
def versionOver (v : Value) (old : Option Version) : Outcome (Option Version) :=
  match v.get? "version" with
  | some e => e.version?
  | none => .ok old

end DiscoveryMetadata.Data.Value
