/-
  Plain data: the values that configuration texts write and reports are made of.

  A number is kept as the text it is written with, so that reading it never loses a digit; a date
  that stands unquoted counts as a number, since nothing here computes with either.
-/
namespace DiscoveryMetadata.Data

/-- A plain value. -/
inductive Value where
  | null
  | truth (b : Bool)
  | number (literal : String)
  | text (s : String)
  | list (items : List Value)
  | record (entries : List (String × Value))
  deriving Inhabited

namespace Value

/-- The number that is an integer. -/
def ofInt (n : Int) : Value := number (toString n)

/-- The entries of a record. -/
def entries : Value → List (String × Value)
  | record es => es
  | _ => []

/-- The last entry of a record with this name. -/
def get? (v : Value) (name : String) : Option Value :=
  (v.entries.filter (·.1 == name)).getLast?.map (·.2)

/-- The values of a list. -/
def items : Value → List Value
  | list vs => vs
  | _ => []

/-- The text, if the value is one. -/
def text? : Value → Option String
  | text s => some s
  | _ => none

/-- The truth value, if the value is one. -/
def truth? : Value → Option Bool
  | truth b => some b
  | _ => none

/-- The entry of a record with this name, null if there is none. -/
def entry (v : Value) (name : String) : Value := (v.get? name).getD null

/-- A record has an entry with this name that is not null. -/
def has (v : Value) (name : String) : Bool :=
  match v.entry name with
  | null => false
  | _ => true

/-- An item of a list, null if there is none. -/
def item (v : Value) (i : Nat) : Value := v.items.getD i null

/-- The text, empty for any other value. -/
def content (v : Value) : String := v.text?.getD ""

/-- The texts of the items of a list. -/
def contents (v : Value) : List String := v.items.map content

/-- The value is true. -/
def isTrue (v : Value) : Bool := v.truth?.getD false

/-- A list of texts. -/
def ofTexts (texts : List String) : Value := list (texts.map text)

/-- A list of pairs of texts. -/
def ofPairs (pairs : List (String × String)) : Value :=
  list (pairs.map fun (a, b) => ofTexts [a, b])

/-- A value, null if there is none. -/
def optional {α : Type} (write : α → Value) (x : Option α) : Value := (x.map write).getD null

end Value

end DiscoveryMetadata.Data
