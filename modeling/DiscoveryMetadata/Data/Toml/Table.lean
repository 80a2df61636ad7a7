import DiscoveryMetadata.Data.Value
/-
  Tables under construction: the tables of a TOML document as its lines build them up.

  A table can be opened by a header of its own, be implied by the header of a table inside it, or
  come about by a dotted key. These differ in what may still be added to them.
-/
namespace DiscoveryMetadata.Data.Toml

/-- How a table came about. -/
inductive Origin where
  | header
  | implied
  | dotted
  deriving DecidableEq, Repr, Inhabited

/-- An entry under construction: a finished value, a table, or a series of tables of which the last
is still open. -/
inductive Node where
  | value (v : Value)
  | table (origin : Origin) (entries : List (String × Node))
  | series (tables : List Node)
  deriving Inhabited

/-- The entries of a table under construction. -/
abbrev Entries := List (String × Node)

namespace Entries

/-- The entries with a node in the place of those of its name. -/
def replace (name : String) (node : Node) (es : Entries) : Entries :=
  es.map fun e => if e.1 == name then (name, node) else e

/-- Adds an entry, whose name must be new. -/
def insert? (name : String) (node : Node) (es : Entries) : Option Entries :=
  if (es.lookup name).isSome then none else some (es ++ [(name, node)])

/-- Applies a change to the table at the end of a path, and makes those that are missing on the
way. The change is told how its table came about. A dotted key does not lead into a table that has
a header. -/
def change? (byDots : Bool) (f : Origin → Entries → Option Entries) :
    Origin → List String → Entries → Option Entries
  | origin, [], es => f origin es
  | _, name :: path, es =>
    match es.lookup name with
    | none =>
      let origin := if byDots then .dotted else .implied
      (change? byDots f origin path []).map fun inner => es ++ [(name, .table origin inner)]
    | some (.value _) => none
    | some (.table origin inner) =>
      if byDots && origin = .header then none
      else (change? byDots f origin path inner).map fun inner =>
        es.replace name (.table origin inner)
    | some (.series tables) =>
      match tables.getLast? with
      | some (.table origin inner) =>
        (change? byDots f origin path inner).map fun inner =>
          es.replace name (.series (tables.dropLast ++ [.table origin inner]))
      | _ => none

/-- Adds the value of a dotted key to an open table. A key with dots adds only to tables that came
about by dots. -/
def addValue? (path : List String) (name : String) (v : Value) (es : Entries) : Option Entries :=
  change? true (fun origin es =>
    if path.isEmpty || origin = .dotted then es.insert? name (.value v) else none) .header path es

/-- Opens a table by a header. One that was only implied so far may be opened. -/
def openTable? (path : List String) (name : String) (es : Entries) : Option Entries :=
  change? false (fun _ es =>
    match es.lookup name with
    | none => some (es ++ [(name, .table .header [])])
    | some (.table .implied inner) => some (es.replace name (.table .header inner))
    | some _ => none) .header path es

/-- Opens the next table of a series by a header. -/
def openNext? (path : List String) (name : String) (es : Entries) : Option Entries :=
  change? false (fun _ es =>
    match es.lookup name with
    | none => some (es ++ [(name, .series [.table .header []])])
    | some (.series tables) => some (es.replace name (.series (tables ++ [.table .header []])))
    | some _ => none) .header path es

end Entries

mutual

/-- The value of a finished node. -/
def Node.toValue : Node → Value
  | .value v => v
  | .table _ es => .record (entriesToValues es)
  | .series ts => .list (nodesToValues ts)

/-- The values of finished entries. -/
def entriesToValues : List (String × Node) → List (String × Value)
  | [] => []
  | (name, n) :: r => (name, n.toValue) :: entriesToValues r

/-- The values of finished nodes. -/
def nodesToValues : List Node → List Value
  | [] => []
  | n :: r => n.toValue :: nodesToValues r

end

end DiscoveryMetadata.Data.Toml
