import DiscoveryMetadata.Component.Checks
import DiscoveryMetadata.Component.Line
import DiscoveryMetadata.Text.Basic
import DiscoveryMetadata.Uri
/-
  Attributes that name a spatial reference system: its name, its number of dimensions, and the
  labels and units of its axes.
-/
namespace DiscoveryMetadata

open Xml (Element QName)

/-- The spatial reference of a shape. -/
structure SrsAttributes where
  name : String := ""
  dimension : Option Nat := none
  axisLabels : List String := []
  uomLabels : List String := []
  deriving DecidableEq, Inhabited

namespace SrsAttributes

/-- There are no attributes. -/
def isEmpty (a : SrsAttributes) : Bool :=
  a.name.isEmpty && a.dimension.isNone && a.axisLabels.isEmpty && a.uomLabels.isEmpty

/-- A number of dimensions that is none. -/
def badDimension : Fault := .rule "The srsDimension must be a positive integer."

/-- The number of dimensions that an integer states. -/
def dimensionOf (d : Int) : Outcome Nat :=
  if 0 < d && d.toNat < Nat.pow 2 32 then .ok d.toNat else .error badDimension

/-- Labels need the attribute that they are about, and are names without a colon. -/
def check (a : SrsAttributes) : Outcome Unit := do
  ifPresent a.name Uri.check
  demand (a.axisLabels.isEmpty || !a.name.isEmpty)
    (.rule "The axisLabels attribute can only be used in tandem with an srsName.")
  demand (a.uomLabels.isEmpty || !a.axisLabels.isEmpty)
    (.rule "The uomLabels attribute can only be used in tandem with axisLabels.")
  Text.checkNCNames (Text.unwords a.axisLabels)
  Text.checkNCNames (Text.unwords a.uomLabels)

/-- Makes the group from its values. -/
def ofValues (name : String) (dimension : Option Int) (axisLabels uomLabels : List String) :
    Outcome SrsAttributes := do
  let dimension ← dimension.mapM dimensionOf
  let a : SrsAttributes := ⟨name, dimension, axisLabels, uomLabels⟩
  a.check
  return a

/-- Reads the number of dimensions, where an element states it. -/
def readDimension (e : Element) : Outcome (Option Int) :=
  match e.attribute? none "srsDimension" with
  | none => .ok none
  | some t =>
    match Text.int64? (Text.trim t) with
    | some d => .ok (some d)
    | none => .error badDimension

/-- Reads the group from an element. -/
def ofElement (e : Element) : Outcome SrsAttributes := do
  let text := fun name => (e.attribute? none name).getD ""
  let dimension ← readDimension e
  ofValues (text "srsName") dimension (Text.words (text "axisLabels"))
    (Text.words (text "uomLabels"))

/-- The attributes with their values as they are written. -/
def pairs (a : SrsAttributes) : List (String × String) :=
  [("srsName", a.name), ("srsDimension", (a.dimension.map toString).getD ""),
   ("axisLabels", Text.unwords a.axisLabels), ("uomLabels", Text.unwords a.uomLabels)]

/-- Puts the attributes on an element. -/
def addTo (a : SrsAttributes) (e : Element) : Element :=
  a.pairs.foldl (fun e (name, value) => e.put (QName.unqualified name) value) e

/-- The lines of the group under a stem. -/
def lines (a : SrsAttributes) (stem : String) : List Line :=
  a.pairs.flatMap fun (name, value) => Line.of (stem ++ name) value

/-- The output of the group under a stem. -/
def output (html : Bool) (a : SrsAttributes) (stem : String) : String :=
  Output.pairs html stem a.pairs

end SrsAttributes

end DiscoveryMetadata
