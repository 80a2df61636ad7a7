import DiscoveryMetadata.Attributes.Srs
import DiscoveryMetadata.Component.Basic
import DiscoveryMetadata.Decimal
/-
  Positions on the globe: a latitude, a longitude and perhaps a height, in some spatial reference
  system.
-/
namespace DiscoveryMetadata

open Xml (Element)

/-- Refuses a number that is no latitude. -/
def requireLatitude (x : Double) : Outcome Unit :=
  demand (x.within 90) (.rule ("A latitude value must be between -90 and 90 degrees: " ++ x.format))

/-- Refuses a number that is no longitude. -/
def requireLongitude (x : Double) : Outcome Unit :=
  demand (x.within 180)
    (.rule ("A longitude value must be between -180 and 180 degrees: " ++ x.format))

/-- A position. -/
structure Position extends Base where
  coordinates : List Double
  srs : SrsAttributes
  deriving BEq, Inhabited

namespace Position

/-- The rules of a position. -/
def rules (c : Position) : Outcome Unit := do
  requireIn c.element c.version .gml "pos"
  match c.coordinates with
  | [latitude, longitude] | [latitude, longitude, _] =>
    requireLatitude latitude
    requireLongitude longitude
  | _ => throw (.rule "A position must be represented by either 2 or 3 coordinates.")

/-- The position, if it keeps the rules. -/
def checked (c : Position) : Outcome Position := do
  c.check c.rules
  return c

/-- Reads one coordinate. -/
def coordinateOf (text : String) : Outcome Double :=
  match Double.ofContent? text with
  | some x => .ok x
  | none => .error (.rule s!"The coordinate {text} is not a valid double.")

/-- Reads a position. -/
def ofElement (_ : Context) (v : Version) (e : Element) : Outcome Position := do
  let coordinates ← within e.writtenName ((Text.words e.content).mapM coordinateOf)
  let srs ← within e.writtenName (SrsAttributes.ofElement e)
  checked ⟨⟨e, v, []⟩, coordinates, srs⟩

/-- The coordinates as one text. -/
def listText (coordinates : List Double) : String := Text.unwords (coordinates.map (·.format))

/-- Makes a position. -/
def make (ctx : Context) (v : Version) (coordinates : List Double) (srs : SrsAttributes) :
    Outcome Position := do
  let e := (← ctx.elementIn v .gml "pos").withText (listText coordinates)
  checked ⟨⟨srs.addTo e, v, []⟩, coordinates, srs⟩

instance : Component Position where
  base c := c.toBase
  security? _ := none
  lines c stem index :=
    let name := c.lineName stem index
    Line.of name (listText c.coordinates) ++ c.srs.lines (name ++ ".")
  output html c stem index :=
    let name := c.lineName stem index
    Output.entry html name (listText c.coordinates) ++ c.srs.output html (name ++ ".")

/-- The contents of a position to be made; coordinates that are not given are left out. -/
structure Draft where
  version : Option Version := none
  coordinates : List (Option Double) := []
  srs : SrsAttributes := {}
  deriving BEq, Inhabited

instance : Buildable Draft Position where
  isEmpty d := d.coordinates.all Option.isNone && d.srs.isEmpty
  version? d := d.version
  build ctx v d := make ctx v (d.coordinates.filterMap id) d.srs

/-- The draft that leads to the component again. -/
def toDraft (c : Position) : Draft := ⟨some c.version, c.coordinates.map some, c.srs⟩

end Position

end DiscoveryMetadata
