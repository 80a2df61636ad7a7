import DiscoveryMetadata.Coverage.Position
import DiscoveryMetadata.Text.Names
/-
  Shapes on the globe: points, polygons, and the geometry that gathers them.
-/
namespace DiscoveryMetadata

open Xml (Element)

/-- The local name of a point. -/
def Shape.point : String := "Point"

/-- The local name of a polygon. -/
def Shape.polygon : String := "Polygon"

/-- The rules that points and polygons share: both have a reference system and an identifier. -/
def Shape.rules (b : Base) (localName id : String) (srs : SrsAttributes) : Outcome Unit := do
  requireIn b.element b.version .gml localName
  requireValue "srsName" srs.name
  requireValue "id" id
  Text.checkNCName id

/-- Refuses a position that names another reference system than the shape does. -/
def Shape.checkSystem (srs : SrsAttributes) (position : Position) (sentence : String) :
    Outcome Unit :=
  demand (position.srs.name.isEmpty || position.srs.name == srs.name) (.rule sentence)

/-- The element of a shape with its attributes. -/
def Shape.element (ctx : Context) (v : Version) (localName id : String) (srs : SrsAttributes) :
    Outcome Element := do
  ctx.putIn v .gml "id" id (srs.addTo (← ctx.elementIn v .gml localName))

/-- A point. -/
structure Point extends Base where
  id : String
  srs : SrsAttributes
  position : Option Position
  deriving BEq, Inhabited

namespace Point

/-- A point without a position. -/
def missingPosition : Fault := .required "position"

/-- The rules of a point. -/
def rules (c : Point) : Outcome Unit := do
  Shape.rules c.toBase Shape.point c.id c.srs
  match c.position with
  | none => throw missingPosition
  | some position =>
    c.requireSameVersion position.toBase
    Shape.checkSystem c.srs position
      "The srsName of the position must match the srsName of the Point."

/-- The warnings about the point. -/
def findings (c : Point) : List Finding :=
  c.absorbAll (c.position.map (·.toBase)).toList

/-- The point, if it keeps the rules, with the warnings about it. -/
def checked (c : Point) : Outcome Point := do
  c.check c.rules
  return { c with warnings := c.findings }

/-- Reads a point. -/
def ofElement (ctx : Context) (v : Version) (e : Element) : Outcome Point := do
  let position ← within e.writtenName (readOption Position.ofElement ctx v (e.ownChild? "pos"))
  let srs ← within e.writtenName (SrsAttributes.ofElement e)
  checked ⟨⟨e, v, []⟩, e.attributeText v.gmlUri "id", srs, position⟩

/-- Makes a point. -/
def make (ctx : Context) (v : Version) (position : Position) (srs : SrsAttributes) (id : String) :
    Outcome Point := do
  let e := (← Shape.element ctx v Shape.point id srs).add [position.element]
  checked ⟨⟨e, v, []⟩, id, srs, some position⟩

instance : Component Point where
  base c := c.toBase
  security? _ := none
  lines c stem index :=
    let name := c.lineName stem index ++ "."
    [⟨name ++ "id", c.id⟩] ++ c.srs.lines name ++ Component.linesOfOption c.position name
  output html c stem index :=
    let name := c.lineName stem index ++ "."
    Output.always html (name ++ "id") c.id ++ c.srs.output html name ++
      Component.outputOfOption html c.position name

/-- The contents of a point to be made. -/
structure Draft where
  version : Option Version := none
  id : String := ""
  srs : SrsAttributes := {}
  position : Position.Draft := {}
  deriving BEq, Inhabited

instance : Buildable Draft Point where
  isEmpty d := Text.isBlank d.id && d.srs.isEmpty && Buildable.isEmpty d.position
  version? d := d.version
  build ctx v d := do
    match ← Buildable.commitAs ctx v d.position with
    | none => within "gml:Point" (.error missingPosition)
    | some position => make ctx v position d.srs d.id

/-- The draft that leads to the component again. -/
def toDraft (c : Point) : Draft :=
  ⟨some c.version, c.id, c.srs, (c.position.map (·.toDraft)).getD {}⟩

end Point

/-- A polygon, by the positions on its exterior ring. -/
structure Polygon extends Base where
  id : String
  srs : SrsAttributes
  positions : List Position
  deriving BEq, Inhabited

namespace Polygon

/-- Refuses a position that does not fit into the polygon. -/
def checkPosition (c : Polygon) (position : Position) : Outcome Unit := do
  c.requireSameVersion position.toBase
  Shape.checkSystem c.srs position
    "The srsName of each position must match the srsName of the Polygon."

/-- The exterior of the polygon. -/
def exterior? (e : Element) : Option Element := e.ownChild? "exterior"

/-- The ring of the exterior, named as the polygon is. -/
def ring? (e exterior : Element) : Option Element := exterior.child? e.uri "LinearRing"

/-- Both positions have the same coordinates in the same system. -/
def samePlace (a b : Option Position) : Bool :=
  match a, b with
  | some a, some b => a.coordinates == b.coordinates && a.srs == b.srs
  | _, _ => false

/-- The rules of a polygon. -/
def rules (c : Polygon) : Outcome Unit := do
  Shape.rules c.toBase Shape.polygon c.id c.srs
  match exterior? c.element with
  | none => throw (.rule "exterior element is required.")
  | some exterior =>
    demand (ring? c.element exterior).isSome (.rule "LinearRing element is required.")
  c.positions.forM c.checkPosition
  demand (4 ≤ c.positions.length)
    (.rule "At least 4 positions are required for a valid Polygon.")
  demand (samePlace c.positions.head? c.positions.getLast?)
    (.rule "The first and last position in the Polygon must be the same.")

/-- The warnings about the polygon. -/
def findings (c : Polygon) : List Finding :=
  c.absorbAll (c.positions.map (·.toBase))

/-- The polygon, if it keeps the rules, with the warnings about it. -/
def checked (c : Polygon) : Outcome Polygon := do
  c.check c.rules
  return { c with warnings := c.findings }

/-- Reads the positions on the ring. -/
def readPositions (ctx : Context) (v : Version) (e : Element) : Outcome (List Position) :=
  match exterior? e with
  | none => .ok []
  | some exterior =>
    match ring? e exterior with
    | none => .ok []
    | some ring => within exterior.writtenName <| within ring.writtenName <|
        readAll Position.ofElement ctx v (ring.childrenNamed e.uri "pos")

/-- Reads a polygon. -/
def ofElement (ctx : Context) (v : Version) (e : Element) : Outcome Polygon := do
  let positions ← within e.writtenName (readPositions ctx v e)
  let srs ← within e.writtenName (SrsAttributes.ofElement e)
  checked ⟨⟨e, v, []⟩, e.attributeText v.gmlUri "id", srs, positions⟩

/-- Makes a polygon. -/
def make (ctx : Context) (v : Version) (positions : List Position) (srs : SrsAttributes)
    (id : String) : Outcome Polygon := do
  let ring := (← ctx.elementIn v .gml "LinearRing").add (positions.map (·.element))
  let exterior := (← ctx.elementIn v .gml "exterior").add [ring]
  let e := (← Shape.element ctx v Shape.polygon id srs).add [exterior]
  checked ⟨⟨e, v, []⟩, id, srs, positions⟩

instance : Component Polygon where
  base c := c.toBase
  security? _ := none
  lines c stem index :=
    let name := c.lineName stem index ++ "."
    [⟨name ++ "id", c.id⟩] ++ c.srs.lines name ++ Component.linesOfAll c.positions name
  output html c stem index :=
    let name := c.lineName stem index ++ "."
    Output.always html (name ++ "id") c.id ++ c.srs.output html name ++
      Component.outputOfAll html c.positions name

/-- The contents of a polygon to be made. -/
structure Draft where
  version : Option Version := none
  id : String := ""
  srs : SrsAttributes := {}
  positions : List Position.Draft := []
  deriving BEq, Inhabited

instance : Buildable Draft Polygon where
  isEmpty d := Text.isBlank d.id && d.srs.isEmpty && Buildable.allEmpty d.positions
  version? d := d.version
  build ctx v d := do make ctx v (← Buildable.commitAll ctx v d.positions) d.srs d.id

/-- The draft that leads to the component again. -/
def toDraft (c : Polygon) : Draft :=
  ⟨some c.version, c.id, c.srs, c.positions.map (·.toDraft)⟩

end Polygon

/-- The shapes that bound an area. -/
structure BoundingGeometry extends Base where
  polygons : List Polygon
  points : List Point
  deriving BEq, Inhabited

namespace BoundingGeometry

/-- The parts of the geometry. -/
def parts (c : BoundingGeometry) : List Base :=
  c.polygons.map (·.toBase) ++ c.points.map (·.toBase)

/-- The rules of a geometry. -/
def rules (c : BoundingGeometry) : Outcome Unit := do
  requireDdms c.element c.version "boundingGeometry"
  forbid c.parts.isEmpty (.rule "At least 1 of Polygon or Point must be used.")
  c.requireSameVersions c.parts

/-- The warnings about the geometry. -/
def findings (c : BoundingGeometry) : List Finding :=
  c.absorbAll c.parts

/-- The geometry, if it keeps the rules, with the warnings about it. -/
def checked (c : BoundingGeometry) : Outcome BoundingGeometry := do
  c.check c.rules
  return { c with warnings := c.findings }

/-- Reads a geometry. -/
def ofElement (ctx : Context) (v : Version) (e : Element) : Outcome BoundingGeometry := do
  let polygons ← within e.writtenName
    (readAll Polygon.ofElement ctx v (e.childrenNamed v.gmlUri Shape.polygon))
  let points ← within e.writtenName
    (readAll Point.ofElement ctx v (e.childrenNamed v.gmlUri Shape.point))
  checked ⟨⟨e, v, []⟩, polygons, points⟩

/-- Makes a geometry. -/
def make (ctx : Context) (v : Version) (polygons : List Polygon) (points : List Point) :
    Outcome BoundingGeometry :=
  let e := (ctx.ddmsElement v "boundingGeometry").add
    (polygons.map (·.element) ++ points.map (·.element))
  checked ⟨⟨e, v, []⟩, polygons, points⟩

instance : Component BoundingGeometry where
  base c := c.toBase
  security? _ := none
  lines c stem index :=
    let name := c.lineName stem index ++ "."
    Component.linesOfAll c.polygons name ++ Component.linesOfAll c.points name
  output html c stem index :=
    let name := c.lineName stem index ++ "."
    Component.outputOfAll html c.polygons name ++ Component.outputOfAll html c.points name

/-- The contents of a geometry to be made. -/
structure Draft where
  version : Option Version := none
  polygons : List Polygon.Draft := []
  points : List Point.Draft := []
  deriving BEq, Inhabited

instance : Buildable Draft BoundingGeometry where
  isEmpty d := Buildable.allEmpty d.polygons && Buildable.allEmpty d.points
  version? d := d.version
  build ctx v d := do
    let polygons ← Buildable.commitAll ctx v d.polygons
    make ctx v polygons (← Buildable.commitAll ctx v d.points)

/-- The draft that leads to the component again. -/
def toDraft (c : BoundingGeometry) : Draft :=
  ⟨some c.version, c.polygons.map (·.toDraft), c.points.map (·.toDraft)⟩

end BoundingGeometry

end DiscoveryMetadata
