import DiscoveryMetadata.Coverage.Place
import DiscoveryMetadata.Coverage.Position
/-
  Extents in space: a box of longitudes and latitudes, a range of heights, and a postal address.
-/
namespace DiscoveryMetadata

open Xml (Element)

namespace Measure

/-- A local name that begins with a capital before version 4.0.1. -/
def nameIn (v : Version) (localName : String) : String :=
  if v.atLeast .v4_0_1 then localName else localName.capitalize

/-- Reads the number in a child; there is none where the child is absent or blank. -/
def numberIn (e : Element) (localName : String) : Outcome (Option Double) :=
  match e.ownChild? localName with
  | none => .ok none
  | some child =>
    if Text.isBlank child.content then .ok none
    else match Double.ofContent? child.content with
      | some x => .ok (some x)
      | none => .error (.rule s!"The {localName} value is not a valid double.")

/-- The element of a number, unless there is none. -/
def numberElements (ctx : Context) (v : Version) (localName : String) (x : Option Double) :
    List Element :=
  (x.map fun x => ctx.textElement v (nameIn v localName) x.format).toList

/-- The number, which must be there. -/
def require (name : String) (x : Option Double) : Outcome Double :=
  match x with
  | some x => .ok x
  | none => .error (.required name)

/-- The line of a number, if it is there. -/
def line (name : String) (x : Option Double) : List Line :=
  Line.of name ((x.map (·.format)).getD "")

/-- The entry of a number, if it is there. -/
def output (html : Bool) (name : String) (x : Option Double) : String :=
  Output.entry html name ((x.map (·.format)).getD "")

end Measure

/-- A box between two longitudes and two latitudes. -/
structure BoundingBox extends Base where
  west : Option Double
  east : Option Double
  south : Option Double
  north : Option Double
  deriving BEq, Inhabited

namespace BoundingBox

/-- The rules of a box. -/
def rules (c : BoundingBox) : Outcome Unit := do
  requireDdms c.element c.version "boundingBox"
  let west ← Measure.require "westbound longitude" c.west
  let east ← Measure.require "eastbound longitude" c.east
  let south ← Measure.require "southbound latitude" c.south
  let north ← Measure.require "northbound latitude" c.north
  requireLongitude west
  requireLongitude east
  requireLatitude south
  requireLatitude north

/-- The box, if it keeps the rules. -/
def checked (c : BoundingBox) : Outcome BoundingBox := do
  c.check c.rules
  return c

/-- Reads a box. -/
def ofElement (_ : Context) (v : Version) (e : Element) : Outcome BoundingBox := do
  let read := fun name => within e.writtenName (Measure.numberIn e (Measure.nameIn v name))
  let west ← read "westBL"
  let east ← read "eastBL"
  let south ← read "southBL"
  let north ← read "northBL"
  checked ⟨⟨e, v, []⟩, west, east, south, north⟩

/-- The element of a box, with the bounds that are given. -/
def elementOf (ctx : Context) (v : Version) (west east south north : Option Double) : Element :=
  (ctx.ddmsElement v "boundingBox").add
    (Measure.numberElements ctx v "westBL" west ++ Measure.numberElements ctx v "eastBL" east ++
      Measure.numberElements ctx v "southBL" south ++ Measure.numberElements ctx v "northBL" north)

/-- Makes a box. -/
def make (ctx : Context) (v : Version) (west east south north : Double) : Outcome BoundingBox :=
  checked ⟨⟨elementOf ctx v (some west) (some east) (some south) (some north), v, []⟩,
    some west, some east, some south, some north⟩

instance : Component BoundingBox where
  base c := c.toBase
  security? _ := none
  lines c stem index :=
    let name := c.lineName stem index ++ "."
    Measure.line (name ++ "westBL") c.west ++ Measure.line (name ++ "eastBL") c.east ++
      Measure.line (name ++ "southBL") c.south ++ Measure.line (name ++ "northBL") c.north
  output html c stem index :=
    let name := c.lineName stem index ++ "."
    Measure.output html (name ++ "westBL") c.west ++
      Measure.output html (name ++ "eastBL") c.east ++
      Measure.output html (name ++ "southBL") c.south ++
      Measure.output html (name ++ "northBL") c.north

/-- The contents of a box to be made. -/
structure Draft where
  version : Option Version := none
  west : Option Double := none
  east : Option Double := none
  south : Option Double := none
  north : Option Double := none
  deriving BEq, Inhabited

instance : Buildable Draft BoundingBox where
  isEmpty d := d.west.isNone && d.east.isNone && d.south.isNone && d.north.isNone
  version? d := d.version
  build ctx v d := ofElement ctx v (elementOf ctx v d.west d.east d.south d.north)

/-- The draft that leads to the component again. -/
def toDraft (c : BoundingBox) : Draft := ⟨some c.version, c.west, c.east, c.south, c.north⟩

end BoundingBox

/-- A range of heights over some datum. -/
structure VerticalExtent extends Base where
  minimum : Option Double
  maximum : Option Double
  unitOfMeasure : String
  datum : String
  deriving BEq, Inhabited

namespace VerticalExtent

/-- The units of heights. -/
def units : List String :=
  ["Meter", "Kilometer", "Foot", "StatuteMile", "NauticalMile", "Fathom", "Inch"]

/-- What heights are measured from. -/
def datums : List String := ["MSL", "AGL", "HAE"]

/-- The local name of the lower end. -/
def minimumName : String := "minVerticalExtent"

/-- The local name of the upper end. -/
def maximumName : String := "maxVerticalExtent"

/-- Refuses an end of the range whose attribute differs from that of the range. -/
def checkInherited (c : VerticalExtent) (extent : Element) : Outcome Unit :=
  [("unitOfMeasure", c.unitOfMeasure), ("datum", c.datum)].forM fun (name, expected) =>
    let value := extent.own name
    demand (value.isEmpty || value == expected) (.rule
      (s!"The {name} on the {extent.localName} element must match the {name} on the enclosing " ++
        "verticalExtent element."))

/-- The rules of a range of heights. -/
def rules (c : VerticalExtent) : Outcome Unit := do
  requireDdms c.element c.version "verticalExtent"
  let minimum ← Measure.require minimumName c.minimum
  let maximum ← Measure.require maximumName c.maximum
  requireValue "unitOfMeasure" c.unitOfMeasure
  requireValue "datum" c.datum
  demand (units.contains c.unitOfMeasure)
    (.rule ("The length measure type must be one of " ++ ", ".intercalate units))
  demand (datums.contains c.datum)
    (.rule ("The vertical datum type must be one of " ++ ", ".intercalate datums))
  [minimumName, maximumName].forM fun name =>
    ((c.element.ownChild? (Measure.nameIn c.version name)).toList).forM c.checkInherited
  forbid (maximum.less minimum)
    (.rule "Minimum vertical extent must be less than maximum vertical extent.")

/-- The range, if it keeps the rules. -/
def checked (c : VerticalExtent) : Outcome VerticalExtent := do
  c.check c.rules
  return c

/-- Reads a range of heights. -/
def ofElement (_ : Context) (v : Version) (e : Element) : Outcome VerticalExtent := do
  let read := fun name => within e.writtenName (Measure.numberIn e (Measure.nameIn v name))
  let minimum ← read minimumName
  let maximum ← read maximumName
  checked ⟨⟨e, v, []⟩, minimum, maximum, e.own "unitOfMeasure", e.own "datum"⟩

/-- The element of a range of heights, with the ends that are given. -/
def elementOf (ctx : Context) (v : Version) (minimum maximum : Option Double)
    (unitOfMeasure datum : String) : Element :=
  (((ctx.ddmsElement v "verticalExtent").put (ctx.ddmsName v "unitOfMeasure") unitOfMeasure).put
    (ctx.ddmsName v "datum") datum).add
    (Measure.numberElements ctx v minimumName minimum ++
      Measure.numberElements ctx v maximumName maximum)

/-- Makes a range of heights. -/
def make (ctx : Context) (v : Version) (minimum maximum : Double) (unitOfMeasure datum : String) :
    Outcome VerticalExtent :=
  checked ⟨⟨elementOf ctx v (some minimum) (some maximum) unitOfMeasure datum, v, []⟩,
    some minimum, some maximum, unitOfMeasure, datum⟩

instance : Component VerticalExtent where
  base c := c.toBase
  security? _ := none
  lines c stem index :=
    let name := c.lineName stem index ++ "."
    Line.of (name ++ "unitOfMeasure") c.unitOfMeasure ++ Line.of (name ++ "datum") c.datum ++
      Measure.line (name ++ "minimum") c.minimum ++ Measure.line (name ++ "maximum") c.maximum
  output html c stem index :=
    let name := c.lineName stem index ++ "."
    Output.entry html (name ++ "unitOfMeasure") c.unitOfMeasure ++
      Output.entry html (name ++ "datum") c.datum ++
      Measure.output html (name ++ "minimum") c.minimum ++
      Measure.output html (name ++ "maximum") c.maximum

/-- The contents of a range of heights to be made. -/
structure Draft where
  version : Option Version := none
  minimum : Option Double := none
  maximum : Option Double := none
  unitOfMeasure : String := ""
  datum : String := ""
  deriving BEq, Inhabited

instance : Buildable Draft VerticalExtent where
  isEmpty d := d.minimum.isNone && d.maximum.isNone && allBlank [d.unitOfMeasure, d.datum]
  version? d := d.version
  build ctx v d := ofElement ctx v (elementOf ctx v d.minimum d.maximum d.unitOfMeasure d.datum)

/-- The draft that leads to the component again. -/
def toDraft (c : VerticalExtent) : Draft :=
  ⟨some c.version, c.minimum, c.maximum, c.unitOfMeasure, c.datum⟩

end VerticalExtent

/-- A postal address. -/
structure PostalAddress extends Base where
  streets : List String
  city : String
  state : String
  province : String
  postalCode : String
  countryCode : Option AreaCode
  deriving BEq, Inhabited

namespace PostalAddress

/-- The rules of an address. -/
def rules (c : PostalAddress) : Outcome Unit := do
  requireDdms c.element c.version "postalAddress"
  demand (c.state.isEmpty || c.province.isEmpty)
    (.rule "Only 1 of state or province can be used.")
  requireChildren c.element "street" 0 6
  ["city", "state", "province", "postalCode", "countryCode"].forM fun name =>
    requireChildren c.element name 0 1
  c.requireSameVersions (c.countryCode.map (·.toBase)).toList

/-- There is nothing in the address. -/
def isVacant (c : PostalAddress) : Bool :=
  c.streets.isEmpty && c.city.isEmpty && c.state.isEmpty && c.province.isEmpty &&
    c.postalCode.isEmpty && c.countryCode.isNone

/-- The warnings about the address. -/
def findings (c : PostalAddress) : List Finding :=
  c.warnIf c.isVacant "A completely empty ddms:postalAddress element was found." ++
  c.absorbAll (c.countryCode.map (·.toBase)).toList

/-- The address, if it keeps the rules, with the warnings about it. -/
def checked (c : PostalAddress) : Outcome PostalAddress := do
  c.check c.rules
  return { c with warnings := c.findings }

/-- Reads an address. -/
def ofElement (ctx : Context) (v : Version) (e : Element) : Outcome PostalAddress := do
  let country ← within e.writtenName
    (readOption (AreaCode.ofElement .country) ctx v (e.ownChild? "countryCode"))
  checked ⟨⟨e, v, []⟩, e.childTexts e.uri "street", e.ownText "city", e.ownText "state",
    e.ownText "province", e.ownText "postalCode", country⟩

/-- Makes an address. -/
def make (ctx : Context) (v : Version) (streets : List String)
    (city state province postalCode : String) (country : Option AreaCode) :
    Outcome PostalAddress :=
  let e := (ctx.ddmsElement v "postalAddress").add
    (streets.map (ctx.textElement v "street") ++ ctx.textElements v "city" city ++
      ctx.textElements v "state" state ++ ctx.textElements v "province" province ++
      ctx.textElements v "postalCode" postalCode ++ (country.map (·.element)).toList)
  checked ⟨⟨e, v, []⟩, streets, city, state, province, postalCode, country⟩

instance : Component PostalAddress where
  base c := c.toBase
  security? _ := none
  lines c stem index :=
    let name := c.lineName stem index ++ "."
    Line.ofAll (name ++ "street") c.streets ++ Line.of (name ++ "city") c.city ++
      Line.of (name ++ "state") c.state ++ Line.of (name ++ "province") c.province ++
      Line.of (name ++ "postalCode") c.postalCode ++ Component.linesOfOption c.countryCode name
  output html c stem index :=
    let name := c.lineName stem index ++ "."
    Output.entries html (name ++ "street") c.streets ++ Output.entry html (name ++ "city") c.city ++
      Output.entry html (name ++ "state") c.state ++
      Output.entry html (name ++ "province") c.province ++
      Output.entry html (name ++ "postalCode") c.postalCode ++
      Component.outputOfOption html c.countryCode name

/-- The contents of an address to be made. -/
structure Draft where
  version : Option Version := none
  streets : List String := []
  city : String := ""
  state : String := ""
  province : String := ""
  postalCode : String := ""
  countryCode : AreaCode.Draft := {}
  deriving BEq, Inhabited

instance : Buildable Draft PostalAddress where
  isEmpty d :=
    allBlank d.streets && allBlank [d.city, d.state, d.province, d.postalCode] &&
      Buildable.isEmpty d.countryCode
  version? d := d.version
  build ctx v d := do
    make ctx v (dropBlank d.streets) d.city d.state d.province d.postalCode
      (← Buildable.commitAs ctx v { d.countryCode with kind := .country })

/-- The draft that leads to the component again. -/
def toDraft (c : PostalAddress) : Draft :=
  ⟨some c.version, c.streets, c.city, c.state, c.province, c.postalCode,
    (c.countryCode.map (·.toDraft)).getD {}⟩

end PostalAddress

end DiscoveryMetadata
