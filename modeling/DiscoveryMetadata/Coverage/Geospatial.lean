import DiscoveryMetadata.Coverage.Extent
import DiscoveryMetadata.Coverage.Shape
import DiscoveryMetadata.Coverage.Subject
/-
  The space that a resource covers, described in one or several ways. Before version 4.0.1 the
  content stands in a wrapper.
-/
namespace DiscoveryMetadata

open Xml (Element)

/-- The ways to describe a space. -/
structure GeospatialExtents where
  geographicIdentifier : Option GeographicIdentifier := none
  boundingBox : Option BoundingBox := none
  boundingGeometry : Option BoundingGeometry := none
  postalAddress : Option PostalAddress := none
  verticalExtent : Option VerticalExtent := none
  deriving BEq, Inhabited

namespace GeospatialExtents

/-- The names of the elements, in order. -/
def names : List String :=
  ["geographicIdentifier", "boundingBox", "boundingGeometry", "postalAddress", "verticalExtent"]

/-- The descriptions that are there. -/
def parts (x : GeospatialExtents) : List Base :=
  (x.geographicIdentifier.map (·.toBase)).toList ++ (x.boundingBox.map (·.toBase)).toList ++
    (x.boundingGeometry.map (·.toBase)).toList ++ (x.postalAddress.map (·.toBase)).toList ++
    (x.verticalExtent.map (·.toBase)).toList

/-- The lines of the descriptions that are there. -/
def lines (x : GeospatialExtents) (stem : String) : List Line :=
  Component.linesOfOption x.geographicIdentifier stem ++
    Component.linesOfOption x.boundingBox stem ++
    Component.linesOfOption x.boundingGeometry stem ++
    Component.linesOfOption x.postalAddress stem ++
    Component.linesOfOption x.verticalExtent stem

/-- The output of the descriptions that are there. -/
def output (html : Bool) (x : GeospatialExtents) (stem : String) : String :=
  Component.outputOfOption html x.geographicIdentifier stem ++
    Component.outputOfOption html x.boundingBox stem ++
    Component.outputOfOption html x.boundingGeometry stem ++
    Component.outputOfOption html x.postalAddress stem ++
    Component.outputOfOption html x.verticalExtent stem

/-- Reads the descriptions in an element. -/
def ofElement (ctx : Context) (v : Version) (e : Element) : Outcome GeospatialExtents := do
  let identifier ← readOption GeographicIdentifier.ofElement ctx v
    (e.ownChild? "geographicIdentifier")
  let box ← readOption BoundingBox.ofElement ctx v (e.ownChild? "boundingBox")
  let geometry ← readOption BoundingGeometry.ofElement ctx v (e.ownChild? "boundingGeometry")
  let address ← readOption PostalAddress.ofElement ctx v (e.ownChild? "postalAddress")
  let vertical ← readOption VerticalExtent.ofElement ctx v (e.ownChild? "verticalExtent")
  return ⟨identifier, box, geometry, address, vertical⟩

/-- The space is described by a facility. -/
def hasFacility (x : GeospatialExtents) : Bool :=
  match x.geographicIdentifier with
  | some identifier => identifier.hasFacility
  | none => false

/-- The space is described by a country. -/
def hasCountry (x : GeospatialExtents) : Bool :=
  match x.geographicIdentifier with
  | some identifier => identifier.countryCode.isSome
  | none => false

end GeospatialExtents

/-- The space that a resource covers. -/
structure GeospatialCoverage extends Base where
  extents : GeospatialExtents
  precedence : String
  order : Option Int
  security : SecurityAttributes
  deriving BEq, Inhabited

namespace GeospatialCoverage

/-- The wrapper of the content before version 4.0.1. -/
def wrapper : String := "GeospatialExtent"

/-- The precedences of a coverage. -/
def precedences : List String := ["Primary", "Secondary"]

/-- What is said of a coverage without content. -/
def nothingThere : Fault := .rule
  ("At least 1 of geographicIdentifier, boundingBox, boundingGeometry, postalAddress, or " ++
    "verticalExtent must be used.")

/-- What is said of a facility that does not stand alone. -/
def facilityNotAlone : Fault := .rule
  ("A geographicIdentifier containing a facilityIdentifier cannot be used in tandem with any " ++
    "other coverage elements.")

/-- Refuses a precedence that is not known, or on a coverage without a country. -/
def checkPrecedence (x : GeospatialExtents) (precedence : String) : Outcome Unit := do
  demand (precedences.contains precedence)
    (.rule ("The ddms:precedence attribute must have a value from: [" ++
      ", ".intercalate precedences ++ "]"))
  demand x.hasCountry (.rule
    ("The ddms:precedence attribute should only be applied to a geospatialCoverage containing " ++
      "a country code."))

/-- The rules of a geospatial coverage. -/
def rules (c : GeospatialCoverage) : Outcome Unit := do
  requireDdms c.element c.version "geospatialCoverage"
  match c.element.holder? c.version wrapper with
  | none => throw (.rule s!"{wrapper} element is required.")
  | some holder =>
    withinHolder holder wrapper
      (GeospatialExtents.names.forM fun name => requireChildren holder name 0 1)
  let parts := c.extents.parts
  forbid parts.isEmpty nothingThere
  demand (!c.extents.hasFacility || parts.length ≤ 1) facilityNotAlone
  c.requireSameVersions parts
  demand (c.precedence.isEmpty || c.version.atLeast .v4_0_1)
    (.tooEarly "ddms:precedence attribute" "4.0.1")
  demand (c.order.isNone || c.version.atLeast .v4_0_1) (.tooEarly "ddms:order attribute" "4.0.1")
  requireSecuritySince c.version .v3_0 c.security
  ifPresent c.precedence (checkPrecedence c.extents)

/-- The warnings about the coverage. -/
def findings (c : GeospatialCoverage) : List Finding :=
  c.absorbAll c.extents.parts ++ c.absorb c.security.warnings

/-- The coverage, if it keeps the rules, with the warnings about it. -/
def checked (c : GeospatialCoverage) : Outcome GeospatialCoverage := do
  c.check c.rules
  return { c with warnings := c.findings }

/-- Reads a coverage. -/
def ofElement (ctx : Context) (v : Version) (e : Element) : Outcome GeospatialCoverage := do
  let extents ← within e.writtenName <| match e.holder? v wrapper with
    | some h => withinHolder h wrapper (GeospatialExtents.ofElement ctx v h)
    | none => .ok {}
  let order ← within e.writtenName (orderOf (e.own "order"))
  let security ← within e.writtenName (SecurityAttributes.ofElement ctx v e)
  checked ⟨⟨e, v, []⟩, extents, e.own "precedence", order, security⟩

/-- Makes a coverage. -/
def make (ctx : Context) (v : Version) (extents : GeospatialExtents) (precedence : String)
    (order : Option Int) (security : SecurityAttributes) : Outcome GeospatialCoverage := do
  let e := ctx.addWrapped v wrapper (extents.parts.map (·.element))
    (ctx.ddmsElement v "geospatialCoverage")
  let e := (e.put (ctx.ddmsName v "precedence") precedence).put (ctx.ddmsName v "order")
    (orderText order)
  let e ← within e.writtenName (security.addTo ctx v e)
  checked ⟨⟨e, v, []⟩, extents, precedence, order, security⟩

instance : Component GeospatialCoverage where
  base c := c.toBase
  security? c := some c.security
  lines c stem index :=
    let name := c.lineName stem index ++ "." ++
      (if c.version.atLeast .v4_0_1 then "" else wrapper ++ ".")
    c.extents.lines name ++ Line.of (name ++ "precedence") c.precedence ++
      Line.of (name ++ "order") (orderText c.order) ++ c.security.lines name
  output html c stem index :=
    let name := c.lineName stem index ++ "." ++
      (if c.version.atLeast .v4_0_1 then "" else wrapper ++ ".")
    c.extents.output html name ++ Output.entry html (name ++ "precedence") c.precedence ++
      Output.entry html (name ++ "order") (orderText c.order) ++ c.security.output html name

/-- The contents of a coverage to be made. -/
structure Draft where
  version : Option Version := none
  geographicIdentifier : GeographicIdentifier.Draft := {}
  boundingBox : BoundingBox.Draft := {}
  boundingGeometry : BoundingGeometry.Draft := {}
  postalAddress : PostalAddress.Draft := {}
  verticalExtent : VerticalExtent.Draft := {}
  precedence : String := ""
  order : Option Int := none
  security : SecurityAttributes.Draft := {}
  deriving BEq, Inhabited

instance : Buildable Draft GeospatialCoverage where
  isEmpty d :=
    Buildable.isEmpty d.geographicIdentifier && Buildable.isEmpty d.boundingBox &&
      Buildable.isEmpty d.boundingGeometry && Buildable.isEmpty d.postalAddress &&
      Buildable.isEmpty d.verticalExtent && Text.isBlank d.precedence && d.order.isNone &&
      d.security.isEmpty
  version? d := d.version
  build ctx v d := do
    let identifier ← Buildable.commitAs ctx v d.geographicIdentifier
    let box ← Buildable.commitAs ctx v d.boundingBox
    let geometry ← Buildable.commitAs ctx v d.boundingGeometry
    let address ← Buildable.commitAs ctx v d.postalAddress
    let vertical ← Buildable.commitAs ctx v d.verticalExtent
    make ctx v ⟨identifier, box, geometry, address, vertical⟩ d.precedence d.order
      (← d.security.commitAs ctx v)

/-- The draft that leads to the component again. -/
def toDraft (c : GeospatialCoverage) : Draft :=
  { version := some c.version
    geographicIdentifier := (c.extents.geographicIdentifier.map (·.toDraft)).getD {}
    boundingBox := (c.extents.boundingBox.map (·.toDraft)).getD {}
    boundingGeometry := (c.extents.boundingGeometry.map (·.toDraft)).getD {}
    postalAddress := (c.extents.postalAddress.map (·.toDraft)).getD {}
    verticalExtent := (c.extents.verticalExtent.map (·.toDraft)).getD {}
    precedence := c.precedence
    order := c.order
    security := c.security.toDraft }

end GeospatialCoverage

end DiscoveryMetadata
