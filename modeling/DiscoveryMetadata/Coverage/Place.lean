import DiscoveryMetadata.Component.Basic
/-
  Places by name: codes of countries and of their subdivisions, identifiers of facilities, and the
  geographic identifier that gathers names, regions and codes. An identifier of a facility stands
  alone.
-/
namespace DiscoveryMetadata

open Xml (Element)

namespace AreaCode

/-- The areas that have codes. -/
inductive Kind where
  | country
  | subDivision
  deriving DecidableEq, Repr, Inhabited

namespace Kind

/-- The local name of the element. -/
def name : Kind → String
  | country => "countryCode"
  | subDivision => "subDivisionCode"

/-- The version that has the codes first. -/
def since : Kind → Version
  | country => .v2_0
  | subDivision => .v4_0_1

end Kind

end AreaCode

/-- The code of an area, and the system of codes it belongs to. -/
structure AreaCode extends Base where
  kind : AreaCode.Kind
  qualifier : String
  value : String
  deriving BEq, Inhabited

namespace AreaCode

/-- The rules of a code. -/
def rules (c : AreaCode) : Outcome Unit := do
  requireDdms c.element c.version c.kind.name
  requireValue "qualifier attribute" c.qualifier
  requireValue "value attribute" c.value
  requireVersion c.version c.kind.since ("ddms:" ++ c.kind.name ++ " element")

/-- Reads a code of the kind. -/
def ofElement (kind : Kind) (_ : Context) (v : Version) (e : Element) : Outcome AreaCode := do
  let c : AreaCode := ⟨⟨e, v, []⟩, kind, e.own "qualifier", e.own "value"⟩
  c.check c.rules
  return c

/-- Makes a code of the kind. -/
def make (kind : Kind) (ctx : Context) (v : Version) (qualifier value : String) :
    Outcome AreaCode :=
  ofElement kind ctx v (((ctx.ddmsElement v kind.name).put (ctx.ddmsName v "qualifier")
    qualifier).put (ctx.ddmsName v "value") value)

instance : Component AreaCode where
  base c := c.toBase
  security? _ := none
  lines c stem index :=
    let name := c.lineName stem index ++ "."
    Line.of (name ++ "qualifier") c.qualifier ++ Line.of (name ++ "value") c.value
  output html c stem index :=
    let name := c.lineName stem index ++ "."
    Output.entry html (name ++ "qualifier") c.qualifier ++
      Output.entry html (name ++ "value") c.value

/-- The contents of a code to be made. -/
structure Draft where
  version : Option Version := none
  kind : Kind := .country
  qualifier : String := ""
  value : String := ""
  deriving BEq, Inhabited

instance : Buildable Draft AreaCode where
  isEmpty d := allBlank [d.qualifier, d.value]
  version? d := d.version
  build ctx v d := make d.kind ctx v d.qualifier d.value

/-- The draft that leads to the component again. -/
def toDraft (c : AreaCode) : Draft := ⟨some c.version, c.kind, c.qualifier, c.value⟩

end AreaCode

/-- The identifier of a facility. -/
structure FacilityIdentifier extends Base where
  beNumber : String
  osuffix : String
  deriving BEq, Inhabited

namespace FacilityIdentifier

/-- The rules of an identifier. -/
def rules (c : FacilityIdentifier) : Outcome Unit := do
  requireDdms c.element c.version "facilityIdentifier"
  requireValue "beNumber attribute" c.beNumber
  requireValue "osuffix attribute" c.osuffix

/-- Reads an identifier. -/
def ofElement (_ : Context) (v : Version) (e : Element) : Outcome FacilityIdentifier := do
  let c : FacilityIdentifier := ⟨⟨e, v, []⟩, e.own "beNumber", e.own "osuffix"⟩
  c.check c.rules
  return c

/-- Makes an identifier. -/
def make (ctx : Context) (v : Version) (beNumber osuffix : String) : Outcome FacilityIdentifier :=
  ofElement ctx v (((ctx.ddmsElement v "facilityIdentifier").put (ctx.ddmsName v "beNumber")
    beNumber).put (ctx.ddmsName v "osuffix") osuffix)

instance : Component FacilityIdentifier where
  base c := c.toBase
  security? _ := none
  lines c stem index :=
    let name := c.lineName stem index ++ "."
    Line.of (name ++ "beNumber") c.beNumber ++ Line.of (name ++ "osuffix") c.osuffix
  output html c stem index :=
    let name := c.lineName stem index ++ "."
    Output.entry html (name ++ "beNumber") c.beNumber ++
      Output.entry html (name ++ "osuffix") c.osuffix

/-- The contents of an identifier to be made. -/
structure Draft where
  version : Option Version := none
  beNumber : String := ""
  osuffix : String := ""
  deriving BEq, Inhabited

instance : Buildable Draft FacilityIdentifier where
  isEmpty d := allBlank [d.beNumber, d.osuffix]
  version? d := d.version
  build ctx v d := make ctx v d.beNumber d.osuffix

/-- The draft that leads to the component again. -/
def toDraft (c : FacilityIdentifier) : Draft := ⟨some c.version, c.beNumber, c.osuffix⟩

end FacilityIdentifier

/-- A place by names, regions and codes, or by the facility that is there. -/
structure GeographicIdentifier extends Base where
  names : List String
  regions : List String
  countryCode : Option AreaCode
  subDivisionCode : Option AreaCode
  facilityIdentifier : Option FacilityIdentifier
  deriving BEq, Inhabited

namespace GeographicIdentifier

/-- The parts of the identifier other than the facility. -/
def codes (c : GeographicIdentifier) : List Base :=
  (c.countryCode.map (·.toBase)).toList ++ (c.subDivisionCode.map (·.toBase)).toList

/-- The parts of the identifier. -/
def parts (c : GeographicIdentifier) : List Base :=
  c.codes ++ (c.facilityIdentifier.map (·.toBase)).toList

/-- The identifier is that of a facility. -/
def hasFacility (c : GeographicIdentifier) : Bool := c.facilityIdentifier.isSome

/-- There is nothing besides a facility. -/
def isNameless (c : GeographicIdentifier) : Bool :=
  c.names.isEmpty && c.regions.isEmpty && c.codes.isEmpty

/-- What is said of an identifier without content. -/
def nothingThere : Fault := .rule
  "At least 1 of name, region, countryCode, subDivisionCode, or facilityIdentifier must exist."

/-- The rules of a geographic identifier. -/
def rules (c : GeographicIdentifier) : Outcome Unit := do
  requireDdms c.element c.version "geographicIdentifier"
  forbid (c.isNameless && !c.hasFacility) nothingThere
  ["countryCode", "subDivisionCode", "facilityIdentifier"].forM fun name =>
    requireChildren c.element name 0 1
  demand (c.isNameless || !c.hasFacility)
    (.rule "facilityIdentifier cannot be used in tandem with other components.")
  c.requireSameVersions c.parts

/-- The warnings about the identifier. -/
def findings (c : GeographicIdentifier) : List Finding :=
  c.absorbAll c.parts

/-- The identifier, if it keeps the rules, with the warnings about it. -/
def checked (c : GeographicIdentifier) : Outcome GeographicIdentifier := do
  c.check c.rules
  return { c with warnings := c.findings }

/-- Reads an identifier. -/
def ofElement (ctx : Context) (v : Version) (e : Element) : Outcome GeographicIdentifier := do
  let country ← within e.writtenName
    (readOption (AreaCode.ofElement .country) ctx v (e.ownChild? "countryCode"))
  let subDivision ← within e.writtenName
    (readOption (AreaCode.ofElement .subDivision) ctx v (e.ownChild? "subDivisionCode"))
  let facility ← within e.writtenName
    (readOption FacilityIdentifier.ofElement ctx v (e.ownChild? "facilityIdentifier"))
  let texts := e.childTexts e.uri
  checked ⟨⟨e, v, []⟩, texts "name", texts "region", country, subDivision, facility⟩

/-- Makes an identifier. -/
def make (ctx : Context) (v : Version) (names regions : List String) (country : Option AreaCode)
    (subDivision : Option AreaCode) (facility : Option FacilityIdentifier) :
    Outcome GeographicIdentifier :=
  let e := (ctx.ddmsElement v "geographicIdentifier").add
    (names.map (ctx.textElement v "name") ++ regions.map (ctx.textElement v "region") ++
      (country.map (·.element)).toList ++ (subDivision.map (·.element)).toList ++
      (facility.map (·.element)).toList)
  checked ⟨⟨e, v, []⟩, names, regions, country, subDivision, facility⟩

/-- Makes the identifier of a facility. -/
def ofFacility (ctx : Context) (v : Version) (facility : FacilityIdentifier) :
    Outcome GeographicIdentifier := make ctx v [] [] none none (some facility)

instance : Component GeographicIdentifier where
  base c := c.toBase
  security? _ := none
  lines c stem index :=
    let name := c.lineName stem index ++ "."
    Line.ofAll (name ++ "name") c.names ++ Line.ofAll (name ++ "region") c.regions ++
      Component.linesOfOption c.countryCode name ++
      Component.linesOfOption c.subDivisionCode name ++
      Component.linesOfOption c.facilityIdentifier name
  output html c stem index :=
    let name := c.lineName stem index ++ "."
    Output.entries html (name ++ "name") c.names ++
      Output.entries html (name ++ "region") c.regions ++
      Component.outputOfOption html c.countryCode name ++
      Component.outputOfOption html c.subDivisionCode name ++
      Component.outputOfOption html c.facilityIdentifier name

/-- The contents of an identifier to be made. -/
structure Draft where
  version : Option Version := none
  names : List String := []
  regions : List String := []
  countryCode : AreaCode.Draft := {}
  subDivisionCode : AreaCode.Draft := { kind := .subDivision }
  facilityIdentifier : FacilityIdentifier.Draft := {}
  deriving BEq, Inhabited

instance : Buildable Draft GeographicIdentifier where
  isEmpty d :=
    allBlank d.names && allBlank d.regions && Buildable.isEmpty d.countryCode &&
      Buildable.isEmpty d.subDivisionCode && Buildable.isEmpty d.facilityIdentifier
  version? d := d.version
  build ctx v d := do
    let country ← Buildable.commitAs ctx v { d.countryCode with kind := .country }
    let subDivision ← Buildable.commitAs ctx v { d.subDivisionCode with kind := .subDivision }
    let facility ← Buildable.commitAs ctx v d.facilityIdentifier
    make ctx v (dropBlank d.names) (dropBlank d.regions) country subDivision facility

/-- The draft that leads to the component again. -/
def toDraft (c : GeographicIdentifier) : Draft :=
  let d : Draft := { version := some c.version, names := c.names, regions := c.regions }
  { d with
    countryCode := (c.countryCode.map (·.toDraft)).getD d.countryCode
    subDivisionCode := (c.subDivisionCode.map (·.toDraft)).getD d.subDivisionCode
    facilityIdentifier := (c.facilityIdentifier.map (·.toDraft)).getD {} }

end GeographicIdentifier

end DiscoveryMetadata
