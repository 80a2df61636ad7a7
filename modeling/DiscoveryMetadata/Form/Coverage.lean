import DiscoveryMetadata.Coverage.Geospatial
import DiscoveryMetadata.Coverage.Subject
import DiscoveryMetadata.Coverage.Temporal
import DiscoveryMetadata.Coverage.Virtual
import DiscoveryMetadata.Form.Record
/-
  The forms of what a resource covers: subjects, places, times and networks.
-/
namespace DiscoveryMetadata

open Data (Value)

/-- A bound of a period, from a form with its exact value or from the source of a date. -/
def TimeBound.ofForm (ctx : Context) (v : Value) : Outcome TimeBound :=
  match v.get? "exact" with
  | some value => .ok (.exact value.content)
  | none => (Form.readSource ApproximableDate.ofElement ctx v).map .approximate

/-- A bound of a period, as a form. -/
def TimeBound.toForm : TimeBound → Value
  | .exact value => .record [("exact", .text value)]
  | .approximate date => .record [("approximate", Form.nameOf date)]

open Form

instance : Form Keyword Keyword.Draft where
  read := Keyword.ofElement
  draft c := c.toDraft
  blank := {}
  contents c := [("value", .text c.value),
    ("extensible_attributes", c.extensible.toForm)]
  fill d v := do return { d with
    version := ← v.versionOver d.version
    value := v.textOver "value" d.value
    security := securityOver v d.security }
  make ctx v f := do
    let s ← security ctx f
    let extensible ← ExtensibleAttributes.ofForm (f.entry "extensible")
    Keyword.make ctx v (f.textAt "value") s extensible

instance : Form Category Category.Draft where
  read := Category.ofElement
  draft c := c.toDraft
  blank := {}
  contents c := [("qualifier", .text c.qualifier), ("code", .text c.code), ("label", .text c.label)]
  fill d v := do return { d with
    version := ← v.versionOver d.version
    qualifier := v.textOver "qualifier" d.qualifier
    code := v.textOver "code" d.code
    label := v.textOver "label" d.label
    security := securityOver v d.security }
  make ctx v f := do
    let s ← security ctx f
    let extensible ← ExtensibleAttributes.ofForm (f.entry "extensible")
    Category.make ctx v (f.textAt "qualifier") (f.textAt "code") (f.textAt "label") s extensible

instance : Form ProductionMetric ProductionMetric.Draft where
  read := ProductionMetric.ofElement
  draft c := c.toDraft
  blank := {}
  contents c := [("subject", .text c.subject), ("coverage", .text c.coverage)]
  fill d v := do return { d with
    version := ← v.versionOver d.version
    subject := v.textOver "subject" d.subject
    coverage := v.textOver "coverage" d.coverage
    security := securityOver v d.security }
  make ctx v f := do
    let s ← security ctx f
    ProductionMetric.make ctx v (f.textAt "subject") (f.textAt "coverage") s

instance : Form NonStateActor NonStateActor.Draft where
  read := NonStateActor.ofElement
  draft c := c.toDraft
  blank := {}
  contents c := [("value", .text c.value), ("order", integer c.order),
    ("qualifier", .text c.qualifier)]
  fill d v := do return { d with
    version := ← v.versionOver d.version
    value := v.textOver "value" d.value
    order := v.integerOver "order" d.order
    qualifier := v.textOver "qualifier" d.qualifier
    security := securityOver v d.security }
  make ctx v f := do
    let s ← security ctx f
    NonStateActor.make ctx v (f.textAt "value") (f.integerAt? "order") (f.textAt "qualifier") s

instance : Form SubjectCoverage SubjectCoverage.Draft where
  read := SubjectCoverage.ofElement
  draft c := c.toDraft
  blank := {}
  contents c := [("keywords", namesOf c.keywords), ("categories", namesOf c.categories),
    ("production_metrics", namesOf c.productionMetrics),
    ("non_state_actors", namesOf c.nonStateActors)]
  fill d v := do return { d with
    version := ← v.versionOver d.version
    keywords := ← draftsOver v "keywords" d.keywords
    categories := ← draftsOver v "categories" d.categories
    productionMetrics := ← draftsOver v "production_metrics" d.productionMetrics
    nonStateActors := ← draftsOver v "non_state_actors" d.nonStateActors
    security := securityOver v d.security }
  make ctx v f := do
    let keywords ← parts ctx f "keywords"
    let categories ← parts ctx f "categories"
    let metrics ← parts ctx f "production_metrics"
    let actors ← parts ctx f "non_state_actors"
    let s ← security ctx f
    SubjectCoverage.make ctx v keywords categories metrics actors s

instance : Form AreaCode AreaCode.Draft where
  read := AreaCode.ofElement .country
  draft c := c.toDraft
  blank := {}
  contents c := [("qualifier", .text c.qualifier), ("value", .text c.value)]
  fill d v := do return { d with
    version := ← v.versionOver d.version
    qualifier := v.textOver "qualifier" d.qualifier
    value := v.textOver "value" d.value }
  make ctx v f := AreaCode.make .country ctx v (f.textAt "qualifier") (f.textAt "value")

instance : Form FacilityIdentifier FacilityIdentifier.Draft where
  read := FacilityIdentifier.ofElement
  draft c := c.toDraft
  blank := {}
  contents c := [("be_number", .text c.beNumber), ("osuffix", .text c.osuffix)]
  fill d v := do return { d with
    version := ← v.versionOver d.version
    beNumber := v.textOver "be_number" d.beNumber
    osuffix := v.textOver "osuffix" d.osuffix }
  make ctx v f := FacilityIdentifier.make ctx v (f.textAt "be_number") (f.textAt "osuffix")

instance : Form GeographicIdentifier GeographicIdentifier.Draft where
  read := GeographicIdentifier.ofElement
  draft c := c.toDraft
  blank := {}
  contents c := [("names", .ofTexts c.names), ("regions", .ofTexts c.regions),
    ("country_code", nameOf? c.countryCode),
    ("sub_division_code", nameOf? c.subDivisionCode),
    ("facility_identifier", nameOf? c.facilityIdentifier),
    ("has_facility_identifier", .truth c.hasFacility)]
  fill d v := do return { d with
    version := ← v.versionOver d.version
    names := v.textsOver "names" d.names
    regions := v.textsOver "regions" d.regions
    countryCode := ← draftOver v "country_code" d.countryCode
    subDivisionCode := ← draftOver v "sub_division_code" d.subDivisionCode
    facilityIdentifier := ← draftOver v "facility_identifier" d.facilityIdentifier }
  make ctx v f := do
    let country ← optionalPart ctx f "country_code"
    let subDivision ← partBy (AreaCode.ofElement .subDivision) ctx f "sub_division_code"
    let facility ← optionalPart ctx f "facility_identifier"
    GeographicIdentifier.make ctx v (f.textsAt "names") (f.textsAt "regions") country subDivision
      facility

instance : Form BoundingBox BoundingBox.Draft where
  read := BoundingBox.ofElement
  draft c := c.toDraft
  blank := {}
  contents c := [("west_bl", double c.west), ("east_bl", double c.east),
    ("south_bl", double c.south), ("north_bl", double c.north)]
  fill d v := do return { d with
    version := ← v.versionOver d.version
    west := v.doubleOver "west_bl" d.west
    east := v.doubleOver "east_bl" d.east
    south := v.doubleOver "south_bl" d.south
    north := v.doubleOver "north_bl" d.north }
  make ctx v f :=
    BoundingBox.make ctx v (f.doubleAt "west_bl") (f.doubleAt "east_bl") (f.doubleAt "south_bl")
      (f.doubleAt "north_bl")

instance : Form PostalAddress PostalAddress.Draft where
  read := PostalAddress.ofElement
  draft c := c.toDraft
  blank := {}
  contents c := [("streets", .ofTexts c.streets), ("city", .text c.city), ("state", .text c.state),
    ("province", .text c.province), ("postal_code", .text c.postalCode),
    ("country_code", nameOf? c.countryCode)]
  fill d v := do return { d with
    version := ← v.versionOver d.version
    streets := v.textsOver "streets" d.streets
    city := v.textOver "city" d.city
    state := v.textOver "state" d.state
    province := v.textOver "province" d.province
    postalCode := v.textOver "postal_code" d.postalCode
    countryCode := ← draftOver v "country_code" d.countryCode }
  make ctx v f := do
    let country ← optionalPart ctx f "country_code"
    PostalAddress.make ctx v (f.textsAt "streets") (f.textAt "city") (f.textAt "state")
      (f.textAt "province") (f.textAt "postal_code") country

instance : Form VerticalExtent VerticalExtent.Draft where
  read := VerticalExtent.ofElement
  draft c := c.toDraft
  blank := {}
  contents c := [("min_vertical_extent", double c.minimum),
    ("max_vertical_extent", double c.maximum), ("unit_of_measure", .text c.unitOfMeasure),
    ("datum", .text c.datum)]
  fill d v := do return { d with
    version := ← v.versionOver d.version
    minimum := v.doubleOver "min_vertical_extent" d.minimum
    maximum := v.doubleOver "max_vertical_extent" d.maximum
    unitOfMeasure := v.textOver "unit_of_measure" d.unitOfMeasure
    datum := v.textOver "datum" d.datum }
  make ctx v f :=
    VerticalExtent.make ctx v (f.doubleAt "min") (f.doubleAt "max") (f.textAt "unit_of_measure")
      (f.textAt "datum")

instance : Form Position Position.Draft where
  read := Position.ofElement
  draft c := c.toDraft
  blank := {}
  contents c := [("coordinates", .list (c.coordinates.map .ofDouble)),
    ("coordinates_as_list", .text (Position.listText c.coordinates)),
    ("srs_attributes", c.srs.toForm)]
  fill d v := do return { d with
    version := ← v.versionOver d.version
    coordinates := v.readOver "coordinates" d.coordinates fun e => e.items.map (·.double?)
    srs := ← srsOver v d.srs }
  make ctx v f := do
    let srs ← SrsAttributes.ofForm (f.entry "srs")
    let coordinates := (f.entry "coordinates").items.map fun x => x.double?.getD ⟨0⟩
    Position.make ctx v coordinates srs

instance : Form Point Point.Draft where
  read := Point.ofElement
  draft c := c.toDraft
  blank := {}
  contents c := [("id", .text c.id), ("srs_attributes", c.srs.toForm),
    ("position", nameOf? c.position)]
  fill d v := do return { d with
    version := ← v.versionOver d.version
    id := v.textOver "id" d.id
    srs := ← srsOver v d.srs
    position := ← draftOver v "position" d.position }
  make ctx v f := do
    let position ← part ctx f "position"
    let srs ← SrsAttributes.ofForm (f.entry "srs")
    Point.make ctx v position srs (f.textAt "id")

instance : Form Polygon Polygon.Draft where
  read := Polygon.ofElement
  draft c := c.toDraft
  blank := {}
  contents c := [("id", .text c.id), ("srs_attributes", c.srs.toForm),
    ("positions", namesOf c.positions)]
  fill d v := do return { d with
    version := ← v.versionOver d.version
    id := v.textOver "id" d.id
    srs := ← srsOver v d.srs
    positions := ← draftsOver v "positions" d.positions }
  make ctx v f := do
    let positions ← parts ctx f "positions"
    let srs ← SrsAttributes.ofForm (f.entry "srs")
    Polygon.make ctx v positions srs (f.textAt "id")

instance : Form BoundingGeometry BoundingGeometry.Draft where
  read := BoundingGeometry.ofElement
  draft c := c.toDraft
  blank := {}
  contents c := [("polygons", namesOf c.polygons), ("points", namesOf c.points)]
  fill d v := do return { d with
    version := ← v.versionOver d.version
    polygons := ← draftsOver v "polygons" d.polygons
    points := ← draftsOver v "points" d.points }
  make ctx v f := do
    let polygons ← parts ctx f "polygons"
    let points ← parts ctx f "points"
    BoundingGeometry.make ctx v polygons points

instance : Form GeospatialCoverage GeospatialCoverage.Draft where
  read := GeospatialCoverage.ofElement
  draft c := c.toDraft
  blank := {}
  contents c := [("geographic_identifier", nameOf? c.extents.geographicIdentifier),
    ("bounding_box", nameOf? c.extents.boundingBox),
    ("bounding_geometry", nameOf? c.extents.boundingGeometry),
    ("postal_address", nameOf? c.extents.postalAddress),
    ("vertical_extent", nameOf? c.extents.verticalExtent),
    ("precedence", .text c.precedence), ("order", integer c.order),
    ("has_facility_identifier", .truth c.extents.hasFacility)]
  fill d v := do return { d with
    version := ← v.versionOver d.version
    geographicIdentifier := ← draftOver v "geographic_identifier" d.geographicIdentifier
    boundingBox := ← draftOver v "bounding_box" d.boundingBox
    boundingGeometry := ← draftOver v "bounding_geometry" d.boundingGeometry
    postalAddress := ← draftOver v "postal_address" d.postalAddress
    verticalExtent := ← draftOver v "vertical_extent" d.verticalExtent
    precedence := v.textOver "precedence" d.precedence
    order := v.integerOver "order" d.order
    security := securityOver v d.security }
  make ctx v f := do
    let geographicIdentifier ← optionalPart ctx f "geographic_identifier"
    let boundingBox ← optionalPart ctx f "bounding_box"
    let boundingGeometry ← optionalPart ctx f "bounding_geometry"
    let postalAddress ← optionalPart ctx f "postal_address"
    let verticalExtent ← optionalPart ctx f "vertical_extent"
    let s ← security ctx f
    GeospatialCoverage.make ctx v
      ⟨geographicIdentifier, boundingBox, boundingGeometry, postalAddress, verticalExtent⟩
      (f.textAt "precedence") (f.integerAt? "order") s

instance : Form TemporalCoverage TemporalCoverage.Draft where
  read := TemporalCoverage.ofElement
  draft c := c.toDraft
  blank := {}
  contents c := [("time_period_name", .text c.timePeriodName),
    ("start", .optional TimeBound.toForm c.start), ("end", .optional TimeBound.toForm c.finish),
    ("start_string", .text (TemporalCoverage.exactText c.start)),
    ("end_string", .text (TemporalCoverage.exactText c.finish))]
  fill d v := do return { d with
    version := ← v.versionOver d.version
    timePeriodName := v.textOver "time_period_name" d.timePeriodName
    startText := v.textOver "start_string" d.startText
    endText := v.textOver "end_string" d.endText
    approximableStart := ← draftOver v "approximable_start" d.approximableStart
    approximableEnd := ← draftOver v "approximable_end" d.approximableEnd
    security := securityOver v d.security }
  make ctx v f := do
    let start ← TimeBound.ofForm ctx (f.entry "start")
    let finish ← TimeBound.ofForm ctx (f.entry "end")
    let s ← security ctx f
    TemporalCoverage.make ctx v (f.textAt "time_period_name") start finish s

instance : Form VirtualCoverage VirtualCoverage.Draft where
  read := VirtualCoverage.ofElement
  draft c := c.toDraft
  blank := {}
  contents c := [("address", .text c.address), ("protocol", .text c.protocol)]
  fill d v := do return { d with
    version := ← v.versionOver d.version
    address := v.textOver "address" d.address
    protocol := v.textOver "protocol" d.protocol
    security := securityOver v d.security }
  make ctx v f := do
    let s ← security ctx f
    VirtualCoverage.make ctx v (f.textAt "address") (f.textAt "protocol") s

end DiscoveryMetadata
