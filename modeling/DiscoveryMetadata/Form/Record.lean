import DiscoveryMetadata.Form.Attributes
import DiscoveryMetadata.Record.Dates
import DiscoveryMetadata.Record.Format
import DiscoveryMetadata.Record.Plain
/-
  The forms of what a resource records of itself: names, dates, rights, sources, type and format.
-/
namespace DiscoveryMetadata

open Data (Value)

/-- The words for the kinds. -/
def Caption.Kind.words : List (String × Caption.Kind) :=
  [("title", .title), ("subtitle", .subtitle), ("description", .description)]

open Form

instance : Form Identifier Identifier.Draft where
  read := Identifier.ofElement
  draft c := c.toDraft
  blank := {}
  contents c := [("qualifier", .text c.qualifier), ("value", .text c.value)]
  fill d v := do return { d with
    version := ← v.versionOver d.version
    qualifier := v.textOver "qualifier" d.qualifier
    value := v.textOver "value" d.value }
  make ctx v f := Identifier.make ctx v (f.textAt "qualifier") (f.textAt "value")

instance : Form Caption Caption.Draft where
  read := Caption.ofElement
  draft c := c.toDraft
  blank := {}
  contents c := [("kind", .wordFor Caption.Kind.words c.kind), ("value", .text c.value)]
  fill d v := do return { d with
    version := ← v.versionOver d.version
    kind := v.wordOver Caption.Kind.words "kind" d.kind
    value := v.textOver "value" d.value
    security := securityOver v d.security }
  make ctx v f := do
    let s ← security ctx f
    Caption.make ctx v ((f.entry "kind").meaning Caption.Kind.words .title) (f.textAt "value") s

instance : Form Language Language.Draft where
  read := Language.ofElement
  draft c := c.toDraft
  blank := {}
  contents c := [("qualifier", .text c.qualifier), ("value", .text c.value)]
  fill d v := do return { d with
    version := ← v.versionOver d.version
    qualifier := v.textOver "qualifier" d.qualifier
    value := v.textOver "value" d.value }
  make ctx v f := Language.make ctx v (f.textAt "qualifier") (f.textAt "value")

instance : Form Rights Rights.Draft where
  read := Rights.ofElement
  draft c := c.toDraft
  blank := {}
  contents c := [("privacy_act", .truth c.privacyAct),
    ("intellectual_property", .truth c.intellectualProperty), ("copyright", .truth c.copyright)]
  fill d v := do return { d with
    version := ← v.versionOver d.version
    privacyAct := v.flagOver "privacy_act" d.privacyAct
    intellectualProperty := v.flagOver "intellectual_property" d.intellectualProperty
    copyright := v.flagOver "copyright" d.copyright }
  make ctx v f := Rights.make ctx v (f.entry "privacy_act").isTrue
    (f.entry "intellectual_property").isTrue (f.entry "copyright").isTrue

instance : Form Source Source.Draft where
  read := Source.ofElement
  draft c := c.toDraft
  blank := {}
  contents c := [("qualifier", .text c.qualifier), ("value", .text c.value),
    ("schema_qualifier", .text c.schemaQualifier), ("schema_href", .text c.schemaHref)]
  fill d v := do return { d with
    version := ← v.versionOver d.version
    qualifier := v.textOver "qualifier" d.qualifier
    value := v.textOver "value" d.value
    schemaQualifier := v.textOver "schema_qualifier" d.schemaQualifier
    schemaHref := v.textOver "schema_href" d.schemaHref
    security := securityOver v d.security }
  make ctx v f := do
    let s ← security ctx f
    Source.make ctx v (f.textAt "qualifier") (f.textAt "value") (f.textAt "schema_qualifier")
      (f.textAt "schema_href") s

instance : Form ResourceType ResourceType.Draft where
  read := ResourceType.ofElement
  draft c := c.toDraft
  blank := {}
  contents c := [("qualifier", .text c.qualifier), ("value", .text c.value),
    ("description", .text c.description)]
  fill d v := do return { d with
    version := ← v.versionOver d.version
    description := v.textOver "description" d.description
    qualifier := v.textOver "qualifier" d.qualifier
    value := v.textOver "value" d.value
    security := securityOver v d.security }
  make ctx v f := do
    let s ← security ctx f
    ResourceType.make ctx v (f.textAt "description") (f.textAt "qualifier") (f.textAt "value") s

instance : Form ApproximableDate ApproximableDate.Draft where
  read := ApproximableDate.ofElement
  draft c := c.toDraft
  blank := {}
  contents c := [("description", .text c.description), ("approximable_date", .text c.date),
    ("approximation", .text c.approximation), ("searchable_start", .text c.searchableStart),
    ("searchable_end", .text c.searchableEnd)]
  fill d v := do return { d with
    version := ← v.versionOver d.version
    name := v.textOver "name" d.name
    description := v.textOver "description" d.description
    date := v.textOver "approximable_date" d.date
    approximation := v.textOver "approximation" d.approximation
    searchableStart := v.textOver "searchable_start" d.searchableStart
    searchableEnd := v.textOver "searchable_end" d.searchableEnd }
  make ctx v f :=
    ApproximableDate.make ctx v (f.textAt "name") (f.textAt "description")
      (f.textAt "approximable_date") (f.textAt "approximation") (f.textAt "searchable_start")
      (f.textAt "searchable_end")

instance : Form Dates Dates.Draft where
  read := Dates.ofElement
  draft c := c.toDraft
  blank := {}
  contents c := [("acquired_ons", namesOf c.acquiredOns), ("created", .text c.values.created),
    ("posted", .text c.values.posted), ("valid_til", .text c.values.validTil),
    ("info_cut_off", .text c.values.infoCutOff), ("approved_on", .text c.values.approvedOn),
    ("received_on", .text c.values.receivedOn)]
  fill d v := do return { d with
    version := ← v.versionOver d.version
    acquiredOns := ← draftsOver v "acquired_ons" d.acquiredOns
    values := {
      created := v.textOver "created" d.values.created
      posted := v.textOver "posted" d.values.posted
      validTil := v.textOver "valid_til" d.values.validTil
      infoCutOff := v.textOver "info_cut_off" d.values.infoCutOff
      approvedOn := v.textOver "approved_on" d.values.approvedOn
      receivedOn := v.textOver "received_on" d.values.receivedOn } }
  make ctx v f := do
    let acquired ← parts ctx f "acquired_ons"
    let value := fun i => (f.textsAt "values").getD i ""
    Dates.make ctx v acquired ⟨value 0, value 1, value 2, value 3, value 4, value 5⟩

instance : Form Extent Extent.Draft where
  read := Extent.ofElement
  draft c := c.toDraft
  blank := {}
  contents c := [("qualifier", .text c.qualifier), ("value", .text c.value)]
  fill d v := do return { d with
    version := ← v.versionOver d.version
    qualifier := v.textOver "qualifier" d.qualifier
    value := v.textOver "value" d.value }
  make ctx v f := Extent.make ctx v (f.textAt "qualifier") (f.textAt "value")

instance : Form Format Format.Draft where
  read := Format.ofElement
  draft c := c.toDraft
  blank := {}
  contents c := [("mime_type", .text c.mimeType), ("extent", nameOf? c.extent),
    ("medium", .text c.medium)]
  fill d v := do return { d with
    version := ← v.versionOver d.version
    mimeType := v.textOver "mime_type" d.mimeType
    extent := ← draftOver v "extent" d.extent
    medium := v.textOver "medium" d.medium }
  make ctx v f := do
    let extent ← optionalPart ctx f "extent"
    Format.make ctx v (f.textAt "mime_type") extent (f.textAt "medium")

end DiscoveryMetadata
