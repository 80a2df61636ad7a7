import DiscoveryMetadata.Form.Coverage
import DiscoveryMetadata.Form.Management
import DiscoveryMetadata.Form.Protection
import DiscoveryMetadata.Resource
/-
  The forms of resources and of their components. The source of a component may name its type;
  without one it is read by the name of its element.
-/
namespace DiscoveryMetadata

open Data (Value)

/-- Markings of a resource, from a form. -/
def Markings.ofForm (v : Value) : Markings :=
  ⟨(v.entry "resource_element").truth?, v.textAt "create_date", v.integerAt? "ism_des_version",
    v.integerAt? "ntk_des_version"⟩

/-- Markings of a resource, by name. -/
def Markings.entries (m : Markings) : List (String × Value) :=
  [("resource_element", Form.truth m.resourceElement), ("create_date", .text m.createDate),
    ("ism_des_version", Form.integer m.ismVersion), ("ntk_des_version", Form.integer m.ntkVersion)]

/-- A component of a resource, from its source. -/
def TopLevel.ofForm (ctx : Context) (v : Value) : Outcome TopLevel :=
  match v.textAt "type" with
  | "identifier" => (Form.readSource Identifier.ofElement ctx v).map .identifier
  | "simpleString" => (Form.readSource Caption.ofElement ctx v).map .caption
  | "language" => (Form.readSource Language.ofElement ctx v).map .language
  | "dates" => (Form.readSource Dates.ofElement ctx v).map .dates
  | "rights" => (Form.readSource Rights.ofElement ctx v).map .rights
  | "source" => (Form.readSource Source.ofElement ctx v).map .source
  | "type" => (Form.readSource ResourceType.ofElement ctx v).map .resourceType
  | "producerRole" => (Form.readSource ProducerRole.ofElement ctx v).map .producer
  | "format" => (Form.readSource Format.ofElement ctx v).map .format
  | "subjectCoverage" => (Form.readSource SubjectCoverage.ofElement ctx v).map .subject
  | "virtualCoverage" => (Form.readSource VirtualCoverage.ofElement ctx v).map .virtual
  | "temporalCoverage" => (Form.readSource TemporalCoverage.ofElement ctx v).map .temporal
  | "geospatialCoverage" => (Form.readSource GeospatialCoverage.ofElement ctx v).map .geospatial
  | "relatedResource" => (Form.readSource RelatedResource.ofElement ctx v).map .related
  | "resourceManagement" => (Form.readSource Management.ofElement ctx v).map .management
  | "security" => (Form.readSource Security.ofElement ctx v).map .security
  | "extensibleElement" => (Form.readSource ExtensibleElement.ofElement ctx v).map .extensible
  | _ => Form.readSource TopLevel.ofElement ctx v

open Form

instance : Form ExtensibleElement ExtensibleElement.Draft where
  read := ExtensibleElement.ofElement
  draft c := c.toDraft
  blank := {}
  contents _ := []
  fill d v := do return { d with
    version := ← v.versionOver d.version
    xml := v.textOver "xml" d.xml }
  make ctx v f := ExtensibleElement.ofXml ctx v (f.textAt "xml")

instance : Form Resource Resource.Draft where
  read := Resource.ofElement
  draft c := c.toDraft
  blank := {}
  contents c := c.markings.entries ++ [("notice_attributes", c.notice.toForm),
    ("extensible_attributes", c.extensible.toForm),
    ("identifiers", namesOf c.identifiers), ("titles", namesOf c.titles),
    ("subtitles", namesOf c.subtitles), ("description", nameOf? c.description?),
    ("subject_coverages", namesOf c.subjectCoverages),
    ("resource_management", nameOf? c.management?), ("security", nameOf? c.security?)]
  fill d v := do
    let d := { d with
      version := ← v.versionOver d.version
      identifiers := ← draftsOver v "identifiers" d.identifiers
      titles := ← draftsOver v "titles" d.titles
      subtitles := ← draftsOver v "subtitles" d.subtitles
      description := ← draftOver v "description" d.description
      languages := ← draftsOver v "languages" d.languages
      dates := ← draftOver v "dates" d.dates
      rights := ← draftOver v "rights" d.rights
      sources := ← draftsOver v "sources" d.sources
      types := ← draftsOver v "types" d.types
      creators := ← draftsOver v "creators" d.creators
      publishers := ← draftsOver v "publishers" d.publishers
      contributors := ← draftsOver v "contributors" d.contributors
      pointsOfContact := ← draftsOver v "points_of_contact" d.pointsOfContact
      format := ← draftOver v "format" d.format }
    let d := { d with
      subjectCoverages := ← draftsOver v "subject_coverages" d.subjectCoverages
      virtualCoverages := ← draftsOver v "virtual_coverages" d.virtualCoverages
      temporalCoverages := ← draftsOver v "temporal_coverages" d.temporalCoverages
      geospatialCoverages := ← draftsOver v "geospatial_coverages" d.geospatialCoverages
      relatedResources := ← draftsOver v "related_resources" d.relatedResources
      management := ← draftOver v "resource_management" d.management
      securityComponent := ← draftOver v "security" d.securityComponent
      extensibleElements := ← draftsOver v "extensible_elements" d.extensibleElements }
    return { d with
      markings := v.readOver "markings" d.markings .ofForm
      noticeType := v.textOver "notice_type" d.noticeType
      noticeReason := v.textOver "notice_reason" d.noticeReason
      noticeDate := v.textOver "notice_date" d.noticeDate
      unregisteredNoticeType := v.textOver "unregistered_notice_type" d.unregisteredNoticeType
      externalNotice := v.truthOver "external_notice" d.externalNotice
      extensible := v.readOver "extensible_attributes" d.extensible fun e => e.items.map attributeOf
      security := securityOver v d.security }
  make ctx v f := do
    let components ← (f.entry "components").items.mapM (TopLevel.ofForm ctx)
    let markings := match (f.entry "create_date").text? with
      | some date => Markings.ofDate v date
      | none => .ofForm (f.entry "markings")
    let notice ← if f.has "notice" then NoticeAttributes.ofForm ctx (f.entry "notice")
      else .ok (.empty v)
    let extensible ← if f.has "extensible" then ExtensibleAttributes.ofForm (f.entry "extensible")
      else .ok (.empty v)
    let s ← security ctx f
    Resource.make ctx v components markings s notice extensible

end DiscoveryMetadata
