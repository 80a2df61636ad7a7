import DiscoveryMetadata.Form.Record
import DiscoveryMetadata.Form.Role
import DiscoveryMetadata.Management
/-
  The forms of what is kept about the management of a resource.
-/
namespace DiscoveryMetadata

open Data (Value)

/-- The words for the kinds. -/
def ManagedText.Kind.words : List (String × ManagedText.Kind) :=
  [("applicationSoftware", .applicationSoftware), ("details", .details)]

open Form

instance : Form ManagedText ManagedText.Draft where
  read := ManagedText.ofElement
  draft c := c.toDraft
  blank := {}
  contents c := [("kind", .wordFor ManagedText.Kind.words c.kind), ("value", .text c.value)]
  fill d v := do return { d with
    version := ← v.versionOver d.version
    kind := v.wordOver ManagedText.Kind.words "kind" d.kind
    value := v.textOver "value" d.value
    security := securityOver v d.security }
  make ctx v f := do
    let s ← security ctx f
    ManagedText.make ctx v ((f.entry "kind").meaning ManagedText.Kind.words .applicationSoftware)
      (f.textAt "value") s

instance : Form TaskId TaskId.Draft where
  read := TaskId.ofElement
  draft c := c.toDraft
  blank := {}
  contents c := [("value", .text c.value), ("tasking_system", .text c.taskingSystem),
    ("network", .text c.network), ("other_network", .text c.otherNetwork),
    ("xlink_attributes", c.link.toForm)]
  fill d v := do return { d with
    version := ← v.versionOver d.version
    value := v.textOver "value" d.value
    taskingSystem := v.textOver "tasking_system" d.taskingSystem
    network := v.textOver "network" d.network
    otherNetwork := v.textOver "other_network" d.otherNetwork
    href := v.textOver "href" d.href
    role := v.textOver "role" d.role
    title := v.textOver "title" d.title
    arcrole := v.textOver "arcrole" d.arcrole
    show_ := v.textOver "show" d.show_
    actuate := v.textOver "actuate" d.actuate }
  make ctx v f := do
    let link ← LinkAttributes.ofForm (f.entry "xlink")
    TaskId.make ctx v (f.textAt "value") (f.textAt "tasking_system") (f.textAt "network")
      (f.textAt "other_network") link

instance : Form TaskingInfo TaskingInfo.Draft where
  read := TaskingInfo.ofElement
  draft c := c.toDraft
  blank := {}
  contents c := [("requester_infos", namesOf c.requesters), ("addressees", namesOf c.addressees),
    ("description", nameOf? c.description), ("task_id", nameOf? c.taskId)]
  fill d v := do return { d with
    version := ← v.versionOver d.version
    requesters := ← draftsOver v "requester_infos" d.requesters
    addressees := ← draftsOver v "addressees" d.addressees
    description := ← draftOver v "description" d.description
    taskId := ← draftOver v "task_id" d.taskId
    security := securityOver v d.security }
  make ctx v f := do
    let requesters ← parts ctx f "requester_infos"
    let addressees ← parts ctx f "addressees"
    let description ← optionalPart ctx f "description"
    let taskId ← part ctx f "task_id"
    let s ← security ctx f
    TaskingInfo.make ctx v requesters addressees description taskId s

instance : Form ProcessingInfo ProcessingInfo.Draft where
  read := ProcessingInfo.ofElement
  draft c := c.toDraft
  blank := {}
  contents c := [("value", .text c.value), ("date_processed", .text c.dateProcessed)]
  fill d v := do return { d with
    version := ← v.versionOver d.version
    value := v.textOver "value" d.value
    dateProcessed := v.textOver "date_processed" d.dateProcessed
    security := securityOver v d.security }
  make ctx v f := do
    let s ← security ctx f
    ProcessingInfo.make ctx v (f.textAt "value") (f.textAt "date_processed") s

instance : Form RevisionRecall RevisionRecall.Draft where
  read := RevisionRecall.ofElement
  draft c := c.toDraft
  blank := {}
  contents c := [("value", .text c.value), ("revision_id", integer c.revisionId),
    ("revision_type", .text c.revisionType), ("network", .text c.network),
    ("other_network", .text c.otherNetwork), ("links", namesOf c.links),
    ("details", namesOf c.details), ("xlink_attributes", c.link.toForm),
    ("has_nested_elements", .truth c.hasNested)]
  fill d v := do return { d with
    version := ← v.versionOver d.version
    value := v.textOver "value" d.value
    revisionId := v.integerOver "revision_id" d.revisionId
    revisionType := v.textOver "revision_type" d.revisionType
    network := v.textOver "network" d.network
    otherNetwork := v.textOver "other_network" d.otherNetwork
    links := ← draftsOver v "links" d.links
    details := ← draftsOver v "details" d.details
    role := v.textOver "role" d.role
    title := v.textOver "title" d.title
    label := v.textOver "label" d.label
    security := securityOver v d.security }
  make ctx v f := do
    let link ← LinkAttributes.ofForm (f.entry "xlink")
    let s ← security ctx f
    let nested := f.has "links" || f.has "details"
    let links ← parts ctx f "links"
    let details ← parts ctx f "details"
    RevisionRecall.make ctx v (if nested then "" else f.textAt "value") links details
      ((f.integerAt? "revision_id").getD 0) (f.textAt "revision_type") (f.textAt "network")
      (f.textAt "other_network") link s

instance : Form RecordKeeper RecordKeeper.Draft where
  read := RecordKeeper.ofElement
  draft c := c.toDraft
  blank := {}
  contents c := [("record_keeper_id", .text c.recordKeeperId),
    ("organization", nameOf? c.organization)]
  fill d v := do return { d with
    version := ← v.versionOver d.version
    recordKeeperId := v.textOver "record_keeper_id" d.recordKeeperId
    organization := ← draftOver v "organization" d.organization }
  make ctx v f := do
    let organization ← part ctx f "organization"
    RecordKeeper.make ctx v (f.textAt "record_keeper_id") organization

instance : Form RecordsInfo RecordsInfo.Draft where
  read := RecordsInfo.ofElement
  draft c := c.toDraft
  blank := {}
  contents c := [("record_keeper", nameOf? c.recordKeeper),
    ("application_software", nameOf? c.applicationSoftware),
    ("vital_record_indicator", .truth c.vitalRecord)]
  fill d v := do return { d with
    version := ← v.versionOver d.version
    recordKeeper := ← draftOver v "record_keeper" d.recordKeeper
    applicationSoftware := ← draftOver v "application_software" d.applicationSoftware
    vitalRecord := v.flagOver "vital_record_indicator" d.vitalRecord }
  make ctx v f := do
    let keeper ← optionalPart ctx f "record_keeper"
    let software ← optionalPart ctx f "application_software"
    RecordsInfo.make ctx v keeper software (f.entry "vital_record_indicator").isTrue

instance : Form Management Management.Draft where
  read := Management.ofElement
  draft c := c.toDraft
  blank := {}
  contents c := [("records_management_info", nameOf? c.recordsInfo),
    ("revision_recall", nameOf? c.revisionRecall),
    ("tasking_infos", namesOf c.taskingInfos), ("processing_infos", namesOf c.processingInfos)]
  fill d v := do return { d with
    version := ← v.versionOver d.version
    recordsInfo := ← draftOver v "records_management_info" d.recordsInfo
    revisionRecall := ← draftOver v "revision_recall" d.revisionRecall
    taskingInfos := ← draftsOver v "tasking_infos" d.taskingInfos
    processingInfos := ← draftsOver v "processing_infos" d.processingInfos
    security := securityOver v d.security }
  make ctx v f := do
    let records ← optionalPart ctx f "records_management_info"
    let revision ← optionalPart ctx f "revision_recall"
    let taskings ← parts ctx f "tasking_infos"
    let processings ← parts ctx f "processing_infos"
    let s ← security ctx f
    Management.make ctx v records revision taskings processings s

end DiscoveryMetadata
