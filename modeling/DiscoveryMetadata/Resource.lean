import DiscoveryMetadata.Resource.Markings
import DiscoveryMetadata.Resource.TopLevel
/-
  Resources: the whole documents.

  A resource holds its components in the order of their kinds, whatever order they were given in.
  Its classification bounds those of its components, the security component aside.
-/
namespace DiscoveryMetadata

open Xml (Element Attribute)

/-- A resource. -/
structure Resource extends Base where
  components : List TopLevel
  markings : Markings
  security : SecurityAttributes
  notice : NoticeAttributes
  extensible : ExtensibleAttributes
  deriving BEq, Inhabited

namespace Resource

/-- The identifiers. -/
def identifiers (r : Resource) : List Identifier :=
  r.components.filterMap fun
    | .identifier c => some c
    | _ => none

/-- The captions of a kind. -/
def captions (r : Resource) (kind : Caption.Kind) : List Caption :=
  r.components.filterMap fun
    | .caption c => if c.kind = kind then some c else none
    | _ => none

/-- The titles. -/
def titles (r : Resource) : List Caption := r.captions .title

/-- The subtitles. -/
def subtitles (r : Resource) : List Caption := r.captions .subtitle

/-- The description. -/
def description? (r : Resource) : Option Caption := (r.captions .description).head?

/-- The producers in all roles. -/
def producers (r : Resource) : List ProducerRole :=
  r.components.filterMap fun
    | .producer c => some c
    | _ => none

/-- The producers in a role. -/
def producersIn (r : Resource) (kind : ProducerRole.Kind) : List ProducerRole :=
  r.producers.filter fun c => c.kind = kind

/-- The subject coverages. -/
def subjectCoverages (r : Resource) : List SubjectCoverage :=
  r.components.filterMap fun
    | .subject c => some c
    | _ => none

/-- The management of the resource. -/
def management? (r : Resource) : Option Management :=
  r.components.findSome? fun
    | .management c => some c
    | _ => none

/-- The security of the resource. -/
def security? (r : Resource) : Option Security :=
  r.components.findSome? fun
    | .security c => some c
    | _ => none

/-- The extensible elements. -/
def extensibleElements (r : Resource) : List ExtensibleElement :=
  r.components.filterMap fun
    | .extensible c => some c
    | _ => none

/-- The components other than the extensible elements. -/
def ddmsComponents (r : Resource) : List TopLevel :=
  r.components.filter fun
    | .extensible _ => false
    | _ => true

/-- The classification of a component, if it counts in the roll-up. -/
def countedClassification? (t : TopLevel) : Option String :=
  match t with
  | .security _ => none
  | _ => t.security?.bind fun a => if a.classification.isEmpty then none else some a.classification

/-- Refuses a classification under a resource with the classification `outer` that belongs to
another system or ranks higher. -/
def checkClassification (outer inner : String) : Outcome Unit := do
  match Marking.system? outer, Marking.system? inner with
  | some a, some b => demand (a = b) (.rule
      ("The security classification of a nested component is using a different marking system " ++
        "than the parent resource."))
  | _, _ => return ()
  forbid (0 ≤ Marking.rank outer && Marking.rank outer < Marking.rank inner) (.rule
    ("The security classification of a nested component is more restrictive than the " ++
      "classification of the resource."))

/-- Refuses components that are classified higher than the resource. -/
def checkRollup (r : Resource) : Outcome Unit :=
  (r.components.filterMap countedClassification?).forM
    (checkClassification r.security.classification)

/-- What is said of a resource without producers. -/
def missingProducer : Fault := .rule
  "At least 1 producer (creator, contributor, publisher, or pointOfContact) is required."

/-- The components that can stand in a resource once at most. -/
def singleNames : List String := ["description", "dates", "rights", "format", "resourceManagement"]

/-- The rules of a resource. -/
def rules (r : Resource) : Outcome Unit := do
  requireDdms r.element r.version (TopLevel.resourceName r.version)
  if r.version.atLeast .v3_0 then
    r.markings.check r.version
    r.security.requireClassification
  forbid r.identifiers.isEmpty (.rule "At least 1 identifier is required.")
  forbid r.titles.isEmpty (.rule "At least 1 title is required.")
  forbid r.producers.isEmpty missingProducer
  singleNames.forM fun name => requireChildren r.element name 0 1
  requireChildren r.element "subjectCoverage" 1 (if r.version.atLeast .v4_0_1 then unlimited else 1)
  requireChildren r.element "security" 1 1
  demand (r.version ≠ .v2_0 || r.extensibleElements.length ≤ 1)
    (.rule "Only 1 extensible element is allowed in DDMS 2.0.")
  if !r.security.isEmpty then r.checkRollup
  r.requireSameVersions (r.ddmsComponents.map (·.base))

/-- What is said of a resource without a classification. -/
def rollupSkipped (r : Resource) : String :=
  "Security rollup validation is being skipped, because no classification exists on the " ++
    r.writtenName ++ " itself."

/-- The warnings about the resource. -/
def findings (r : Resource) : List Finding :=
  r.warnIf r.security.isEmpty r.rollupSkipped ++ r.absorbAll (r.components.map (·.base)) ++
  r.absorb r.security.warnings ++ r.absorb r.notice.warnings

/-- The resource, if it keeps the rules, with the warnings about it. -/
def checked (r : Resource) : Outcome Resource := do
  r.check r.rules
  return { r with warnings := r.findings }

/-- Reads a resource. -/
def ofElement (ctx : Context) (v : Version) (e : Element) : Outcome Resource := do
  let markings ← within e.writtenName (Markings.ofElement v e)
  let components ← within e.writtenName (readAll TopLevel.ofElement ctx v e.children)
  let security ← within e.writtenName (SecurityAttributes.ofElement ctx v e)
  let notice ← within e.writtenName (NoticeAttributes.ofElement ctx v e)
  checked ⟨⟨e, v, []⟩, TopLevel.inOrder components, markings, security, notice, .ofElement v e⟩

/-- Reads a resource from its XML, in the version that its namespace tells. -/
def ofXml (ctx : Context) (xml : String) : Outcome Resource := do
  let e ← Element.ofXml xml
  ofElement ctx (← Version.ofUri ctx.current e.uri) e

/-- Makes a resource. -/
def make (ctx : Context) (v : Version) (components : List TopLevel) (markings : Markings)
    (security : SecurityAttributes) (notice : NoticeAttributes)
    (extensible : ExtensibleAttributes) : Outcome Resource := do
  let components := TopLevel.inOrder components
  let e := ctx.ddmsElement v (TopLevel.resourceName v)
  let e ← within e.writtenName do
    let e ← security.addTo ctx v (← markings.addTo ctx v e)
    extensible.addTo v (← notice.addTo ctx v e)
  checked ⟨⟨e.add (components.map (·.base.element)), v, []⟩, components, markings, security,
    notice, extensible⟩

/-- What the lines of a resource name as the program that wrote them. -/
def generator : String := "ddms-rs 0.1.0"

/-- The index of the component at `place`, among those that are written with the same name. -/
def indexOf (components : List TopLevel) (place : Nat) (t : TopLevel) : String :=
  let same := fun (ts : List TopLevel) =>
    (ts.filter fun s => s.base.writtenName == t.base.writtenName).length
  Line.index (same (components.take place)) (same components)

instance : Component Resource where
  base r := r.toBase
  security? r := some r.security
  lines r stem index :=
    let name := stem ++ index
    r.markings.lines name ++ r.security.lines name ++ r.notice.lines name ++
      r.extensible.lines name ++
      (r.components.zipIdx.flatMap fun (t, i) => t.lines name (indexOf r.components i t)) ++
      [⟨name ++ "extensible.layer", Text.ofTruth (!r.extensibleElements.isEmpty)⟩,
       ⟨name ++ "ddms.generator", generator⟩, ⟨name ++ "ddms.version", r.version.number⟩]
  output html r stem index :=
    let name := stem ++ index
    r.markings.output html name ++ r.security.output html name ++ r.notice.output html name ++
      r.extensible.output html name ++
      String.join (r.components.zipIdx.map fun (t, i) =>
        t.output html name (indexOf r.components i t)) ++
      Output.always html (name ++ "extensible.layer")
        (Text.ofTruth (!r.extensibleElements.isEmpty)) ++
      Output.always html (name ++ "ddms.generator") generator ++
      Output.always html (name ++ "ddms.version") r.version.number

/-- The contents of a resource to be made. -/
structure Draft where
  version : Option Version := none
  identifiers : List Identifier.Draft := []
  titles : List Caption.Draft := []
  subtitles : List Caption.Draft := []
  description : Caption.Draft := {}
  languages : List Language.Draft := []
  dates : Dates.Draft := {}
  rights : Rights.Draft := {}
  sources : List Source.Draft := []
  types : List ResourceType.Draft := []
  creators : List ProducerRole.Draft := []
  publishers : List ProducerRole.Draft := []
  contributors : List ProducerRole.Draft := []
  pointsOfContact : List ProducerRole.Draft := []
  format : Format.Draft := {}
  subjectCoverages : List SubjectCoverage.Draft := []
  virtualCoverages : List VirtualCoverage.Draft := []
  temporalCoverages : List TemporalCoverage.Draft := []
  geospatialCoverages : List GeospatialCoverage.Draft := []
  relatedResources : List RelatedResource.Draft := []
  management : Management.Draft := {}
  securityComponent : Security.Draft := {}
  extensibleElements : List ExtensibleElement.Draft := []
  markings : Markings := {}
  security : SecurityAttributes.Draft := {}
  noticeType : String := ""
  noticeReason : String := ""
  noticeDate : String := ""
  unregisteredNoticeType : String := ""
  externalNotice : Option Bool := none
  extensible : List Attribute := []
  deriving BEq, Inhabited

namespace Draft

/-- No notice attribute is given. -/
def noticeIsEmpty (d : Draft) : Bool :=
  d.noticeType.isEmpty && d.noticeReason.isEmpty && d.noticeDate.isEmpty &&
    d.unregisteredNoticeType.isEmpty && d.externalNotice.isNone

/-- No component is given. -/
def componentsAreEmpty (d : Draft) : Bool :=
  Buildable.allEmpty d.identifiers && Buildable.allEmpty d.titles &&
    Buildable.allEmpty d.subtitles && Buildable.isEmpty d.description &&
    Buildable.allEmpty d.languages && Buildable.isEmpty d.dates && Buildable.isEmpty d.rights &&
    Buildable.allEmpty d.sources && Buildable.allEmpty d.types && Buildable.allEmpty d.creators &&
    Buildable.allEmpty d.publishers && Buildable.allEmpty d.contributors &&
    Buildable.allEmpty d.pointsOfContact && Buildable.isEmpty d.format &&
    Buildable.allEmpty d.subjectCoverages && Buildable.allEmpty d.virtualCoverages &&
    Buildable.allEmpty d.temporalCoverages && Buildable.allEmpty d.geospatialCoverages &&
    Buildable.allEmpty d.relatedResources && Buildable.isEmpty d.management &&
    Buildable.isEmpty d.securityComponent && Buildable.allEmpty d.extensibleElements

/-- Makes the components of some drafts. -/
def gather {δ α : Type} [Buildable δ α] (ctx : Context) (v : Version) (wrap : α → TopLevel)
    (ds : List δ) : Outcome (List TopLevel) :=
  (Buildable.commitAll ctx v ds).map (List.map wrap)

/-- Makes the captions of a kind. -/
def gatherCaptions (ctx : Context) (v : Version) (kind : Caption.Kind) (ds : List Caption.Draft) :
    Outcome (List TopLevel) :=
  gather ctx v .caption (ds.map fun d => { d with kind })

/-- Makes the producers in a role. -/
def gatherProducers (ctx : Context) (v : Version) (kind : ProducerRole.Kind)
    (ds : List ProducerRole.Draft) : Outcome (List TopLevel) :=
  gather ctx v .producer (ds.map fun d => { d with kind })

/-- Makes all components, one kind after the other. -/
def commitComponents (ctx : Context) (v : Version) (d : Draft) : Outcome (List TopLevel) := do
  let groups ← [
    fun (_ : Unit) => gather ctx v .identifier d.identifiers,
    fun _ => gatherCaptions ctx v .title d.titles,
    fun _ => gatherCaptions ctx v .subtitle d.subtitles,
    fun _ => gatherCaptions ctx v .description [d.description],
    fun _ => gather ctx v .language d.languages,
    fun _ => gather ctx v .dates [d.dates],
    fun _ => gather ctx v .rights [d.rights],
    fun _ => gather ctx v .source d.sources,
    fun _ => gather ctx v .resourceType d.types,
    fun _ => gatherProducers ctx v .creator d.creators,
    fun _ => gatherProducers ctx v .publisher d.publishers,
    fun _ => gatherProducers ctx v .contributor d.contributors,
    fun _ => gatherProducers ctx v .pointOfContact d.pointsOfContact,
    fun _ => gather ctx v .format [d.format],
    fun _ => gather ctx v .subject d.subjectCoverages,
    fun _ => gather ctx v .virtual d.virtualCoverages,
    fun _ => gather ctx v .temporal d.temporalCoverages,
    fun _ => gather ctx v .geospatial d.geospatialCoverages,
    fun _ => gather ctx v .related d.relatedResources,
    fun _ => gather ctx v .management [d.management],
    fun _ => gather ctx v .security [d.securityComponent],
    fun _ => gather ctx v .extensible d.extensibleElements].mapM fun group => group ()
  return groups.flatten

end Draft

instance : Buildable Draft Resource where
  isEmpty d :=
    d.componentsAreEmpty && d.markings = {} && d.security.isEmpty && d.noticeIsEmpty &&
      d.extensible.isEmpty
  version? d := d.version
  build ctx v d := do
    let components ← d.commitComponents ctx v
    let notice ← NoticeAttributes.ofValues ctx v d.noticeType d.noticeReason d.noticeDate
      d.unregisteredNoticeType d.externalNotice
    let extensible ← ExtensibleAttributes.ofList v d.extensible
    let security ← d.security.commitAs ctx v
    make ctx v components d.markings security notice extensible

namespace Draft

/-- Adds the contents of a component after those that are there. -/
def adopt (d : Draft) (t : TopLevel) : Draft :=
  match t with
  | .identifier c => { d with identifiers := d.identifiers ++ [c.toDraft] }
  | .caption c =>
    match c.kind with
    | .title => { d with titles := d.titles ++ [c.toDraft] }
    | .subtitle => { d with subtitles := d.subtitles ++ [c.toDraft] }
    | .description => { d with description := c.toDraft }
  | .language c => { d with languages := d.languages ++ [c.toDraft] }
  | .dates c => { d with dates := c.toDraft }
  | .rights c => { d with rights := c.toDraft }
  | .source c => { d with sources := d.sources ++ [c.toDraft] }
  | .resourceType c => { d with types := d.types ++ [c.toDraft] }
  | .producer c =>
    match c.kind with
    | .creator => { d with creators := d.creators ++ [c.toDraft] }
    | .publisher => { d with publishers := d.publishers ++ [c.toDraft] }
    | .contributor => { d with contributors := d.contributors ++ [c.toDraft] }
    | .pointOfContact => { d with pointsOfContact := d.pointsOfContact ++ [c.toDraft] }
  | .format c => { d with format := c.toDraft }
  | .subject c => { d with subjectCoverages := d.subjectCoverages ++ [c.toDraft] }
  | .virtual c => { d with virtualCoverages := d.virtualCoverages ++ [c.toDraft] }
  | .temporal c => { d with temporalCoverages := d.temporalCoverages ++ [c.toDraft] }
  | .geospatial c => { d with geospatialCoverages := d.geospatialCoverages ++ [c.toDraft] }
  | .related c => { d with relatedResources := d.relatedResources ++ [c.toDraft] }
  | .management c => { d with management := c.toDraft }
  | .security c => { d with securityComponent := c.toDraft }
  | .extensible c => { d with extensibleElements := d.extensibleElements ++ [c.toDraft] }

end Draft

/-- The draft that leads to the resource again. -/
def toDraft (r : Resource) : Draft :=
  r.components.foldl Draft.adopt
    { version := some r.version
      markings := r.markings
      security := r.security.toDraft
      noticeType := r.notice.noticeType
      noticeReason := r.notice.noticeReason
      noticeDate := r.notice.noticeDate
      unregisteredNoticeType := r.notice.unregisteredNoticeType
      externalNotice := r.notice.externalNotice
      extensible := r.extensible.attributes }

end Resource

end DiscoveryMetadata
