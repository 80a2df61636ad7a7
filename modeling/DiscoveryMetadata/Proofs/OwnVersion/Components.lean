import DiscoveryMetadata.Proofs.OwnVersion.Basic
import DiscoveryMetadata.Resource
/-
  The kinds of components that can stand in a resource, without the versions of their drafts.

  Where a kind has no parts but security attributes, nothing that is made of a draft reads either
  the version of the draft or the current one, and both laws hold by computation. Where it has
  parts, these are made one after the other, each for the version of the whole; so each step is the
  same, and with it the chain. A part whose draft is put right first, as one of the kind that its
  place asks for, is put right in the same way without its version.
-/
namespace DiscoveryMetadata

open Buildable

section Records

instance : Unversioned Identifier.Draft where
  unversioned d := { d with version := none }
  isEmpty_unversioned _ := rfl
  build_unversioned _ _ _ _ := rfl

instance : Unversioned Caption.Draft where
  unversioned d := { d with version := none, security := d.security.unversioned }
  isEmpty_unversioned _ := rfl
  build_unversioned _ _ _ _ := rfl

instance : Unversioned Language.Draft where
  unversioned d := { d with version := none }
  isEmpty_unversioned _ := rfl
  build_unversioned _ _ _ _ := rfl

instance : Unversioned ApproximableDate.Draft where
  unversioned d := { d with version := none }
  isEmpty_unversioned _ := rfl
  build_unversioned _ _ _ _ := rfl

instance : Unversioned Dates.Draft where
  unversioned d := { d with version := none, acquiredOns := d.acquiredOns.map unversioned }
  isEmpty_unversioned d := by
    simp only [isEmpty, allEmpty_unversioned]
  build_unversioned ctx c v d :=
    bind_same (commitAll_unversioned ctx c v d.acquiredOns) fun _ => rfl

instance : Unversioned Rights.Draft where
  unversioned d := { d with version := none }
  isEmpty_unversioned _ := rfl
  build_unversioned _ _ _ _ := rfl

instance : Unversioned Source.Draft where
  unversioned d := { d with version := none, security := d.security.unversioned }
  isEmpty_unversioned _ := rfl
  build_unversioned _ _ _ _ := rfl

instance : Unversioned ResourceType.Draft where
  unversioned d := { d with version := none, security := d.security.unversioned }
  isEmpty_unversioned _ := rfl
  build_unversioned _ _ _ _ := rfl

instance : Unversioned Extent.Draft where
  unversioned d := { d with version := none }
  isEmpty_unversioned _ := rfl
  build_unversioned _ _ _ _ := rfl

instance : Unversioned Format.Draft where
  unversioned d := { d with version := none, extent := unversioned d.extent }
  isEmpty_unversioned _ := rfl
  build_unversioned ctx c v d := bind_same (commitAs_unversioned ctx c v d.extent) fun _ => rfl

end Records

section Entities

instance : Unversioned SubOrganization.Draft where
  unversioned d := { d with version := none, security := d.security.unversioned }
  isEmpty_unversioned _ := rfl
  build_unversioned _ _ _ _ := rfl

instance : Unversioned Organization.Draft where
  unversioned d := { d with
    version := none
    subOrganizations := d.subOrganizations.map unversioned }
  isEmpty_unversioned d := by
    simp only [isEmpty, allEmpty_unversioned]
  build_unversioned ctx c v d :=
    bind_same (commitAll_unversioned ctx c v d.subOrganizations) fun _ => rfl

instance : Unversioned Person.Draft where
  unversioned d := { d with version := none }
  isEmpty_unversioned _ := rfl
  build_unversioned _ _ _ _ := rfl

instance : Unversioned NamedEntity.Draft where
  unversioned d := { d with version := none }
  isEmpty_unversioned _ := rfl
  build_unversioned _ _ _ _ := rfl

end Entities

section Roles

namespace ProducerRole.Draft

/-- The draft without its version and those of its entities and security attributes. -/
def unversioned (d : Draft) : Draft := { d with
  version := none
  organization := DiscoveryMetadata.unversioned d.organization
  person := DiscoveryMetadata.unversioned d.person
  named := DiscoveryMetadata.unversioned d.named
  security := d.security.unversioned }

theorem entityIsEmpty_unversioned (d : Draft) : d.unversioned.entityIsEmpty = d.entityIsEmpty := by
  have htype : d.unversioned.entityType = d.entityType := rfl
  unfold entityIsEmpty
  rw [htype]
  cases d.entityType with
  | organization => exact isEmpty_unversioned d.organization
  | _ => rfl

theorem commitEntity_unversioned (ctx : Context) (c v : Version) (d : Draft) :
    d.unversioned.commitEntity (ctx.assuming c) v = d.commitEntity ctx v := by
  have htype : d.unversioned.entityType = d.entityType := rfl
  unfold commitEntity
  rw [htype]
  cases d.entityType with
  | organization => exact bind_same (commitAs_unversioned ctx c v d.organization) fun _ => rfl
  | person => exact bind_same (commitAs_unversioned ctx c v d.person) fun _ => rfl
  | service =>
    exact bind_same (commitAs_unversioned ctx c v { d.named with kind := .service }) fun _ => rfl
  | unknown =>
    exact bind_same (commitAs_unversioned ctx c v { d.named with kind := .unknown }) fun _ => rfl

end ProducerRole.Draft

instance : Unversioned ProducerRole.Draft where
  unversioned := ProducerRole.Draft.unversioned
  isEmpty_unversioned d := by
    simp only [isEmpty, ProducerRole.Draft.entityIsEmpty_unversioned]
    rfl
  build_unversioned ctx c v d := by
    refine bind_same (d.commitEntity_unversioned ctx c v) fun entity => ?_
    cases entity <;> rfl

namespace TaskingRole.Draft

/-- The draft without its version and those of its entities and security attributes. -/
def unversioned (d : Draft) : Draft := { d with
  version := none
  organization := DiscoveryMetadata.unversioned d.organization
  person := DiscoveryMetadata.unversioned d.person
  security := d.security.unversioned }

theorem commitEntity_unversioned (ctx : Context) (c v : Version) (d : Draft) :
    d.unversioned.commitEntity (ctx.assuming c) v = d.commitEntity ctx v := by
  have htype : d.unversioned.entityType = d.entityType := rfl
  unfold commitEntity
  rw [htype]
  cases d.entityType with
  | organization => exact bind_same (commitAs_unversioned ctx c v d.organization) fun _ => rfl
  | person => exact bind_same (commitAs_unversioned ctx c v d.person) fun _ => rfl
  | _ => rfl

end TaskingRole.Draft

instance : Unversioned TaskingRole.Draft where
  unversioned := TaskingRole.Draft.unversioned
  isEmpty_unversioned d := by
    show (isEmpty (unversioned d.organization) && isEmpty (unversioned d.person) && _) = _
    rw [isEmpty_unversioned, isEmpty_unversioned]
    rfl
  build_unversioned ctx c v d := by
    refine bind_same (d.commitEntity_unversioned ctx c v) fun entity => ?_
    cases entity <;> rfl

end Roles

section Relations

instance : Unversioned Link.Draft where
  unversioned d := { d with version := none, security := d.security.unversioned }
  isEmpty_unversioned _ := rfl
  build_unversioned _ _ _ _ := rfl

instance : Unversioned RelatedResource.Draft where
  unversioned d := { d with
    version := none
    links := d.links.map unversioned
    security := d.security.unversioned }
  isEmpty_unversioned d := by
    simp only [isEmpty, allEmpty_unversioned]
    rfl
  build_unversioned ctx c v d := bind_same (commitAll_unversioned ctx c v d.links) fun _ => rfl

end Relations

section Subjects

instance : Unversioned Keyword.Draft where
  unversioned d := { d with version := none, security := d.security.unversioned }
  isEmpty_unversioned _ := rfl
  build_unversioned _ _ _ _ := rfl

instance : Unversioned Category.Draft where
  unversioned d := { d with version := none, security := d.security.unversioned }
  isEmpty_unversioned _ := rfl
  build_unversioned _ _ _ _ := rfl

instance : Unversioned ProductionMetric.Draft where
  unversioned d := { d with version := none, security := d.security.unversioned }
  isEmpty_unversioned _ := rfl
  build_unversioned _ _ _ _ := rfl

instance : Unversioned NonStateActor.Draft where
  unversioned d := { d with version := none, security := d.security.unversioned }
  isEmpty_unversioned _ := rfl
  build_unversioned _ _ _ _ := rfl

instance : Unversioned SubjectCoverage.Draft where
  unversioned d := { d with
    version := none
    keywords := d.keywords.map unversioned
    categories := d.categories.map unversioned
    productionMetrics := d.productionMetrics.map unversioned
    nonStateActors := d.nonStateActors.map unversioned
    security := d.security.unversioned }
  isEmpty_unversioned d := by
    simp only [isEmpty, allEmpty_unversioned]
    rfl
  build_unversioned ctx c v d := by
    refine bind_same (commitAll_unversioned ctx c v d.keywords) fun _ => ?_
    refine bind_same (commitAll_unversioned ctx c v d.categories) fun _ => ?_
    refine bind_same (commitAll_unversioned ctx c v d.productionMetrics) fun _ => ?_
    exact bind_same (commitAll_unversioned ctx c v d.nonStateActors) fun _ => rfl

instance : Unversioned VirtualCoverage.Draft where
  unversioned d := { d with version := none, security := d.security.unversioned }
  isEmpty_unversioned _ := rfl
  build_unversioned _ _ _ _ := rfl

namespace TemporalCoverage.Draft

theorem bound_unversioned (ctx : Context) (c v : Version) (text : String)
    (d : ApproximableDate.Draft) :
    bound (ctx.assuming c) v text (unversioned d) = bound ctx v text d := by
  unfold bound
  split
  · exact bind_same (commitAs_unversioned ctx c v d) fun _ => rfl
  · rfl

end TemporalCoverage.Draft

instance : Unversioned TemporalCoverage.Draft where
  unversioned d := { d with
    version := none
    approximableStart := unversioned d.approximableStart
    approximableEnd := unversioned d.approximableEnd
    security := d.security.unversioned }
  isEmpty_unversioned _ := rfl
  build_unversioned ctx c v d := by
    refine bind_same (TemporalCoverage.Draft.bound_unversioned ctx c v d.startText
      d.approximableStart) fun _ => ?_
    exact bind_same (TemporalCoverage.Draft.bound_unversioned ctx c v d.endText
      d.approximableEnd) fun _ => rfl

end Subjects

section Spaces

instance : Unversioned AreaCode.Draft where
  unversioned d := { d with version := none }
  isEmpty_unversioned _ := rfl
  build_unversioned _ _ _ _ := rfl

instance : Unversioned FacilityIdentifier.Draft where
  unversioned d := { d with version := none }
  isEmpty_unversioned _ := rfl
  build_unversioned _ _ _ _ := rfl

instance : Unversioned GeographicIdentifier.Draft where
  unversioned d := { d with
    version := none
    countryCode := unversioned d.countryCode
    subDivisionCode := unversioned d.subDivisionCode
    facilityIdentifier := unversioned d.facilityIdentifier }
  isEmpty_unversioned _ := rfl
  build_unversioned ctx c v d := by
    refine bind_same (commitAs_unversioned ctx c v { d.countryCode with kind := .country })
      fun _ => ?_
    refine bind_same (commitAs_unversioned ctx c v { d.subDivisionCode with kind := .subDivision })
      fun _ => ?_
    exact bind_same (commitAs_unversioned ctx c v d.facilityIdentifier) fun _ => rfl

instance : Unversioned BoundingBox.Draft where
  unversioned d := { d with version := none }
  isEmpty_unversioned _ := rfl
  build_unversioned _ _ _ _ := rfl

instance : Unversioned VerticalExtent.Draft where
  unversioned d := { d with version := none }
  isEmpty_unversioned _ := rfl
  build_unversioned _ _ _ _ := rfl

instance : Unversioned PostalAddress.Draft where
  unversioned d := { d with version := none, countryCode := unversioned d.countryCode }
  isEmpty_unversioned _ := rfl
  build_unversioned ctx c v d :=
    bind_same (commitAs_unversioned ctx c v { d.countryCode with kind := .country }) fun _ => rfl

instance : Unversioned Position.Draft where
  unversioned d := { d with version := none }
  isEmpty_unversioned _ := rfl
  build_unversioned _ _ _ _ := rfl

instance : Unversioned Point.Draft where
  unversioned d := { d with version := none, position := unversioned d.position }
  isEmpty_unversioned _ := rfl
  build_unversioned ctx c v d := by
    refine bind_same (commitAs_unversioned ctx c v d.position) fun position => ?_
    cases position <;> rfl

instance : Unversioned Polygon.Draft where
  unversioned d := { d with version := none, positions := d.positions.map unversioned }
  isEmpty_unversioned d := by
    simp only [isEmpty, allEmpty_unversioned]
  build_unversioned ctx c v d := bind_same (commitAll_unversioned ctx c v d.positions) fun _ => rfl

instance : Unversioned BoundingGeometry.Draft where
  unversioned d := { d with
    version := none
    polygons := d.polygons.map unversioned
    points := d.points.map unversioned }
  isEmpty_unversioned d := by
    simp only [isEmpty, allEmpty_unversioned]
  build_unversioned ctx c v d := by
    refine bind_same (commitAll_unversioned ctx c v d.polygons) fun _ => ?_
    exact bind_same (commitAll_unversioned ctx c v d.points) fun _ => rfl

instance : Unversioned GeospatialCoverage.Draft where
  unversioned d := { d with
    version := none
    geographicIdentifier := unversioned d.geographicIdentifier
    boundingBox := unversioned d.boundingBox
    boundingGeometry := unversioned d.boundingGeometry
    postalAddress := unversioned d.postalAddress
    verticalExtent := unversioned d.verticalExtent
    security := d.security.unversioned }
  isEmpty_unversioned d := by
    show (isEmpty (unversioned d.geographicIdentifier) && isEmpty (unversioned d.boundingBox) &&
      isEmpty (unversioned d.boundingGeometry) && isEmpty (unversioned d.postalAddress) &&
      isEmpty (unversioned d.verticalExtent) && _ && _ && _) = _
    simp only [isEmpty_unversioned]
    rfl
  build_unversioned ctx c v d := by
    refine bind_same (commitAs_unversioned ctx c v d.geographicIdentifier) fun _ => ?_
    refine bind_same (commitAs_unversioned ctx c v d.boundingBox) fun _ => ?_
    refine bind_same (commitAs_unversioned ctx c v d.boundingGeometry) fun _ => ?_
    refine bind_same (commitAs_unversioned ctx c v d.postalAddress) fun _ => ?_
    exact bind_same (commitAs_unversioned ctx c v d.verticalExtent) fun _ => rfl

end Spaces

section Management

instance : Unversioned ManagedText.Draft where
  unversioned d := { d with version := none, security := d.security.unversioned }
  isEmpty_unversioned _ := rfl
  build_unversioned _ _ _ _ := rfl

instance : Unversioned TaskId.Draft where
  unversioned d := { d with version := none }
  isEmpty_unversioned _ := rfl
  build_unversioned _ _ _ _ := rfl

instance : Unversioned TaskingInfo.Draft where
  unversioned d := { d with
    version := none
    requesters := d.requesters.map unversioned
    addressees := d.addressees.map unversioned
    description := unversioned d.description
    taskId := unversioned d.taskId
    security := d.security.unversioned }
  isEmpty_unversioned d := by
    simp only [isEmpty, allEmpty_unversioned]
    rfl
  build_unversioned ctx c v d := by
    refine bind_same (commitAll_unversioned_map (g := fun r => { r with kind := .requesterInfo })
      ctx c v (fun _ => rfl) d.requesters) fun _ => ?_
    refine bind_same (commitAll_unversioned_map (g := fun r => { r with kind := .addressee })
      ctx c v (fun _ => rfl) d.addressees) fun _ => ?_
    refine bind_same (commitAs_unversioned ctx c v d.taskId) fun taskId => ?_
    cases taskId with
    | none => rfl
    | some taskId =>
      -- the description is made once the task is known
      exact bind_same (commitAs_unversioned ctx c v { d.description with kind := .description })
        fun _ => rfl

instance : Unversioned ProcessingInfo.Draft where
  unversioned d := { d with version := none, security := d.security.unversioned }
  isEmpty_unversioned _ := rfl
  build_unversioned _ _ _ _ := rfl

instance : Unversioned RevisionRecall.Draft where
  unversioned d := { d with
    version := none
    links := d.links.map unversioned
    details := d.details.map unversioned
    security := d.security.unversioned }
  isEmpty_unversioned d := by
    simp only [isEmpty, allEmpty_unversioned]
    rfl
  build_unversioned ctx c v d := by
    simp only [build]
    cases d.revisionId with
    | none => rfl
    | some revisionId =>
      refine bind_same rfl fun _ => ?_
      refine bind_same (d.security.commitAs_unversioned ctx c v) fun _ => ?_
      refine bind_same (commitAll_unversioned ctx c v d.links) fun _ => ?_
      exact bind_same (commitAll_unversioned_map (g := fun t => { t with kind := .details })
        ctx c v (fun _ => rfl) d.details) fun _ => rfl

instance : Unversioned RecordKeeper.Draft where
  unversioned d := { d with version := none, organization := unversioned d.organization }
  isEmpty_unversioned d := by
    show (_ && isEmpty (unversioned d.organization)) = _
    rw [isEmpty_unversioned]
    rfl
  build_unversioned ctx c v d := by
    refine bind_same (commitAs_unversioned ctx c v d.organization) fun organization => ?_
    cases organization <;> rfl

instance : Unversioned RecordsInfo.Draft where
  unversioned d := { d with
    version := none
    recordKeeper := unversioned d.recordKeeper
    applicationSoftware := unversioned d.applicationSoftware }
  isEmpty_unversioned d := by
    show (isEmpty (unversioned d.recordKeeper) && isEmpty (unversioned d.applicationSoftware) && _) =
      _
    rw [isEmpty_unversioned, isEmpty_unversioned]
    rfl
  build_unversioned ctx c v d := by
    refine bind_same (commitAs_unversioned ctx c v d.recordKeeper) fun _ => ?_
    exact bind_same (commitAs_unversioned ctx c v
      { d.applicationSoftware with kind := .applicationSoftware }) fun _ => rfl

instance : Unversioned Management.Draft where
  unversioned d := { d with
    version := none
    recordsInfo := unversioned d.recordsInfo
    revisionRecall := unversioned d.revisionRecall
    taskingInfos := d.taskingInfos.map unversioned
    processingInfos := d.processingInfos.map unversioned
    security := d.security.unversioned }
  isEmpty_unversioned d := by
    show (isEmpty (unversioned d.recordsInfo) && isEmpty (unversioned d.revisionRecall) &&
      allEmpty (d.taskingInfos.map unversioned) && allEmpty (d.processingInfos.map unversioned) &&
      _) = _
    simp only [isEmpty_unversioned, allEmpty_unversioned]
    rfl
  build_unversioned ctx c v d := by
    refine bind_same (commitAs_unversioned ctx c v d.recordsInfo) fun _ => ?_
    refine bind_same (commitAs_unversioned ctx c v d.revisionRecall) fun _ => ?_
    refine bind_same (commitAll_unversioned ctx c v d.taskingInfos) fun _ => ?_
    exact bind_same (commitAll_unversioned ctx c v d.processingInfos) fun _ => rfl

end Management

section Protection

instance : Unversioned NoticeText.Draft where
  unversioned d := { d with version := none, security := d.security.unversioned }
  isEmpty_unversioned _ := rfl
  build_unversioned _ _ _ _ := rfl

instance : Unversioned Notice.Draft where
  unversioned d := { d with
    version := none
    texts := d.texts.map unversioned
    security := d.security.unversioned }
  isEmpty_unversioned d := by
    simp only [isEmpty, allEmpty_unversioned]
    rfl
  build_unversioned ctx c v d := by
    refine bind_same rfl fun _ => ?_
    exact bind_same (commitAll_unversioned ctx c v d.texts) fun _ => rfl

instance : Unversioned NoticeList.Draft where
  unversioned d := { d with
    version := none
    notices := d.notices.map unversioned
    security := d.security.unversioned }
  isEmpty_unversioned d := by
    simp only [isEmpty, allEmpty_unversioned]
    rfl
  build_unversioned ctx c v d := bind_same (commitAll_unversioned ctx c v d.notices) fun _ => rfl

instance : Unversioned AccessText.Draft where
  unversioned d := { d with version := none, security := d.security.unversioned }
  isEmpty_unversioned _ := rfl
  build_unversioned _ _ _ _ := rfl

instance : Unversioned AccessEntity.Draft where
  unversioned d := { d with
    version := none
    systemName := unversioned d.systemName
    values := d.values.map unversioned
    security := d.security.unversioned }
  isEmpty_unversioned d := by
    simp only [isEmpty, allEmpty_unversioned]
    rfl
  build_unversioned ctx c v d := by
    refine bind_same (commitAs_unversioned ctx c v { d.systemName with kind := .systemName })
      fun _ => ?_
    exact bind_same (commitAll_unversioned_map (g := fun t => { t with kind := d.kind.valueKind })
      ctx c v (fun _ => rfl) d.values) fun _ => rfl

/-- Entities are put right as those of their kind. -/
theorem AccessEntity.Draft.commitAll_allOf (ctx : Context) (c v : Version) (kind : Kind)
    (ds : List Draft) : commitAll (ctx.assuming c) v (allOf kind (ds.map unversioned)) =
      commitAll ctx v (allOf kind ds) :=
  commitAll_unversioned_map (g := fun d : Draft => { d with kind }) ctx c v (fun _ => rfl) ds

instance : Unversioned ProfileList.Draft where
  unversioned d := { d with
    version := none
    profiles := d.profiles.map unversioned
    security := d.security.unversioned }
  isEmpty_unversioned d := by
    simp only [isEmpty, allEmpty_unversioned]
    rfl
  build_unversioned ctx c v d :=
    bind_same (AccessEntity.Draft.commitAll_allOf ctx c v .profile d.profiles) fun _ => rfl

instance : Unversioned Access.Draft where
  unversioned d := { d with
    version := none
    individuals := d.individuals.map unversioned
    groups := d.groups.map unversioned
    profileList := unversioned d.profileList
    security := d.security.unversioned }
  isEmpty_unversioned d := by
    show (allEmpty (d.individuals.map unversioned) && allEmpty (d.groups.map unversioned) &&
      isEmpty (unversioned d.profileList) && _) = _
    simp only [isEmpty_unversioned, allEmpty_unversioned]
    rfl
  build_unversioned ctx c v d := by
    refine bind_same (AccessEntity.Draft.commitAll_allOf ctx c v .individual d.individuals)
      fun _ => ?_
    refine bind_same (AccessEntity.Draft.commitAll_allOf ctx c v .group d.groups) fun _ => ?_
    exact bind_same (commitAs_unversioned ctx c v d.profileList) fun _ => rfl

instance : Unversioned Security.Draft where
  unversioned d := { d with
    version := none
    noticeList := unversioned d.noticeList
    access := unversioned d.access
    security := d.security.unversioned }
  isEmpty_unversioned d := by
    show (isEmpty (unversioned d.noticeList) && isEmpty (unversioned d.access) && _) = _
    rw [isEmpty_unversioned, isEmpty_unversioned]
    rfl
  build_unversioned ctx c v d := by
    refine bind_same (commitAs_unversioned ctx c v d.noticeList) fun _ => ?_
    exact bind_same (commitAs_unversioned ctx c v d.access) fun _ => rfl

end Protection

instance : Unversioned ExtensibleElement.Draft where
  unversioned d := { d with version := none }
  isEmpty_unversioned _ := rfl
  build_unversioned _ _ _ _ := rfl

end DiscoveryMetadata
