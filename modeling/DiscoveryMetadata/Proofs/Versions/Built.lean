import DiscoveryMetadata.Proofs.Gates.Resource
import DiscoveryMetadata.Proofs.Versions.Coverages
import DiscoveryMetadata.Proofs.Versions.Management
import DiscoveryMetadata.Proofs.Versions.Read
import DiscoveryMetadata.Proofs.Versions.Records
/-
  All parts that there can be.

  A component comes about in one of two ways: it is read from an element, or made from parts that
  came about before, each perhaps for a version of its own and perhaps used in several places. So a
  part is `Built` if it is read, or if it is made and the parts in it are built. Groups of
  attributes are asked nothing.

  However a component comes about, it fits (`Built.fits`). So a built part has one version at every
  depth (`Built.reaches`).
-/
namespace DiscoveryMetadata

open Xml (Element)

namespace Part

/-- The part was made from its contents. Extensible elements can only be read. -/
def Made : Part → Prop
  | markings _ | attributes _ | noticeAttributes _ => True
  | resource c => ∃ ctx v ts m s n x, Resource.make ctx v ts m s n x = .ok c
  | identifier c => ∃ ctx v qualifier value, Identifier.make ctx v qualifier value = .ok c
  | caption c => ∃ ctx v kind value s, Caption.make ctx v kind value s = .ok c
  | language c => ∃ ctx v qualifier value, Language.make ctx v qualifier value = .ok c
  | dates c => ∃ ctx v acquiredOns values, Dates.make ctx v acquiredOns values = .ok c
  | approximableDate c => ∃ ctx v name description date approximation start finish,
      ApproximableDate.make ctx v name description date approximation start finish = .ok c
  | rights c => ∃ ctx v privacyAct intellectualProperty copyright,
      Rights.make ctx v privacyAct intellectualProperty copyright = .ok c
  | source c => ∃ ctx v qualifier value schemaQualifier schemaHref s,
      Source.make ctx v qualifier value schemaQualifier schemaHref s = .ok c
  | resourceType c => ∃ ctx v description qualifier value s,
      ResourceType.make ctx v description qualifier value s = .ok c
  | producerRole c => ∃ ctx v kind entity pocTypes s,
      ProducerRole.make ctx v kind entity pocTypes s = .ok c
  | organization c => ∃ ctx v contact subOrganizations acronym,
      Organization.make ctx v contact subOrganizations acronym = .ok c
  | subOrganization c => ∃ ctx v value s, SubOrganization.make ctx v value s = .ok c
  | person c => ∃ ctx v contact surname userId affiliation,
      Person.make ctx v contact surname userId affiliation = .ok c
  | namedEntity c => ∃ ctx v kind contact, NamedEntity.make ctx v kind contact = .ok c
  | format c => ∃ ctx v mimeType extent medium, Format.make ctx v mimeType extent medium = .ok c
  | extent c => ∃ ctx v qualifier value, Extent.make ctx v qualifier value = .ok c
  | subjectCoverage c => ∃ ctx v keywords categories metrics actors s,
      SubjectCoverage.make ctx v keywords categories metrics actors s = .ok c
  | keyword c => ∃ ctx v value s x, Keyword.make ctx v value s x = .ok c
  | category c => ∃ ctx v qualifier code label s x,
      Category.make ctx v qualifier code label s x = .ok c
  | productionMetric c => ∃ ctx v subject coverage s,
      ProductionMetric.make ctx v subject coverage s = .ok c
  | nonStateActor c => ∃ ctx v value order qualifier s,
      NonStateActor.make ctx v value order qualifier s = .ok c
  | virtualCoverage c => ∃ ctx v address protocol s,
      VirtualCoverage.make ctx v address protocol s = .ok c
  | temporalCoverage c => ∃ ctx v name start finish s,
      TemporalCoverage.make ctx v name start finish s = .ok c
  | geospatialCoverage c => ∃ ctx v extents precedence order s,
      GeospatialCoverage.make ctx v extents precedence order s = .ok c
  | geographicIdentifier c => ∃ ctx v names regions country subDivision facility,
      GeographicIdentifier.make ctx v names regions country subDivision facility = .ok c
  | areaCode c => ∃ kind ctx v qualifier value, AreaCode.make kind ctx v qualifier value = .ok c
  | facilityIdentifier c => ∃ ctx v beNumber osuffix,
      FacilityIdentifier.make ctx v beNumber osuffix = .ok c
  | boundingBox c => ∃ ctx v west east south north,
      BoundingBox.make ctx v west east south north = .ok c
  | boundingGeometry c => ∃ ctx v polygons points,
      BoundingGeometry.make ctx v polygons points = .ok c
  | polygon c => ∃ ctx v positions srs id, Polygon.make ctx v positions srs id = .ok c
  | point c => ∃ ctx v position srs id, Point.make ctx v position srs id = .ok c
  | position c => ∃ ctx v coordinates srs, Position.make ctx v coordinates srs = .ok c
  | postalAddress c => ∃ ctx v streets city state province postalCode country,
      PostalAddress.make ctx v streets city state province postalCode country = .ok c
  | verticalExtent c => ∃ ctx v minimum maximum unitOfMeasure datum,
      VerticalExtent.make ctx v minimum maximum unitOfMeasure datum = .ok c
  | relatedResource c => ∃ ctx v links relationship direction qualifier value s,
      RelatedResource.make ctx v links relationship direction qualifier value s = .ok c
  | link c => ∃ ctx v attributes s, Link.make ctx v attributes s = .ok c
  | management c => ∃ ctx v recordsInfo revisionRecall taskingInfos processingInfos s,
      Management.make ctx v recordsInfo revisionRecall taskingInfos processingInfos s = .ok c
  | recordsInfo c => ∃ ctx v recordKeeper software vital,
      RecordsInfo.make ctx v recordKeeper software vital = .ok c
  | recordKeeper c => ∃ ctx v id organization, RecordKeeper.make ctx v id organization = .ok c
  | managedText c => ∃ ctx v kind value s, ManagedText.make ctx v kind value s = .ok c
  | revisionRecall c => ∃ ctx v value links details id revisionType network otherNetwork l s,
      RevisionRecall.make ctx v value links details id revisionType network otherNetwork l s =
        .ok c
  | taskingInfo c => ∃ ctx v requesters addressees description taskId s,
      TaskingInfo.make ctx v requesters addressees description taskId s = .ok c
  | taskingRole c => ∃ ctx v kind entity s, TaskingRole.make ctx v kind entity s = .ok c
  | taskId c => ∃ ctx v value taskingSystem network otherNetwork l,
      TaskId.make ctx v value taskingSystem network otherNetwork l = .ok c
  | processingInfo c => ∃ ctx v value dateProcessed s,
      ProcessingInfo.make ctx v value dateProcessed s = .ok c
  | security c => ∃ ctx v noticeList access s, Security.make ctx v noticeList access s = .ok c
  | noticeList c => ∃ ctx v notices s, NoticeList.make ctx v notices s = .ok c
  | notice c => ∃ ctx v texts s n, Notice.make ctx v texts s n = .ok c
  | noticeText c => ∃ ctx v value pocTypes s, NoticeText.make ctx v value pocTypes s = .ok c
  | access c => ∃ ctx v individuals groups profileList s,
      Access.make ctx v individuals groups profileList s = .ok c
  | profileList c => ∃ ctx v profiles s, ProfileList.make ctx v profiles s = .ok c
  | accessEntity c => ∃ ctx v kind systemName values s,
      AccessEntity.make ctx v kind systemName values s = .ok c
  | accessText c => ∃ ctx v kind value vocabulary id idReference qualifier s,
      AccessText.make ctx v kind value vocabulary id idReference qualifier s = .ok c
  | extensible _ => False

/-- The part was read, or made from parts that came about before. -/
inductive Built : Part → Prop
  | read {p : Part} (h : Read p) : Built p
  | made {p : Part} (h : Made p) (below : ∀ q ∈ p.children, Built q) : Built p

theorem Read.fits {p : Part} (h : Read p) : Fits p := by
  cases p with
  | resource => exact ReadBy.elim h Resource.ofElement_fits
  | caption => exact ReadBy.elim h Caption.ofElement_fits
  | dates => exact ReadBy.elim h Dates.ofElement_fits
  | source => exact ReadBy.elim h Source.ofElement_fits
  | resourceType => exact ReadBy.elim h ResourceType.ofElement_fits
  | producerRole => exact ReadBy.elim h ProducerRole.ofElement_fits
  | organization => exact ReadBy.elim h Organization.ofElement_fits
  | subOrganization => exact ReadBy.elim h SubOrganization.ofElement_fits
  | format => exact ReadBy.elim h Format.ofElement_fits
  | subjectCoverage => exact ReadBy.elim h SubjectCoverage.ofElement_fits
  | keyword => exact ReadBy.elim h Keyword.ofElement_fits
  | category => exact ReadBy.elim h Category.ofElement_fits
  | productionMetric => exact ReadBy.elim h ProductionMetric.ofElement_fits
  | nonStateActor => exact ReadBy.elim h NonStateActor.ofElement_fits
  | virtualCoverage => exact ReadBy.elim h VirtualCoverage.ofElement_fits
  | temporalCoverage => exact ReadBy.elim h TemporalCoverage.ofElement_fits
  | geospatialCoverage => exact ReadBy.elim h GeospatialCoverage.ofElement_fits
  | geographicIdentifier => exact ReadBy.elim h GeographicIdentifier.ofElement_fits
  | boundingGeometry => exact ReadBy.elim h BoundingGeometry.ofElement_fits
  | polygon => exact ReadBy.elim h Polygon.ofElement_fits
  | point => exact ReadBy.elim h Point.ofElement_fits
  | postalAddress => exact ReadBy.elim h PostalAddress.ofElement_fits
  | relatedResource => exact ReadBy.elim h RelatedResource.ofElement_fits
  | link => exact ReadBy.elim h Link.ofElement_fits
  | management => exact ReadBy.elim h Management.ofElement_fits
  | recordsInfo => exact ReadBy.elim h RecordsInfo.ofElement_fits
  | recordKeeper => exact ReadBy.elim h RecordKeeper.ofElement_fits
  | managedText => exact ReadBy.elim h ManagedText.ofElement_fits
  | revisionRecall => exact ReadBy.elim h RevisionRecall.ofElement_fits
  | taskingInfo => exact ReadBy.elim h TaskingInfo.ofElement_fits
  | taskingRole => exact ReadBy.elim h TaskingRole.ofElement_fits
  | processingInfo => exact ReadBy.elim h ProcessingInfo.ofElement_fits
  | security => exact ReadBy.elim h Security.ofElement_fits
  | noticeList => exact ReadBy.elim h NoticeList.ofElement_fits
  | notice => exact ReadBy.elim h Notice.ofElement_fits
  | noticeText => exact ReadBy.elim h NoticeText.ofElement_fits
  | access => exact ReadBy.elim h Access.ofElement_fits
  | profileList => exact ReadBy.elim h ProfileList.ofElement_fits
  | accessEntity => exact ReadBy.elim h AccessEntity.ofElement_fits
  | accessText => exact ReadBy.elim h AccessText.ofElement_fits
  | _ => exact .leaf rfl rfl

theorem Made.fits {p : Part} (h : Made p) : Fits p := by
  cases p with
  | resource => obtain ⟨_, _, _, _, _, _, _, h⟩ := h; exact Resource.make_fits h
  | caption => obtain ⟨_, _, _, _, _, h⟩ := h; exact Caption.make_fits h
  | dates => obtain ⟨_, _, _, _, h⟩ := h; exact Dates.checked_fits h
  | source => obtain ⟨_, _, _, _, _, _, _, h⟩ := h; exact Source.make_fits h
  | resourceType => obtain ⟨_, _, _, _, _, _, h⟩ := h; exact ResourceType.make_fits h
  | producerRole => obtain ⟨_, _, _, _, _, _, h⟩ := h; exact ProducerRole.make_fits h
  | organization => obtain ⟨_, _, _, _, _, h⟩ := h; exact Organization.checked_fits h
  | subOrganization => obtain ⟨_, _, _, _, h⟩ := h; exact SubOrganization.make_fits h
  | format => obtain ⟨_, _, _, _, _, h⟩ := h; exact Format.checked_fits h
  | subjectCoverage => obtain ⟨_, _, _, _, _, _, _, h⟩ := h; exact SubjectCoverage.make_fits h
  | keyword => obtain ⟨_, _, _, _, _, h⟩ := h; exact Keyword.make_fits h
  | category => obtain ⟨_, _, _, _, _, _, _, h⟩ := h; exact Category.make_fits h
  | productionMetric => obtain ⟨_, _, _, _, _, h⟩ := h; exact ProductionMetric.make_fits h
  | nonStateActor => obtain ⟨_, _, _, _, _, _, h⟩ := h; exact NonStateActor.make_fits h
  | virtualCoverage => obtain ⟨_, _, _, _, _, h⟩ := h; exact VirtualCoverage.make_fits h
  | temporalCoverage => obtain ⟨_, _, _, _, _, _, h⟩ := h; exact TemporalCoverage.make_fits h
  | geospatialCoverage => obtain ⟨_, _, _, _, _, _, h⟩ := h; exact GeospatialCoverage.make_fits h
  | geographicIdentifier =>
    obtain ⟨_, _, _, _, _, _, _, h⟩ := h
    exact GeographicIdentifier.checked_fits h
  | boundingGeometry => obtain ⟨_, _, _, _, h⟩ := h; exact BoundingGeometry.checked_fits h
  | polygon => obtain ⟨_, _, _, _, _, h⟩ := h; exact Polygon.make_fits h
  | point => obtain ⟨_, _, _, _, _, h⟩ := h; exact Point.make_fits h
  | postalAddress => obtain ⟨_, _, _, _, _, _, _, _, h⟩ := h; exact PostalAddress.checked_fits h
  | relatedResource => obtain ⟨_, _, _, _, _, _, _, _, h⟩ := h; exact RelatedResource.make_fits h
  | link => obtain ⟨_, _, _, _, h⟩ := h; exact Link.make_fits h
  | management => obtain ⟨_, _, _, _, _, _, _, h⟩ := h; exact Management.make_fits h
  | recordsInfo => obtain ⟨_, _, _, _, _, h⟩ := h; exact RecordsInfo.checked_fits h
  | recordKeeper => obtain ⟨_, _, _, _, h⟩ := h; exact RecordKeeper.checked_fits h
  | managedText => obtain ⟨_, _, _, _, _, h⟩ := h; exact ManagedText.make_fits h
  | revisionRecall =>
    obtain ⟨_, _, _, _, _, _, _, _, _, _, _, h⟩ := h
    exact RevisionRecall.make_fits h
  | taskingInfo => obtain ⟨_, _, _, _, _, _, _, h⟩ := h; exact TaskingInfo.make_fits h
  | taskingRole => obtain ⟨_, _, _, _, _, h⟩ := h; exact TaskingRole.make_fits h
  | processingInfo => obtain ⟨_, _, _, _, _, h⟩ := h; exact ProcessingInfo.make_fits h
  | security => obtain ⟨_, _, _, _, _, h⟩ := h; exact Security.make_fits h
  | noticeList => obtain ⟨_, _, _, _, h⟩ := h; exact NoticeList.make_fits h
  | notice => obtain ⟨_, _, _, _, _, h⟩ := h; exact Notice.make_fits h
  | noticeText => obtain ⟨_, _, _, _, _, h⟩ := h; exact NoticeText.make_fits h
  | access => obtain ⟨_, _, _, _, _, _, h⟩ := h; exact Access.make_fits h
  | profileList => obtain ⟨_, _, _, _, h⟩ := h; exact ProfileList.make_fits h
  | accessEntity => obtain ⟨_, _, _, _, _, _, h⟩ := h; exact AccessEntity.make_fits h
  | accessText => obtain ⟨_, _, _, _, _, _, _, _, _, h⟩ := h; exact AccessText.make_fits h
  | _ => exact .leaf rfl rfl

namespace Built

variable {v : Version} {p q : Part}

theorem fits (h : Built p) : Fits p := by
  cases h with
  | read h => exact h.fits
  | made h _ => exact h.fits

theorem children (h : Built p) (hq : q ∈ p.children) : Built q := by
  cases h with
  | read h => exact .read (h.children q hq)
  | made _ below => exact below q hq

/-- One version is found at every depth. -/
theorem reaches (hp : Built p) (hv : p.version? = some v) (h : Reaches p q) : q.OfVersion v := by
  -- On the way down each part is built and agrees with the version; an empty group ends the way.
  suffices hq : Built q ∧ ∀ w ∈ q.version?, w = v by
    obtain ⟨hq, hw⟩ := hq
    cases hn : q.version? with
    | some w =>
      obtain rfl := hw w hn
      exact (hq.fits w hn).1
    | none => exact .of_version? hn
  induction h with
  | refl => exact ⟨hp, fun w hw => Option.some.inj (hw.symm.trans hv)⟩
  | @tail m q _ hq ih =>
    obtain ⟨hm, hw⟩ := ih
    refine ⟨hm.children hq, ?_⟩
    cases hn : m.version? with
    | some w =>
      obtain rfl := hw w hn
      exact (hm.fits w hn).2 q hq
    | none => simp [children_of_version? hn] at hq

end Built

end Part

namespace Resource

variable {ctx : Context} {v : Version}

/-- A resource is made of built components in the order in which they belong, and of groups. -/
theorem make_built {ts : List TopLevel} {m : Markings} {s : SecurityAttributes}
    {n : NoticeAttributes} {x : ExtensibleAttributes} {r : Resource}
    (hts : ∀ t ∈ ts, Part.Built (.ofTopLevel t)) (h : make ctx v ts m s n x = .ok r) :
    Part.Built (.resource r) ∧ r.version = v := by
  have hmade : Part.Made (.resource r) := ⟨ctx, v, ts, m, s, n, x, h⟩
  simp only [make, checked, bind_ok, within_ok, check_ok, pure_ok, exists_unit] at h
  obtain ⟨_, -, -, rfl⟩ := h
  refine ⟨.made hmade fun q hq => ?_, rfl⟩
  rcases List.mem_append.1 hq with hq | hq
  case inl =>
    simp only [List.mem_cons, List.not_mem_nil, or_false] at hq
    obtain rfl | rfl | rfl := hq <;> exact .read trivial
  case inr =>
    obtain ⟨t, ht, rfl⟩ := List.mem_map.1 hq
    exact hts t (TopLevel.mem_inOrder.1 ht)

/-- A resource has one version, whatever components it is made of: all parts at any depth have the
version that it is made for, and so have all groups of attributes that are not empty. -/
theorem made_of_version (ctx : Context) (v : Version) (ts : List TopLevel) (m : Markings)
    (s : SecurityAttributes) (n : NoticeAttributes) (x : ExtensibleAttributes) (r : Resource)
    (hts : ∀ t ∈ ts, Part.Built (.ofTopLevel t)) (h : make ctx v ts m s n x = .ok r) (p : Part)
    (hp : Part.Reaches (.resource r) p) : p.OfVersion v := by
  obtain ⟨hbuilt, hv⟩ := make_built hts h
  exact hbuilt.reaches (congrArg some hv) hp

/-- A resource can be made again from the components that were read. -/
theorem made_of_version_contacted : ∃ r r' : Resource,
    (∀ t ∈ r.components, Part.Built (.ofTopLevel t)) ∧
      make {} .v5_0 r.components r.markings r.security r.notice r.extensible = .ok r' ∧
      r'.components ≠ [] ∧ ∀ t ∈ r'.components, (Part.ofTopLevel t).OfVersion .v5_0 := by
  let again (r : Resource) : Option Resource :=
    (make {} .v5_0 r.components r.markings r.security r.notice r.extensible).toOption
  have hmade : ((((Buildable.commitAs {} .v5_0 contacted).toOption.bind id).bind fun r =>
      (ofElement {} .v5_0 r.element).toOption).bind again).map (·.components.isEmpty) =
        some false := by
    decide +kernel
  obtain ⟨r', hr', hne⟩ := Option.map_eq_some_iff.1 hmade
  obtain ⟨r, hr, hagain⟩ := Option.bind_eq_some_iff.1 hr'
  obtain ⟨r₀, -, hread⟩ := Option.bind_eq_some_iff.1 hr
  have hbuilt : ∀ t ∈ r.components, Part.Built (.ofTopLevel t) := fun t ht =>
    .read (ofElement_read (toOption_ok.1 hread) _ (List.mem_append_right _
      (List.mem_map_of_mem (f := Part.ofTopLevel) ht)))
  refine ⟨r, r', hbuilt, toOption_ok.1 hagain, by simpa using hne, fun t ht => ?_⟩
  refine made_of_version {} .v5_0 _ _ _ _ _ r' hbuilt (toOption_ok.1 hagain) _ (.single ?_)
  exact List.mem_append_right _ (List.mem_map_of_mem (f := Part.ofTopLevel) ht)

end Resource

end DiscoveryMetadata
