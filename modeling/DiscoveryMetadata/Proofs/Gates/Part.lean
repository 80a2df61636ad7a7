import DiscoveryMetadata.Proofs.Outcome
import DiscoveryMetadata.Proofs.Text.Numeral
import DiscoveryMetadata.Resource
import Mathlib.Logic.Relation
/-
  The parts of a resource, and the versions that have them.

  `Part` is any component or group of attributes that can stand in a resource; `children` are those
  directly inside it, and `Reaches` those at any depth. `Allowed v p` says that version `v` has
  parts of this kind, and each field of `p` that is not empty.

  `Sound v p` says that `p` and all below it are allowed. It is closed under `children`, so what
  reading and making establish for one component after the other, from the inside outwards, holds
  at any depth (`Sound.reaches`).

  Of the parts, the groups of attributes are treated here. Security attributes are read and made in
  one way: the values found under the names of the definitions, each checked against its definition
  (`SecurityAttributes.sound`). Notice attributes and markings are checked as a whole.
-/
namespace DiscoveryMetadata

/-- The version lies between the first and the last that has the attribute. -/
def SecurityAttributes.Definition.Allows (d : SecurityAttributes.Definition) (v : Version) :
    Prop :=
  v.atLeast d.since ∧ ∀ last ∈ d.until_, last.atLeast v

/-- A component or a group of attributes, of those kinds that a resource can hold. Groups that are
the same in all versions are left out. -/
inductive Part where
  | resource (c : Resource)
  | markings (m : Markings)
  | attributes (a : SecurityAttributes)
  | noticeAttributes (a : NoticeAttributes)
  | identifier (c : Identifier)
  | caption (c : Caption)
  | language (c : Language)
  | dates (c : Dates)
  | approximableDate (c : ApproximableDate)
  | rights (c : Rights)
  | source (c : Source)
  | resourceType (c : ResourceType)
  | producerRole (c : ProducerRole)
  | organization (c : Organization)
  | subOrganization (c : SubOrganization)
  | person (c : Person)
  | namedEntity (c : NamedEntity)
  | format (c : Format)
  | extent (c : Extent)
  | subjectCoverage (c : SubjectCoverage)
  | keyword (c : Keyword)
  | category (c : Category)
  | productionMetric (c : ProductionMetric)
  | nonStateActor (c : NonStateActor)
  | virtualCoverage (c : VirtualCoverage)
  | temporalCoverage (c : TemporalCoverage)
  | geospatialCoverage (c : GeospatialCoverage)
  | geographicIdentifier (c : GeographicIdentifier)
  | areaCode (c : AreaCode)
  | facilityIdentifier (c : FacilityIdentifier)
  | boundingBox (c : BoundingBox)
  | boundingGeometry (c : BoundingGeometry)
  | polygon (c : Polygon)
  | point (c : Point)
  | position (c : Position)
  | postalAddress (c : PostalAddress)
  | verticalExtent (c : VerticalExtent)
  | relatedResource (c : RelatedResource)
  | link (c : Link)
  | management (c : Management)
  | recordsInfo (c : RecordsInfo)
  | recordKeeper (c : RecordKeeper)
  | managedText (c : ManagedText)
  | revisionRecall (c : RevisionRecall)
  | taskingInfo (c : TaskingInfo)
  | taskingRole (c : TaskingRole)
  | taskId (c : TaskId)
  | processingInfo (c : ProcessingInfo)
  | security (c : Security)
  | noticeList (c : NoticeList)
  | notice (c : Notice)
  | noticeText (c : NoticeText)
  | access (c : Access)
  | profileList (c : ProfileList)
  | accessEntity (c : AccessEntity)
  | accessText (c : AccessText)
  | extensible (c : ExtensibleElement)

namespace Part

/-- The entity of a producer as a part. -/
def ofProducer : Producer → Part
  | .organization o => organization o
  | .person p => person p
  | .named n => namedEntity n

/-- The entity in a tasking as a part. -/
def ofTaskingEntity : TaskingEntity → Part
  | .organization o => organization o
  | .person p => person p

/-- A component of a resource as a part. -/
def ofTopLevel : TopLevel → Part
  | .identifier c => identifier c
  | .caption c => caption c
  | .language c => language c
  | .dates c => dates c
  | .rights c => rights c
  | .source c => source c
  | .resourceType c => resourceType c
  | .producer c => producerRole c
  | .format c => format c
  | .subject c => subjectCoverage c
  | .virtual c => virtualCoverage c
  | .temporal c => temporalCoverage c
  | .geospatial c => geospatialCoverage c
  | .related c => relatedResource c
  | .management c => management c
  | .security c => security c
  | .extensible c => extensible c

/-- The ways to describe a space, as parts. -/
def ofExtents (x : GeospatialExtents) : List Part :=
  (x.geographicIdentifier.map geographicIdentifier).toList ++
    (x.boundingBox.map boundingBox).toList ++ (x.boundingGeometry.map boundingGeometry).toList ++
    (x.postalAddress.map postalAddress).toList ++ (x.verticalExtent.map verticalExtent).toList

/-- The parts directly inside a part. -/
def children : Part → List Part
  | resource c =>
    [markings c.markings, attributes c.security, noticeAttributes c.notice] ++
      c.components.map ofTopLevel
  | markings _ | attributes _ | noticeAttributes _ => []
  | identifier _ | language _ | approximableDate _ | rights _ | extent _ | extensible _ => []
  | caption c => [attributes c.security]
  | dates c => c.acquiredOns.map approximableDate
  | source c => [attributes c.security]
  | resourceType c => [attributes c.security]
  | producerRole c => attributes c.security :: (c.entity.map ofProducer).toList
  | organization c => c.subOrganizations.map subOrganization
  | subOrganization c => [attributes c.security]
  | person _ | namedEntity _ => []
  | format c => (c.extent.map extent).toList
  | subjectCoverage c =>
    attributes c.security :: c.keywords.map keyword ++ c.categories.map category ++
      c.productionMetrics.map productionMetric ++ c.nonStateActors.map nonStateActor
  | keyword c => [attributes c.security]
  | category c => [attributes c.security]
  | productionMetric c => [attributes c.security]
  | nonStateActor c => [attributes c.security]
  | virtualCoverage c => [attributes c.security]
  | temporalCoverage c =>
    attributes c.security ::
      ([c.start, c.finish].filterMap TemporalCoverage.date?).map approximableDate
  | geospatialCoverage c => attributes c.security :: ofExtents c.extents
  | geographicIdentifier c =>
    (c.countryCode.map areaCode).toList ++ (c.subDivisionCode.map areaCode).toList ++
      (c.facilityIdentifier.map facilityIdentifier).toList
  | areaCode _ | facilityIdentifier _ | boundingBox _ | position _ | verticalExtent _ => []
  | boundingGeometry c => c.polygons.map polygon ++ c.points.map point
  | polygon c => c.positions.map position
  | point c => (c.position.map position).toList
  | postalAddress c => (c.countryCode.map areaCode).toList
  | relatedResource c => attributes c.security :: c.links.map link
  | link c => [attributes c.security]
  | management c =>
    attributes c.security :: (c.recordsInfo.map recordsInfo).toList ++
      (c.revisionRecall.map revisionRecall).toList ++ c.taskingInfos.map taskingInfo ++
      c.processingInfos.map processingInfo
  | recordsInfo c =>
    (c.recordKeeper.map recordKeeper).toList ++ (c.applicationSoftware.map managedText).toList
  | recordKeeper c => (c.organization.map organization).toList
  | managedText c => [attributes c.security]
  | revisionRecall c =>
    attributes c.security :: c.links.map link ++ c.details.map managedText
  | taskingInfo c =>
    attributes c.security :: c.requesters.map taskingRole ++ c.addressees.map taskingRole ++
      (c.description.map caption).toList ++ (c.taskId.map taskId).toList
  | taskingRole c => attributes c.security :: (c.entity.map ofTaskingEntity).toList
  | taskId _ => []
  | processingInfo c => [attributes c.security]
  | security c =>
    attributes c.security :: (c.noticeList.map noticeList).toList ++ (c.access.map access).toList
  | noticeList c => attributes c.security :: c.notices.map notice
  | notice c => attributes c.security :: noticeAttributes c.notice :: c.texts.map noticeText
  | noticeText c => [attributes c.security]
  | access c =>
    attributes c.security :: c.individuals.map accessEntity ++ c.groups.map accessEntity ++
      (c.profileList.map profileList).toList
  | profileList c => attributes c.security :: c.profiles.map accessEntity
  | accessEntity c =>
    attributes c.security :: (c.systemName.map accessText).toList ++ c.values.map accessText
  | accessText c => [attributes c.security]

/-- The version has parts of this kind, and the fields of the part that are not empty. -/
def Allowed (v : Version) : Part → Prop
  | attributes a =>
    ∀ p ∈ a.values, ∃ d ∈ SecurityAttributes.definitions, d.name = p.1 ∧ d.Allows v
  | noticeAttributes a =>
    (a.isEmpty = false → v.atLeast .v4_0_1) ∧ (a.externalNotice ≠ none → v.atLeast .v5_0)
  | markings m => m.ntkVersion ≠ none → v.atLeast .v4_0_1
  | dates c =>
    (c.values.approvedOn ≠ "" → v.atLeast .v3_1) ∧
      (c.values.receivedOn ≠ "" → v.atLeast .v4_0_1)
  | source c => c.security.isEmpty = false → v.atLeast .v3_0
  | resourceType c =>
    (c.description ≠ "" → v.atLeast .v4_1) ∧ (c.security.isEmpty = false → v.atLeast .v4_1)
  | producerRole c => c.pocTypes ≠ [] → v.atLeast .v4_0_1
  | organization c => c.acronym ≠ "" → v.atLeast .v4_0_1
  | namedEntity c => c.kind = .unknown → v.atLeast .v4_0_1
  | keyword c =>
    (c.security.isEmpty = false → v.atLeast .v4_0_1) ∧
      (c.extensible.isEmpty = false → v.atLeast .v3_0)
  | category c =>
    (c.security.isEmpty = false → v.atLeast .v4_0_1) ∧
      (c.extensible.isEmpty = false → v.atLeast .v3_0)
  | subjectCoverage c => c.security.isEmpty = false → v.atLeast .v3_0
  | virtualCoverage c => c.security.isEmpty = false → v.atLeast .v3_0
  | temporalCoverage c => c.security.isEmpty = false → v.atLeast .v3_0
  | geospatialCoverage c =>
    (c.precedence ≠ "" → v.atLeast .v4_0_1) ∧ (c.order ≠ none → v.atLeast .v4_0_1) ∧
      (c.security.isEmpty = false → v.atLeast .v3_0)
  | areaCode c => c.kind = .subDivision → v.atLeast .v4_0_1
  | security c => c.excludeFromRollup ≠ none → v.atLeast .v3_0
  | taskId c => v.atLeast .v4_0_1 ∧ (c.otherNetwork ≠ "" → ¬ v.atLeast .v5_0)
  | subOrganization _ | productionMetric _ => v.atLeast .v4_0_1
  | management _ | recordsInfo _ | recordKeeper _ | managedText _ | revisionRecall _
  | taskingInfo _ | taskingRole _ | processingInfo _ => v.atLeast .v4_0_1
  | noticeList _ | notice _ | noticeText _ => v.atLeast .v4_0_1
  | access _ | profileList _ | accessEntity _ | accessText _ => v.atLeast .v4_0_1
  | approximableDate _ | nonStateActor _ => v.atLeast .v4_1
  | _ => True

/-- One part lies inside another, at any depth, or is the same. -/
def Reaches : Part → Part → Prop := Relation.ReflTransGen fun p q => q ∈ p.children

/-- The part and all parts below it are allowed. -/
inductive Sound (v : Version) : Part → Prop
  | intro {p : Part} (own : Allowed v p) (below : ∀ q ∈ p.children, Sound v q) : Sound v p

namespace Sound

variable {v : Version} {p q : Part}

theorem allowed : Sound v p → Allowed v p
  | intro own _ => own

theorem reaches (hp : Sound v p) (h : Reaches p q) : Sound v q := by
  induction h with
  | refl => exact hp
  | tail _ hq ih =>
    obtain ⟨-, below⟩ := ih
    exact below _ hq

end Sound

/-- All parts of a list are sound. -/
def AllSound (v : Version) (ps : List Part) : Prop := ∀ p ∈ ps, Sound v p

namespace AllSound

variable {v : Version} {p : Part} {ps qs : List Part} {α : Type} {f : α → Part}

theorem nil : AllSound v [] := by simp [AllSound]

theorem cons (hp : Sound v p) (hps : AllSound v ps) : AllSound v (p :: ps) :=
  List.forall_mem_cons.2 ⟨hp, hps⟩

theorem append (hp : AllSound v ps) (hq : AllSound v qs) : AllSound v (ps ++ qs) :=
  List.forall_mem_append.2 ⟨hp, hq⟩

theorem map {cs : List α} (h : ∀ c ∈ cs, Sound v (f c)) : AllSound v (cs.map f) :=
  List.forall_mem_map.2 h

theorem option {o : Option α} (h : ∀ c ∈ o, Sound v (f c)) : AllSound v (o.map f).toList := by
  cases o with
  | none => exact nil
  | some c => exact cons (h c rfl) nil

end AllSound

theorem Sound.of {v : Version} {p : Part} (own : Allowed v p) (below : AllSound v p.children) :
    Sound v p :=
  .intro own below

end Part

open Xml (Element)

section Checks

variable {v minimum : Version} {u : Unit}

@[simp]
theorem requireVersion_ok {subject : String} :
    requireVersion v minimum subject = .ok u ↔ v.atLeast minimum = true :=
  demand_ok

@[simp]
theorem requireSecuritySince_ok {security : SecurityAttributes} :
    requireSecuritySince v minimum security = .ok u ↔
      (security.isEmpty || v.atLeast minimum) = true :=
  demand_ok

@[simp]
theorem requireExtensibleSince_ok {localName : String} {extensible : ExtensibleAttributes} :
    requireExtensibleSince v localName extensible = .ok u ↔
      (extensible.isEmpty || v.atLeast .v3_0) = true :=
  demand_ok

/-- A version that has a namespace for need-to-know rules is one that has the rules. -/
theorem uriOf_ntk_ok {uri : String} (h : v.uriOf .ntk = .ok uri) : v.atLeast .v4_0_1 = true := by
  cases v <;> first | rfl | cases h

theorem requireIn_ntk_ok {e : Element} {localName : String}
    (h : requireIn e v .ntk localName = .ok u) : v.atLeast .v4_0_1 = true := by
  obtain ⟨uri, hu, -⟩ := bind_ok.1 h
  exact uriOf_ntk_ok hu

end Checks

namespace SecurityAttributes

variable {ctx : Context} {v : Version} {values : List (String × String)} {a : SecurityAttributes}

theorem Definition.allows_of_checkVersion {d : Definition} (h : d.checkVersion v = .ok ()) :
    d.Allows v := by
  simp only [checkVersion, bind_ok, exists_unit, requireVersion_ok] at h
  refine ⟨h.1, ?_⟩
  intro last hl
  have h := h.2
  rw [Option.mem_def.1 hl] at h
  by_cases hv : last.atLeast v = true
  · exact hv
  · simp only [if_neg hv] at h
    split at h <;> exact (throw_ok.1 h).elim

/-- A value in the place of a definition is one that was found under its name. -/
theorem mem_collect {find : String → Option String} {p : String × String}
    (h : p ∈ collect find) : ∃ d ∈ definitions, d.name = p.1 ∧ find d.name = some p.2 := by
  obtain ⟨d, hd, hp⟩ := List.mem_filterMap.1 h
  obtain ⟨value, hv, rfl⟩ := Option.map_eq_some_iff.1 hp
  exact ⟨d, hd, rfl, hv⟩

/-- All values that were checked are allowed. -/
theorem sound {find : String → Option String} (h : checked ctx v (collect find) = .ok a) :
    Part.Sound v (.attributes a) := by
  simp only [checked, check, bind_ok, pure_ok] at h
  obtain ⟨_, ⟨found, hf, rfl⟩, rfl⟩ := h
  refine .of ?_ .nil
  intro p hp
  obtain ⟨d, hd, hn, -⟩ := mem_collect hp
  refine ⟨d, hd, hn, ?_⟩
  have hl : ((collect find).lookup d.name).isSome :=
    List.lookup_isSome_iff.2 ⟨p, hp, by simp [hn]⟩
  obtain ⟨value, hl⟩ := Option.isSome_iff_exists.1 hl
  obtain ⟨ws, hws⟩ := mapM_mem hf hd
  simp only [hl, Definition.check, bind_ok, exists_unit] at hws
  exact Definition.allows_of_checkVersion hws.1

theorem ofElement_sound {e : Element} (h : ofElement ctx v e = .ok a) :
    Part.Sound v (.attributes a) :=
  sound h

theorem commitAs_sound {d : Draft} (h : d.commitAs ctx v = .ok a) :
    Part.Sound v (.attributes a) := by
  simp only [Draft.commitAs, ofValues, bind_ok] at h
  obtain ⟨_, -, h⟩ := h
  exact sound h

end SecurityAttributes

namespace NoticeAttributes

variable {ctx : Context} {v : Version} {a : NoticeAttributes}

theorem sound {c : NoticeAttributes} (hc : c.version = v) (h : checked ctx c = .ok a) :
    Part.Sound v (.noticeAttributes a) := by
  simp only [checked, bind_ok, pure_ok] at h
  obtain ⟨ws, hw, rfl⟩ := h
  refine .of ?_ .nil
  unfold check at hw
  by_cases he : c.isEmpty = true
  · have hx : c.externalNotice = none := by
      simp only [isEmpty, Bool.and_eq_true, Option.isNone_iff_eq_none] at he
      exact he.2
    exact ⟨fun hn => absurd (he.symm.trans hn) (by simp), fun hn => absurd hx hn⟩
  · simp only [if_neg he, bind_ok, exists_unit, demand_ok, hc, Bool.or_eq_true,
      Option.isNone_iff_eq_none] at hw
    obtain ⟨hv, _, -, -, -, -, hx, -⟩ := hw
    exact ⟨fun _ => hv, fun hn => hx.resolve_left hn⟩

theorem ofElement_sound {e : Element} (h : ofElement ctx v e = .ok a) :
    Part.Sound v (.noticeAttributes a) := by
  simp only [ofElement, ofValues, bind_ok] at h
  obtain ⟨_, -, h⟩ := h
  exact sound rfl h

theorem ofValues_sound {noticeType reason date unregistered : String} {external : Option Bool}
    (h : ofValues ctx v noticeType reason date unregistered external = .ok a) :
    Part.Sound v (.noticeAttributes a) :=
  sound rfl h

end NoticeAttributes

namespace Markings

variable {ctx : Context} {v : Version} {m : Markings} {e : Element}

theorem ofElement_sound (h : ofElement v e = .ok m) : Part.Sound v (.markings m) := by
  simp only [ofElement, bind_ok, pure_ok] at h
  obtain ⟨_, -, ntk, hn, _, -, rfl⟩ := h
  refine .of ?_ .nil
  intro hs
  unfold ntkVersionOf at hn
  cases hu : v.uriOf .ntk with
  | ok uri => exact uriOf_ntk_ok hu
  | error f =>
    rw [hu] at hn
    cases hn
    exact absurd rfl hs

/-- Markings that can be put on the element of a version are allowed by it. -/
theorem addTo_sound {e' : Element} (h : m.addTo ctx v e = .ok e') : Part.Sound v (.markings m) := by
  refine .of ?_ .nil
  intro hs
  obtain ⟨n, hn⟩ := Option.ne_none_iff_exists'.1 hs
  simp only [addTo, Context.putIn, hn, Option.map_some, Option.getD_some] at h
  rw [if_neg (by simpa using Text.intText_ne_empty n)] at h
  simp only [bind_ok, Context.nameIn] at h
  obtain ⟨_, ⟨uri, hu, -⟩, -⟩ := h
  exact uriOf_ntk_ok hu

end Markings

end DiscoveryMetadata
