import DiscoveryMetadata.Proofs.Gates.Part
import DiscoveryMetadata.Proofs.Rules
import DiscoveryMetadata.Proofs.Outcome
/-
  Components that are read from an element hold components that are read.

  A reader gives what it finds in the element to readers of other kinds, and keeps what they give.
  So `Read`, which says of a part that some reader gives it, is closed under `children`
  (`Read.children`).
-/
namespace DiscoveryMetadata

open Xml (Element)

namespace Part

/-- The component is what a reader gives for some element. -/
def ReadBy {α : Type} (read : Context → Version → Element → Outcome α) (c : α) : Prop :=
  ∃ ctx v e, read ctx v e = .ok c

theorem ReadBy.elim {α : Type} {read : Context → Version → Element → Outcome α} {c : α} {Q : Prop}
    (h : ReadBy read c) (hq : ∀ {ctx v e}, read ctx v e = .ok c → Q) : Q := by
  obtain ⟨_, _, _, hc⟩ := h
  exact hq hc

/-- The part was read from an element. -/
def Read : Part → Prop
  | markings _ | attributes _ | noticeAttributes _ => True
  | resource c => ReadBy Resource.ofElement c
  | identifier c => ReadBy Identifier.ofElement c
  | caption c => ReadBy Caption.ofElement c
  | language c => ReadBy Language.ofElement c
  | dates c => ReadBy Dates.ofElement c
  | approximableDate c => ReadBy ApproximableDate.ofElement c
  | rights c => ReadBy Rights.ofElement c
  | source c => ReadBy Source.ofElement c
  | resourceType c => ReadBy ResourceType.ofElement c
  | producerRole c => ReadBy ProducerRole.ofElement c
  | organization c => ReadBy Organization.ofElement c
  | subOrganization c => ReadBy SubOrganization.ofElement c
  | person c => ReadBy Person.ofElement c
  | namedEntity c => ReadBy NamedEntity.ofElement c
  | format c => ReadBy Format.ofElement c
  | extent c => ReadBy Extent.ofElement c
  | subjectCoverage c => ReadBy SubjectCoverage.ofElement c
  | keyword c => ReadBy Keyword.ofElement c
  | category c => ReadBy Category.ofElement c
  | productionMetric c => ReadBy ProductionMetric.ofElement c
  | nonStateActor c => ReadBy NonStateActor.ofElement c
  | virtualCoverage c => ReadBy VirtualCoverage.ofElement c
  | temporalCoverage c => ReadBy TemporalCoverage.ofElement c
  | geospatialCoverage c => ReadBy GeospatialCoverage.ofElement c
  | geographicIdentifier c => ReadBy GeographicIdentifier.ofElement c
  | areaCode c => ∃ kind, ReadBy (AreaCode.ofElement kind) c
  | facilityIdentifier c => ReadBy FacilityIdentifier.ofElement c
  | boundingBox c => ReadBy BoundingBox.ofElement c
  | boundingGeometry c => ReadBy BoundingGeometry.ofElement c
  | polygon c => ReadBy Polygon.ofElement c
  | point c => ReadBy Point.ofElement c
  | position c => ReadBy Position.ofElement c
  | postalAddress c => ReadBy PostalAddress.ofElement c
  | verticalExtent c => ReadBy VerticalExtent.ofElement c
  | relatedResource c => ReadBy RelatedResource.ofElement c
  | link c => ReadBy Link.ofElement c
  | management c => ReadBy Management.ofElement c
  | recordsInfo c => ReadBy RecordsInfo.ofElement c
  | recordKeeper c => ReadBy RecordKeeper.ofElement c
  | managedText c => ReadBy ManagedText.ofElement c
  | revisionRecall c => ReadBy RevisionRecall.ofElement c
  | taskingInfo c => ReadBy TaskingInfo.ofElement c
  | taskingRole c => ReadBy TaskingRole.ofElement c
  | taskId c => ReadBy TaskId.ofElement c
  | processingInfo c => ReadBy ProcessingInfo.ofElement c
  | security c => ReadBy Security.ofElement c
  | noticeList c => ReadBy NoticeList.ofElement c
  | notice c => ReadBy Notice.ofElement c
  | noticeText c => ReadBy NoticeText.ofElement c
  | access c => ReadBy Access.ofElement c
  | profileList c => ReadBy ProfileList.ofElement c
  | accessEntity c => ReadBy AccessEntity.ofElement c
  | accessText c => ReadBy AccessText.ofElement c
  | extensible c => ReadBy ExtensibleElement.ofElement c

/-- All parts of a list were read. -/
def AllRead (ps : List Part) : Prop := ∀ p ∈ ps, Read p

namespace AllRead

variable {ctx : Context} {v : Version} {p : Part} {ps qs : List Part} {α : Type} {f : α → Part}
  {read : Context → Version → Element → Outcome α}

theorem nil : AllRead [] := by simp [AllRead]

theorem cons (hp : Read p) (hps : AllRead ps) : AllRead (p :: ps) :=
  List.forall_mem_cons.2 ⟨hp, hps⟩

theorem append (hp : AllRead ps) (hq : AllRead qs) : AllRead (ps ++ qs) :=
  List.forall_mem_append.2 ⟨hp, hq⟩

/-- Parts of one kind, read from the elements of a list. -/
theorem of_all (hf : ∀ c, ReadBy read c → Read (f c)) {es : List Element} {cs : List α}
    (h : readAll read ctx v es = .ok cs) : AllRead (cs.map f) :=
  List.forall_mem_map.2 (readAll_all (fun _ _ hc => hf _ ⟨_, _, _, hc⟩) h)

/-- A part, read from an element if there is one. -/
theorem of_option (hf : ∀ c, ReadBy read c → Read (f c)) {o : Option Element} {c : Option α}
    (h : readOption read ctx v o = .ok c) : AllRead (c.map f).toList := by
  have hc := readOption_all (fun _ _ hc => hf _ ⟨_, _, _, hc⟩) h
  rw [Option.toList_map]
  exact List.forall_mem_map.2 fun c hm => hc c (Option.mem_toList.1 hm)

end AllRead

end Part

open DiscoveryMetadata.Part (Read ReadBy AllRead)

variable {ctx : Context} {v : Version} {e : Element}

section Records

namespace Dates

theorem ofElement_read {c : Dates} (h : ofElement ctx v e = .ok c) :
    AllRead (Part.dates c).children := by
  simp only [ofElement, checked, bind_ok, within_ok, check_ok, pure_ok, exists_unit] at h
  obtain ⟨as, has, -, rfl⟩ := h
  exact .of_all (fun _ => id) has

end Dates

namespace Format

theorem ofElement_read {c : Format} (h : ofElement ctx v e = .ok c) :
    AllRead (Part.format c).children := by
  simp only [ofElement, checked, bind_ok, within_ok, withinHolder_ok, check_ok, pure_ok,
    exists_unit] at h
  obtain ⟨x, hx, -, rfl⟩ := h
  exact .of_option (fun _ => id) hx

end Format

end Records

section Entities

namespace Organization

theorem ofElement_read {c : Organization} (h : ofElement ctx v e = .ok c) :
    AllRead (Part.organization c).children := by
  simp only [ofElement, checked, bind_ok, within_ok, check_ok, pure_ok, exists_unit] at h
  obtain ⟨subs, hs, -, rfl⟩ := h
  exact .of_all (fun _ => id) hs

end Organization

theorem Producer.ofElement_read {x : Producer} (h : ofElement ctx v e = .ok x) :
    Read (Part.ofProducer x) := by
  unfold ofElement at h
  simp only at h
  split_ifs at h
  all_goals
    obtain ⟨c, hc, rfl⟩ := map_ok.1 h
    exact ⟨_, _, _, hc⟩

theorem TaskingEntity.ofElement_read {x : TaskingEntity} (h : ofElement ctx v e = .ok x) :
    Read (Part.ofTaskingEntity x) := by
  unfold ofElement at h
  split_ifs at h
  all_goals
    obtain ⟨c, hc, rfl⟩ := map_ok.1 h
    exact ⟨_, _, _, hc⟩

namespace ProducerRole

theorem entityOf_read {o : Option Producer} (h : entityOf ctx v e = .ok o) :
    AllRead (o.map Part.ofProducer).toList := by
  unfold entityOf at h
  split at h
  · split_ifs at h
    · obtain ⟨p, hp, rfl⟩ := map_ok.1 h
      exact .cons (Producer.ofElement_read hp) .nil
    · cases h
      exact .nil
  · cases h
    exact .nil

theorem ofElement_read {c : ProducerRole} (h : ofElement ctx v e = .ok c) :
    AllRead (Part.producerRole c).children := by
  unfold ofElement at h
  cases hk : Kind.ofName? e.localName with
  | none => simp only [hk, within_ok, error_ok] at h
  | some kind =>
    simp only [hk, checked, bind_ok, within_ok, check_ok, pure_ok] at h
    obtain ⟨entity, he, _, -, _, -, rfl⟩ := h
    exact .cons trivial (entityOf_read he)

end ProducerRole

namespace TaskingRole

theorem entityOf_read {o : Option TaskingEntity} (h : entityOf ctx v e = .ok o) :
    AllRead (o.map Part.ofTaskingEntity).toList := by
  unfold entityOf at h
  split at h
  · split_ifs at h
    · obtain ⟨t, ht, rfl⟩ := map_ok.1 h
      exact .cons (TaskingEntity.ofElement_read ht) .nil
    · cases h
      exact .nil
  · cases h
    exact .nil

theorem ofElement_read {c : TaskingRole} (h : ofElement ctx v e = .ok c) :
    AllRead (Part.taskingRole c).children := by
  unfold ofElement at h
  cases hk : Kind.ofName? e.localName with
  | none => simp only [hk, within_ok, error_ok] at h
  | some kind =>
    simp only [hk, checked, bind_ok, within_ok, check_ok, pure_ok, exists_unit] at h
    obtain ⟨entity, he, _, -, -, rfl⟩ := h
    exact .cons trivial (entityOf_read he)

end TaskingRole

end Entities

section Coverages

namespace SubjectCoverage

theorem ofElement_read {c : SubjectCoverage} (h : ofElement ctx v e = .ok c) :
    AllRead (Part.subjectCoverage c).children := by
  simp only [ofElement, checked, bind_ok, within_ok, withinHolder_ok, check_ok, pure_ok,
    exists_unit] at h
  obtain ⟨ks, hk, cs, hc, ms, hm, as, ha, s, hs, -, rfl⟩ := h
  refine .append (.append (.append (.cons trivial ?_) ?_) ?_) ?_
  · exact .of_all (fun _ => id) hk
  · exact .of_all (fun _ => id) hc
  · exact .of_all (fun _ => id) hm
  · exact .of_all (fun _ => id) ha

end SubjectCoverage

namespace TemporalCoverage

theorem readBound_read {holder : Option Element} {exact approximate : String}
    {bound : Option TimeBound} (h : readBoundIn ctx v holder exact approximate = .ok bound) :
    ∀ date ∈ date? bound, ReadBy ApproximableDate.ofElement date := by
  unfold readBoundIn at h
  cases holder with
  | none =>
    cases h
    exact fun _ hd => by cases hd
  | some holder =>
    simp only [withinHolder_ok, readBound] at h
    split at h
    · cases h
      exact fun _ hd => by cases hd
    · simp only [bind_ok, pure_ok] at h
      obtain ⟨date, hd, rfl⟩ := h
      cases date with
      | none => exact fun _ hd => by cases hd
      | some date =>
        rintro _ ⟨⟩
        exact readOption_all (fun _ _ hc => ⟨_, _, _, hc⟩) hd _ rfl

theorem ofElement_read {c : TemporalCoverage} (h : ofElement ctx v e = .ok c) :
    AllRead (Part.temporalCoverage c).children := by
  simp only [ofElement, checked, bind_ok, within_ok, check_ok, pure_ok, exists_unit] at h
  obtain ⟨start, hst, finish, hf, s, -, -, rfl⟩ := h
  refine .cons trivial (List.forall_mem_map.2 fun date hd => ?_)
  obtain ⟨bound, hb, hdate⟩ := List.mem_filterMap.1 hd
  rcases List.mem_pair.1 hb with rfl | rfl
  · exact readBound_read hst date hdate
  · exact readBound_read hf date hdate

end TemporalCoverage

theorem AreaCode.read_of {kind : Kind} {c : AreaCode} (h : ReadBy (ofElement kind) c) :
    Read (.areaCode c) :=
  ⟨kind, h⟩

namespace GeographicIdentifier

theorem ofElement_read {c : GeographicIdentifier} (h : ofElement ctx v e = .ok c) :
    AllRead (Part.geographicIdentifier c).children := by
  simp only [ofElement, checked, bind_ok, within_ok, check_ok, pure_ok, exists_unit] at h
  obtain ⟨country, hc, sub, hs, facility, hf, -, rfl⟩ := h
  exact .append (.append (.of_option (fun _ => AreaCode.read_of) hc)
    (.of_option (fun _ => AreaCode.read_of) hs)) (.of_option (fun _ => id) hf)

end GeographicIdentifier

namespace Polygon

theorem ofElement_read {c : Polygon} (h : ofElement ctx v e = .ok c) :
    AllRead (Part.polygon c).children := by
  simp only [ofElement, checked, bind_ok, within_ok, check_ok, pure_ok, exists_unit] at h
  obtain ⟨positions, hp, _, -, -, rfl⟩ := h
  unfold readPositions at hp
  split at hp
  · cases hp
    exact .nil
  · split at hp
    · cases hp
      exact .nil
    · simp only [within_ok] at hp
      exact .of_all (f := Part.position) (fun _ hc => hc) hp

end Polygon

namespace Point

theorem ofElement_read {c : Point} (h : ofElement ctx v e = .ok c) :
    AllRead (Part.point c).children := by
  simp only [ofElement, checked, bind_ok, within_ok, check_ok, pure_ok, exists_unit] at h
  obtain ⟨position, hp, _, -, -, rfl⟩ := h
  exact .of_option (f := Part.position) (fun _ hc => hc) hp

end Point

namespace BoundingGeometry

theorem ofElement_read {c : BoundingGeometry} (h : ofElement ctx v e = .ok c) :
    AllRead (Part.boundingGeometry c).children := by
  simp only [ofElement, checked, bind_ok, within_ok, check_ok, pure_ok, exists_unit] at h
  obtain ⟨polygons, hpolygons, points, hpoints, -, rfl⟩ := h
  exact .append (.of_all (fun _ => id) hpolygons) (.of_all (fun _ => id) hpoints)

end BoundingGeometry

namespace PostalAddress

theorem ofElement_read {c : PostalAddress} (h : ofElement ctx v e = .ok c) :
    AllRead (Part.postalAddress c).children := by
  simp only [ofElement, checked, bind_ok, within_ok, check_ok, pure_ok, exists_unit] at h
  obtain ⟨country, hc, -, rfl⟩ := h
  exact .of_option (fun _ => AreaCode.read_of) hc

end PostalAddress

namespace GeospatialCoverage

theorem ofElement_read {c : GeospatialCoverage} (h : ofElement ctx v e = .ok c) :
    AllRead (Part.geospatialCoverage c).children := by
  simp only [ofElement, checked, bind_ok, within_ok, check_ok, pure_ok, exists_unit] at h
  obtain ⟨x, hx, _, -, s, -, -, rfl⟩ := h
  refine .cons trivial ?_
  split at hx
  · simp only [withinHolder_ok, GeospatialExtents.ofElement, bind_ok, pure_ok] at hx
    obtain ⟨identifier, hi, box, hb, geometry, hg, address, ha, vertical, hv, rfl⟩ := hx
    refine .append (.append (.append (.append ?_ ?_) ?_) ?_) ?_
    · exact .of_option (fun _ => id) hi
    · exact .of_option (fun _ => id) hb
    · exact .of_option (fun _ => id) hg
    · exact .of_option (fun _ => id) ha
    · exact .of_option (fun _ => id) hv
  · cases hx
    exact .nil

end GeospatialCoverage

end Coverages

section Management

namespace RelatedResource

theorem ofElement_read {c : RelatedResource} (h : ofElement ctx v e = .ok c) :
    AllRead (Part.relatedResource c).children := by
  simp only [ofElement, checked, bind_ok, within_ok, check_ok, pure_ok, exists_unit] at h
  obtain ⟨links, hl, s, -, -, rfl⟩ := h
  refine .cons trivial ?_
  split at hl
  · rw [withinHolder_ok] at hl
    exact .of_all (fun _ => id) hl
  · cases hl
    exact .nil

end RelatedResource

namespace RecordKeeper

theorem ofElement_read {c : RecordKeeper} (h : ofElement ctx v e = .ok c) :
    AllRead (Part.recordKeeper c).children := by
  simp only [ofElement, checked, bind_ok, within_ok, check_ok, pure_ok, exists_unit] at h
  obtain ⟨organization, ho, -, rfl⟩ := h
  exact .of_option (fun _ => id) ho

end RecordKeeper

namespace RecordsInfo

theorem ofElement_read {c : RecordsInfo} (h : ofElement ctx v e = .ok c) :
    AllRead (Part.recordsInfo c).children := by
  simp only [ofElement, checked, bind_ok, within_ok, check_ok, pure_ok, exists_unit] at h
  obtain ⟨_, ⟨keeper, hk, software, hs, _, -, rfl⟩, -, rfl⟩ := h
  exact .append (.of_option (fun _ => id) hk) (.of_option (fun _ => id) hs)

end RecordsInfo

namespace RevisionRecall

theorem ofElement_read {c : RevisionRecall} (h : ofElement ctx v e = .ok c) :
    AllRead (Part.revisionRecall c).children := by
  simp only [ofElement, checked, bind_ok, within_ok, check_ok, pure_ok, exists_unit] at h
  obtain ⟨links, hl, details, hd, _, -, _, -, _, -, -, rfl⟩ := h
  exact .append (.cons trivial (.of_all (fun _ => id) hl)) (.of_all (fun _ => id) hd)

end RevisionRecall

namespace TaskingInfo

theorem ofElement_read {c : TaskingInfo} (h : ofElement ctx v e = .ok c) :
    AllRead (Part.taskingInfo c).children := by
  simp only [ofElement, checked, bind_ok, within_ok, check_ok, pure_ok, exists_unit] at h
  obtain ⟨rs, hr, as, ha, d, hd, t, ht, s, -, -, rfl⟩ := h
  refine .append (.append (.append (.cons trivial ?_) ?_) ?_) ?_
  · exact .of_all (fun _ => id) hr
  · exact .of_all (fun _ => id) ha
  · exact .of_option (fun _ => id) hd
  · exact .of_option (fun _ => id) ht

end TaskingInfo

namespace Management

theorem ofElement_read {c : Management} (h : ofElement ctx v e = .ok c) :
    AllRead (Part.management c).children := by
  simp only [ofElement, checked, bind_ok, within_ok, check_ok, pure_ok, exists_unit] at h
  obtain ⟨_, ⟨records, hi, revision, hr, ts, ht, ps, hp, s, -, rfl⟩, -, rfl⟩ := h
  refine .append (.append (.append (.cons trivial ?_) ?_) ?_) ?_
  · exact .of_option (fun _ => id) hi
  · exact .of_option (fun _ => id) hr
  · exact .of_all (fun _ => id) ht
  · exact .of_all (fun _ => id) hp

end Management

end Management

section Protection

namespace Notice

theorem ofElement_read {c : Notice} (h : ofElement ctx v e = .ok c) :
    AllRead (Part.notice c).children := by
  simp only [ofElement, checked, bind_ok, within_ok, check_ok, pure_ok, exists_unit] at h
  obtain ⟨texts, ht, _, -, _, -, -, rfl⟩ := h
  exact .cons trivial (.cons trivial (.of_all (fun _ => id) ht))

end Notice

namespace NoticeList

theorem ofElement_read {c : NoticeList} (h : ofElement ctx v e = .ok c) :
    AllRead (Part.noticeList c).children := by
  simp only [ofElement, checked, bind_ok, within_ok, check_ok, pure_ok, exists_unit] at h
  obtain ⟨notices, hn, _, -, -, rfl⟩ := h
  exact .cons trivial (.of_all (fun _ => id) hn)

end NoticeList

namespace AccessEntity

theorem ofElement_read {c : AccessEntity} (h : ofElement ctx v e = .ok c) :
    AllRead (Part.accessEntity c).children := by
  unfold ofElement at h
  cases hk : Kind.ofName? e.localName with
  | none => simp only [hk, within_ok, error_ok] at h
  | some kind =>
    simp only [hk, checked, bind_ok, within_ok, check_ok, pure_ok, exists_unit] at h
    obtain ⟨_, -, system, hs, values, hv, _, -, -, rfl⟩ := h
    exact .append (.cons trivial (.of_option (fun _ => id) hs)) (.of_all (fun _ => id) hv)

end AccessEntity

namespace ProfileList

theorem ofElement_read {c : ProfileList} (h : ofElement ctx v e = .ok c) :
    AllRead (Part.profileList c).children := by
  simp only [ofElement, checked, bind_ok, within_ok, check_ok, pure_ok, exists_unit] at h
  obtain ⟨_, -, profiles, hp, _, -, -, rfl⟩ := h
  exact .cons trivial (.of_all (fun _ => id) hp)

end ProfileList

namespace Access

theorem entriesOf_read {o : Option Element} {cs : List AccessEntity}
    (h : entriesOf ctx v o = .ok cs) : AllRead (cs.map Part.accessEntity) := by
  unfold entriesOf at h
  split at h
  · rw [within_ok] at h
    exact .of_all (fun _ => id) h
  · cases h
    exact .nil

theorem ofElement_read {c : Access} (h : ofElement ctx v e = .ok c) :
    AllRead (Part.access c).children := by
  simp only [ofElement, checked, bind_ok, within_ok, check_ok, pure_ok, exists_unit] at h
  obtain ⟨_, -, is, hi, gs, hg, ps, hp, _, -, -, rfl⟩ := h
  exact .append (.append (.cons trivial (entriesOf_read hi)) (entriesOf_read hg))
    (.of_option (fun _ => id) hp)

end Access

namespace Security

theorem ofElement_read {c : Security} (h : ofElement ctx v e = .ok c) :
    AllRead (Part.security c).children := by
  simp only [ofElement, checked, bind_ok, within_ok, check_ok, pure_ok, exists_unit] at h
  obtain ⟨notices, hn, access, ha, _, -, -, rfl⟩ := h
  exact .append (.cons trivial (.of_option (fun _ => id) hn)) (.of_option (fun _ => id) ha)

end Security

end Protection

section Resource

theorem TopLevel.ofElement_read {t : TopLevel} (h : ofElement ctx v e = .ok t) :
    Read (Part.ofTopLevel t) := by
  unfold ofElement at h
  split_ifs at h
  · unfold ofDdmsElement at h
    split at h
    all_goals try split_ifs at h
    all_goals
      obtain ⟨c, hc, rfl⟩ := map_ok.1 h
      exact ⟨_, _, _, hc⟩
  · obtain ⟨c, hc, rfl⟩ := map_ok.1 h
    exact ⟨_, _, _, hc⟩

theorem Resource.ofElement_read {r : Resource} (h : ofElement ctx v e = .ok r) :
    AllRead (Part.resource r).children := by
  simp only [ofElement, checked, bind_ok, within_ok, check_ok, pure_ok, exists_unit] at h
  obtain ⟨_, -, ts, ht, _, -, _, -, -, rfl⟩ := h
  have hall := readAll_all (fun _ _ => TopLevel.ofElement_read) ht
  exact .append (.cons trivial (.cons trivial (.cons trivial .nil)))
    (List.forall_mem_map.2 fun t hm => hall t (TopLevel.mem_inOrder.1 hm))

end Resource

/-- The parts in a part that was read were read. -/
theorem Part.Read.children {p : Part} (h : Read p) : AllRead p.children := by
  cases p with
  | resource => exact ReadBy.elim h Resource.ofElement_read
  | dates => exact ReadBy.elim h Dates.ofElement_read
  | producerRole => exact ReadBy.elim h ProducerRole.ofElement_read
  | organization => exact ReadBy.elim h Organization.ofElement_read
  | format => exact ReadBy.elim h Format.ofElement_read
  | subjectCoverage => exact ReadBy.elim h SubjectCoverage.ofElement_read
  | temporalCoverage => exact ReadBy.elim h TemporalCoverage.ofElement_read
  | geospatialCoverage => exact ReadBy.elim h GeospatialCoverage.ofElement_read
  | geographicIdentifier => exact ReadBy.elim h GeographicIdentifier.ofElement_read
  | boundingGeometry => exact ReadBy.elim h BoundingGeometry.ofElement_read
  | polygon => exact ReadBy.elim h Polygon.ofElement_read
  | point => exact ReadBy.elim h Point.ofElement_read
  | postalAddress => exact ReadBy.elim h PostalAddress.ofElement_read
  | relatedResource => exact ReadBy.elim h RelatedResource.ofElement_read
  | management => exact ReadBy.elim h Management.ofElement_read
  | recordsInfo => exact ReadBy.elim h RecordsInfo.ofElement_read
  | recordKeeper => exact ReadBy.elim h RecordKeeper.ofElement_read
  | revisionRecall => exact ReadBy.elim h RevisionRecall.ofElement_read
  | taskingInfo => exact ReadBy.elim h TaskingInfo.ofElement_read
  | taskingRole => exact ReadBy.elim h TaskingRole.ofElement_read
  | security => exact ReadBy.elim h Security.ofElement_read
  | noticeList => exact ReadBy.elim h NoticeList.ofElement_read
  | notice => exact ReadBy.elim h Notice.ofElement_read
  | access => exact ReadBy.elim h Access.ofElement_read
  | profileList => exact ReadBy.elim h ProfileList.ofElement_read
  | accessEntity => exact ReadBy.elim h AccessEntity.ofElement_read
  | markings | attributes | noticeAttributes => exact .nil
  | identifier | language | approximableDate | rights | extent | extensible => exact .nil
  | person | namedEntity => exact .nil
  | areaCode | facilityIdentifier | boundingBox | position | verticalExtent | taskId => exact .nil
  | _ => exact .cons trivial .nil

end DiscoveryMetadata
