import DiscoveryMetadata.Proofs.Attributes.Groups
import DiscoveryMetadata.Proofs.Gates.Part
import DiscoveryMetadata.Proofs.Reading.Alike
/-
  Parts of one version.

  Each component has the version that it was read or made for, and so has each group of attributes.
  `Part.version?` is that version where it has to be the one of the parent: extensible elements,
  markings and empty groups go with any. A part `Fits` if its groups and the parts directly in it
  have its own version.

  Whether a component fits is settled when it is read or made, whatever versions its parts were made
  for: the last check compares these with the version of the component, and a group of attributes
  cannot be put on an element of another version.
-/
namespace DiscoveryMetadata

open Xml (Element)

namespace Part

/-- The version of a part, where it has to be that of the parent. -/
def version? : Part → Option Version
  | markings _ | extensible _ => none
  | attributes a => if a.isEmpty then none else some a.version
  | noticeAttributes a => if a.isEmpty then none else some a.version
  | resource c => some c.version
  | identifier c => some c.version
  | caption c => some c.version
  | language c => some c.version
  | dates c => some c.version
  | approximableDate c => some c.version
  | rights c => some c.version
  | source c => some c.version
  | resourceType c => some c.version
  | producerRole c => some c.version
  | organization c => some c.version
  | subOrganization c => some c.version
  | person c => some c.version
  | namedEntity c => some c.version
  | format c => some c.version
  | extent c => some c.version
  | subjectCoverage c => some c.version
  | keyword c => some c.version
  | category c => some c.version
  | productionMetric c => some c.version
  | nonStateActor c => some c.version
  | virtualCoverage c => some c.version
  | temporalCoverage c => some c.version
  | geospatialCoverage c => some c.version
  | geographicIdentifier c => some c.version
  | areaCode c => some c.version
  | facilityIdentifier c => some c.version
  | boundingBox c => some c.version
  | boundingGeometry c => some c.version
  | polygon c => some c.version
  | point c => some c.version
  | position c => some c.version
  | postalAddress c => some c.version
  | verticalExtent c => some c.version
  | relatedResource c => some c.version
  | link c => some c.version
  | management c => some c.version
  | recordsInfo c => some c.version
  | recordKeeper c => some c.version
  | managedText c => some c.version
  | revisionRecall c => some c.version
  | taskingInfo c => some c.version
  | taskingRole c => some c.version
  | taskId c => some c.version
  | processingInfo c => some c.version
  | security c => some c.version
  | noticeList c => some c.version
  | notice c => some c.version
  | noticeText c => some c.version
  | access c => some c.version
  | profileList c => some c.version
  | accessEntity c => some c.version
  | accessText c => some c.version

/-- The extensible attributes of a part, of those kinds that can have some. -/
def extensible? : Part → Option ExtensibleAttributes
  | resource c => some c.extensible
  | keyword c => some c.extensible
  | category c => some c.extensible
  | _ => none

/-- The part has no other version than this, and no extensible attributes of another one. -/
structure OfVersion (v : Version) (p : Part) : Prop where
  own : ∀ w ∈ p.version?, w = v
  extensible : ∀ x ∈ p.extensible?, x.isEmpty = false → x.version = v

/-- Parts of which none has another version than this. -/
def Agree (v : Version) (ps : List Part) : Prop := ∀ q ∈ ps, ∀ w ∈ q.version?, w = v

/-- The part has one version with its extensible attributes and with the parts directly in it. -/
def Fits (p : Part) : Prop := ∀ v ∈ p.version?, p.OfVersion v ∧ Agree v p.children

namespace Agree

variable {v : Version} {p : Part} {ps qs : List Part} {α : Type} {f : α → Part} {b : α → Base}

theorem nil : Agree v [] := by simp [Agree]

theorem cons (hp : ∀ w ∈ p.version?, w = v) (hps : Agree v ps) : Agree v (p :: ps) :=
  List.forall_mem_cons.2 ⟨hp, hps⟩

theorem append (hp : Agree v ps) (hq : Agree v qs) : Agree v (ps ++ qs) :=
  List.forall_mem_append.2 ⟨hp, hq⟩

/-- Parts of one kind, of which the versions were compared. -/
theorem map {cs : List α} (h : ∀ x ∈ cs.map b, x.version = v)
    (hb : ∀ c, (f c).version? = some (b c).version) : Agree v (cs.map f) :=
  List.forall_mem_map.2 fun c hc w hw => by
    obtain rfl : (b c).version = w := Option.some.inj ((hb c).symm.trans hw)
    exact List.forall_mem_map.1 h c hc

theorem option {o : Option α} (h : ∀ x ∈ (o.map b).toList, x.version = v)
    (hb : ∀ c, (f c).version? = some (b c).version) : Agree v (o.map f).toList := by
  rw [Option.toList_map] at h ⊢
  exact map h hb

end Agree

/-- Security attributes go with a part of their version. -/
theorem agree_attributes {v : Version} {a : SecurityAttributes} (h : a.version = v) :
    ∀ w ∈ (attributes a).version?, w = v := by
  simp only [version?]
  split <;> simp [h]

theorem version?_ofProducer (x : Producer) : (ofProducer x).version? = some x.base.version := by
  cases x <;> rfl

theorem version?_ofTaskingEntity (x : TaskingEntity) :
    (ofTaskingEntity x).version? = some x.base.version := by
  cases x <;> rfl

/-- A part that goes with any version holds nothing. -/
theorem children_of_version? {p : Part} (h : p.version? = none) : p.children = [] := by
  cases p with
  | markings | extensible | attributes | noticeAttributes => rfl
  | _ => cases h

/-- A part that goes with any version is of any version. -/
theorem OfVersion.of_version? {v : Version} {p : Part} (h : p.version? = none) : p.OfVersion v := by
  refine ⟨by simp [h], ?_⟩
  cases p with
  | resource | keyword | category => cases h
  | _ => simp [extensible?]

namespace Fits

variable {v : Version} {p : Part} {a : SecurityAttributes}

/-- A part without extensible attributes. -/
theorem of (hv : p.version? = some v) (hx : p.extensible? = none) (hc : Agree v p.children) :
    Fits p := by
  intro w hw
  obtain rfl : v = w := Option.some.inj (hv.symm.trans hw)
  exact ⟨⟨fun u hu => Option.some.inj (hu.symm.trans hv), by simp [hx]⟩, hc⟩

/-- A part with extensible attributes. -/
theorem of_extensible {x : ExtensibleAttributes} (hv : p.version? = some v)
    (hx : p.extensible? = some x) (hxv : x.isEmpty = false → x.version = v)
    (hc : Agree v p.children) : Fits p := by
  intro w hw
  obtain rfl : v = w := Option.some.inj (hv.symm.trans hw)
  exact ⟨⟨fun u hu => Option.some.inj (hu.symm.trans hv), by simpa [hx] using hxv⟩, hc⟩

/-- A part in which there is none. -/
theorem leaf (hx : p.extensible? = none) (hc : p.children = []) : Fits p := fun v hv =>
  Fits.of hv hx (hc ▸ .nil) v hv

/-- A part in which there are security attributes only. -/
theorem marked (hv : p.version? = some v) (hx : p.extensible? = none)
    (hc : p.children = [attributes a]) (ha : a.version = v) : Fits p :=
  .of hv hx (hc ▸ .cons (agree_attributes ha) .nil)

end Fits

end Part

section Groups

variable {ctx : Context} {v : Version} {e e' : Element}

theorem SecurityAttributes.version_ofElement {a : SecurityAttributes}
    (h : ofElement ctx v e = .ok a) : a.version = v := by
  simp only [ofElement, checked, bind_ok, pure_ok] at h
  obtain ⟨_, -, rfl⟩ := h
  rfl

theorem SecurityAttributes.version_addTo {a : SecurityAttributes}
    (h : a.addTo ctx v e = .ok e') : a.version = v :=
  (addTo_ok.1 h).1

/-- Notice attributes that are read go with the version they are read for. -/
theorem NoticeAttributes.agree_ofElement {a : NoticeAttributes} (h : ofElement ctx v e = .ok a) :
    ∀ w ∈ (Part.noticeAttributes a).version?, w = v := by
  simp only [ofElement, ofValues, checked, bind_ok, pure_ok] at h
  obtain ⟨_, -, _, -, rfl⟩ := h
  simp only [Part.version?]
  split <;> simp

/-- Notice attributes that can be put on an element of a version go with it. -/
theorem NoticeAttributes.agree_addTo {a : NoticeAttributes} (h : a.addTo ctx v e = .ok e') :
    ∀ w ∈ (Part.noticeAttributes a).version?, w = v := by
  unfold addTo at h
  simp only [Part.version?]
  split at h
  case isTrue hempty => simp [hempty]
  case isFalse hempty =>
    split at h
    case isTrue => cases h
    case isFalse hv => simp_all

theorem ExtensibleAttributes.version_addTo {a : ExtensibleAttributes}
    (h : a.addTo v e = .ok e') : a.isEmpty = false → a.version = v := by
  unfold addTo at h
  split at h
  case isTrue hempty => simp [hempty]
  case isFalse =>
    split at h
    case isTrue => cases h
    case isFalse hv => exact fun _ => of_not_not hv

end Groups

end DiscoveryMetadata
