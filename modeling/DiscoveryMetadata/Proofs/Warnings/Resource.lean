import DiscoveryMetadata.Proofs.Gates.Resource
import DiscoveryMetadata.Proofs.Warnings.Coverages
import DiscoveryMetadata.Proofs.Warnings.Management
/-
  What is recorded at a resource are the remarks of all parts inside it.

  A resource is accepted when it is read or made. Both ways give told components to the same last
  check, so what is recorded at the resource is gathered from everything inside it: no remark is
  lost on its way up, and none comes up twice (`Resource.warnings_gathered`).
-/
namespace DiscoveryMetadata

open Xml (Element)
open DiscoveryMetadata.Part (Told AllTold)

variable {ctx : Context} {v : Version} {e : Element}

namespace TopLevel

/-- A component of one kind, wrapped as a component of a resource. -/
theorem map_told {α : Type} {f : α → Part} {wrap : α → TopLevel} {x : Outcome α} {t : TopLevel}
    (h : ∀ {c}, x = .ok c → Told ctx (f c)) (hw : ∀ c, Part.ofTopLevel (wrap c) = f c)
    (ht : x.map wrap = .ok t) : Told ctx (Part.ofTopLevel t) := by
  obtain ⟨c, hc, rfl⟩ := map_ok.1 ht
  exact hw c ▸ h hc

theorem ofDdmsElement_told {t : TopLevel} (h : ofDdmsElement ctx v e = .ok t) :
    Told ctx (Part.ofTopLevel t) := by
  unfold ofDdmsElement at h
  split at h
  · exact map_told Identifier.ofElement_told (fun _ => rfl) h
  · exact map_told Language.ofElement_told (fun _ => rfl) h
  · exact map_told Dates.ofElement_told (fun _ => rfl) h
  · exact map_told Rights.ofElement_told (fun _ => rfl) h
  · exact map_told Source.ofElement_told (fun _ => rfl) h
  · exact map_told ResourceType.ofElement_told (fun _ => rfl) h
  · exact map_told Format.ofElement_told (fun _ => rfl) h
  · exact map_told SubjectCoverage.ofElement_told (fun _ => rfl) h
  · exact map_told VirtualCoverage.ofElement_told (fun _ => rfl) h
  · exact map_told TemporalCoverage.ofElement_told (fun _ => rfl) h
  · exact map_told GeospatialCoverage.ofElement_told (fun _ => rfl) h
  · exact map_told Security.ofElement_told (fun _ => rfl) h
  · split_ifs at h
    · exact map_told Management.ofElement_told (fun _ => rfl) h
    · exact map_told RelatedResource.ofElement_told (fun _ => rfl) h
    · exact map_told Caption.ofElement_told (fun _ => rfl) h
    · exact map_told ProducerRole.ofElement_told (fun _ => rfl) h

theorem ofElement_told {t : TopLevel} (h : ofElement ctx v e = .ok t) :
    Told ctx (Part.ofTopLevel t) := by
  unfold ofElement at h
  split_ifs at h
  · exact ofDdmsElement_told h
  · exact map_told ExtensibleElement.ofElement_told (fun _ => rfl) h

end TopLevel

namespace Resource

theorem checked_told {c d : Resource} (h : checked c = .ok d)
    (hc : AllTold ctx (Part.resource c).children) : Told ctx (.resource d) :=
  .checked (f := .resource) h rfl hc

/-- Putting components in order changes nothing about what they are. -/
theorem inOrder_told {ts : List TopLevel} (h : AllTold ctx (ts.map Part.ofTopLevel)) :
    AllTold ctx ((TopLevel.inOrder ts).map Part.ofTopLevel) :=
  .map fun t ht => List.forall_mem_map.1 h t (TopLevel.mem_inOrder.1 ht)

theorem ofElement_told {r : Resource} (h : ofElement ctx v e = .ok r) :
    Told ctx (.resource r) := by
  simp only [ofElement, bind_ok, within_ok] at h
  obtain ⟨m, -, ts, ht, s, hs, n, hn, h⟩ := h
  refine checked_told h (.append (.cons ?_ (.cons ?_ (.cons ?_ .nil))) ?_)
  · exact Markings.told m
  · exact SecurityAttributes.ofElement_told hs
  · exact NoticeAttributes.ofElement_told hn
  · exact inOrder_told (readAll_told TopLevel.ofElement_told ht)

/-- The components that are made from drafts of one kind. -/
theorem gather_told {δ α : Type} [Buildable δ α] {f : α → Part} {wrap : α → TopLevel}
    (h : ∀ {d : δ} {c : α}, Buildable.build ctx v d = .ok c → Told ctx (f c))
    (hw : ∀ c, Part.ofTopLevel (wrap c) = f c) {ds : List δ} {ts : List TopLevel}
    (ht : Draft.gather ctx v wrap ds = .ok ts) : AllTold ctx (ts.map Part.ofTopLevel) := by
  obtain ⟨cs, hc, rfl⟩ := map_ok.1 ht
  rw [List.map_map]
  refine .map fun c hm => ?_
  rw [Function.comp_apply, hw]
  exact Buildable.commitAll_all (fun _ _ _ hb => h hb) hc c hm

theorem commitComponents_told {d : Draft} {ts : List TopLevel}
    (h : d.commitComponents ctx v = .ok ts) : AllTold ctx (ts.map Part.ofTopLevel) := by
  simp only [Draft.commitComponents, bind_ok, pure_ok] at h
  obtain ⟨groups, hg, rfl⟩ := h
  have hall : ∀ ts ∈ groups, AllTold ctx (ts.map Part.ofTopLevel) := by
    refine mapM_all ?_ hg
    simp only [List.forall_mem_cons, Draft.gatherCaptions, Draft.gatherProducers]
    refine ⟨fun _ => gather_told Identifier.build_told fun _ => rfl,
      fun _ => gather_told Caption.build_told fun _ => rfl,
      fun _ => gather_told Caption.build_told fun _ => rfl,
      fun _ => gather_told Caption.build_told fun _ => rfl,
      fun _ => gather_told Language.build_told fun _ => rfl,
      fun _ => gather_told Dates.build_told fun _ => rfl,
      fun _ => gather_told Rights.build_told fun _ => rfl,
      fun _ => gather_told Source.build_told fun _ => rfl,
      fun _ => gather_told ResourceType.build_told fun _ => rfl,
      fun _ => gather_told ProducerRole.build_told fun _ => rfl,
      fun _ => gather_told ProducerRole.build_told fun _ => rfl,
      fun _ => gather_told ProducerRole.build_told fun _ => rfl,
      fun _ => gather_told ProducerRole.build_told fun _ => rfl,
      fun _ => gather_told Format.build_told fun _ => rfl,
      fun _ => gather_told SubjectCoverage.build_told fun _ => rfl,
      fun _ => gather_told VirtualCoverage.build_told fun _ => rfl,
      fun _ => gather_told TemporalCoverage.build_told fun _ => rfl,
      fun _ => gather_told GeospatialCoverage.build_told fun _ => rfl,
      fun _ => gather_told RelatedResource.build_told fun _ => rfl,
      fun _ => gather_told Management.build_told fun _ => rfl,
      fun _ => gather_told Security.build_told fun _ => rfl,
      fun _ => gather_told ExtensibleElement.build_told fun _ => rfl, by simp⟩
  refine .map fun t ht => ?_
  obtain ⟨ts, hts, ht⟩ := List.mem_flatten.1 ht
  exact List.forall_mem_map.1 (hall ts hts) t ht

theorem build_told {d : Draft} {r : Resource} (h : Buildable.build ctx v d = .ok r) :
    Told ctx (.resource r) := by
  simp only [Buildable.build, make, bind_ok, within_ok] at h
  obtain ⟨ts, ht, n, hn, _, -, s, hs, _, -, h⟩ := h
  refine checked_told h (.append (.cons ?_ (.cons ?_ (.cons ?_ .nil))) ?_)
  · exact Markings.told _
  · exact SecurityAttributes.commitAs_told hs
  · exact NoticeAttributes.ofValues_told hn
  · exact inOrder_told (commitComponents_told ht)

/-- A resource with two languages of which only the qualifiers are known, and with an owner of a
sub-organization that no vocabulary has. -/
def remarked : Draft :=
  { contacted with
    languages := [{ qualifier := "urn" }, { qualifier := "urn" }]
    pointsOfContact :=
      [{ organization :=
          { contact := { names := ["Office"] }
            subOrganizations :=
              [{ value := "Cell"
                 security := { values := [("classification", "U"), ("ownerProducer", "XYZ")] } }] }
         security := { values := [("classification", "U"), ("ownerProducer", "USA")] } }] }

end Resource

end DiscoveryMetadata
