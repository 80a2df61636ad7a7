import DiscoveryMetadata.Proofs.Versions.Basic
/-
  Components have one version with their parts: records and entities.

  For each kind, `checked_fits` takes from the last check that the parts have the version of the
  component. That the security attributes have it too is known before: they were read for it, or
  put on an element of it.
-/
namespace DiscoveryMetadata

open Xml (Element)
open DiscoveryMetadata.Part (Fits)

variable {ctx : Context} {v : Version} {e : Element}

section Records

namespace Caption

theorem checked_fits {c d : Caption} (h : checked c = .ok d)
    (hs : c.security.version = c.version) : Fits (.caption d) := by
  simp only [checked, bind_ok, check_ok, pure_ok, exists_unit] at h
  obtain ⟨-, rfl⟩ := h
  exact .marked rfl rfl rfl hs

theorem ofElement_fits {c : Caption} (h : ofElement ctx v e = .ok c) : Fits (.caption c) := by
  unfold ofElement at h
  cases hk : Kind.ofName? e.localName with
  | none => simp only [hk, within_ok, error_ok] at h
  | some kind =>
    simp only [hk, bind_ok, within_ok] at h
    obtain ⟨s, hs, h⟩ := h
    exact checked_fits h (SecurityAttributes.version_ofElement hs)

theorem make_fits {kind : Kind} {value : String} {s : SecurityAttributes} {c : Caption}
    (h : make ctx v kind value s = .ok c) : Fits (.caption c) := by
  simp only [make, bind_ok, within_ok] at h
  obtain ⟨_, hs, h⟩ := h
  exact checked_fits h (SecurityAttributes.version_addTo hs)

end Caption

namespace Dates

theorem checked_fits {c d : Dates} (h : checked c = .ok d) : Fits (.dates d) := by
  simp only [checked, rules, bind_ok, check_ok, pure_ok, exists_unit,
    Base.requireSameVersions_ok] at h
  obtain ⟨⟨-, hc, -⟩, rfl⟩ := h
  exact .of rfl rfl (.map hc fun _ => rfl)

theorem ofElement_fits {c : Dates} (h : ofElement ctx v e = .ok c) : Fits (.dates c) := by
  simp only [ofElement, bind_ok, within_ok] at h
  obtain ⟨_, -, h⟩ := h
  exact checked_fits h

end Dates

namespace Source

theorem ofElement_fits {c : Source} (h : ofElement ctx v e = .ok c) : Fits (.source c) := by
  simp only [ofElement, checked, bind_ok, within_ok, check_ok, pure_ok, exists_unit] at h
  obtain ⟨s, hs, -, rfl⟩ := h
  exact .marked rfl rfl rfl (SecurityAttributes.version_ofElement hs)

theorem make_fits {qualifier value schemaQualifier schemaHref : String} {s : SecurityAttributes}
    {c : Source} (h : make ctx v qualifier value schemaQualifier schemaHref s = .ok c) :
    Fits (.source c) := by
  simp only [make, bind_ok, within_ok] at h
  obtain ⟨_, -, h⟩ := h
  exact ofElement_fits h

end Source

namespace ResourceType

theorem ofElement_fits {c : ResourceType} (h : ofElement ctx v e = .ok c) :
    Fits (.resourceType c) := by
  simp only [ofElement, checked, bind_ok, within_ok, check_ok, pure_ok, exists_unit] at h
  obtain ⟨s, hs, -, rfl⟩ := h
  exact .marked rfl rfl rfl (SecurityAttributes.version_ofElement hs)

theorem make_fits {description qualifier value : String} {s : SecurityAttributes}
    {c : ResourceType} (h : make ctx v description qualifier value s = .ok c) :
    Fits (.resourceType c) := by
  simp only [make, bind_ok, within_ok] at h
  obtain ⟨_, -, h⟩ := h
  exact ofElement_fits h

end ResourceType

namespace Format

theorem checked_fits {c d : Format} (h : checked c = .ok d) : Fits (.format d) := by
  simp only [checked, bind_ok, check_ok, pure_ok, exists_unit] at h
  obtain ⟨hr, rfl⟩ := h
  unfold rules at hr
  cases hm : c.element.holder? c.version wrapper with
  | none => simp only [hm, bind_ok, throw_ok, and_false, exists_false] at hr
  | some media =>
    simp only [hm, bind_ok, exists_unit, Base.requireSameVersions_ok] at hr
    obtain ⟨-, -, -, -, -, hc⟩ := hr
    exact .of rfl rfl (.option hc fun _ => rfl)

theorem ofElement_fits {c : Format} (h : ofElement ctx v e = .ok c) : Fits (.format c) := by
  simp only [ofElement, bind_ok, within_ok] at h
  obtain ⟨_, -, h⟩ := h
  exact checked_fits h

end Format

end Records

section Entities

namespace SubOrganization

theorem checked_fits {c d : SubOrganization} (h : checked c = .ok d)
    (hs : c.security.version = c.version) : Fits (.subOrganization d) := by
  simp only [checked, bind_ok, check_ok, pure_ok, exists_unit] at h
  obtain ⟨-, rfl⟩ := h
  exact .marked rfl rfl rfl hs

theorem ofElement_fits {c : SubOrganization} (h : ofElement ctx v e = .ok c) :
    Fits (.subOrganization c) := by
  simp only [ofElement, bind_ok, within_ok] at h
  obtain ⟨s, hs, h⟩ := h
  exact checked_fits h (SecurityAttributes.version_ofElement hs)

theorem make_fits {value : String} {s : SecurityAttributes} {c : SubOrganization}
    (h : make ctx v value s = .ok c) : Fits (.subOrganization c) := by
  simp only [make, bind_ok, within_ok] at h
  obtain ⟨_, hs, h⟩ := h
  exact checked_fits h (SecurityAttributes.version_addTo hs)

end SubOrganization

namespace Organization

theorem checked_fits {c d : Organization} (h : checked c = .ok d) : Fits (.organization d) := by
  simp only [checked, rules, bind_ok, check_ok, pure_ok, exists_unit,
    Base.requireSameVersions_ok] at h
  obtain ⟨⟨-, -, hc, -⟩, rfl⟩ := h
  exact .of rfl rfl (.map hc fun _ => rfl)

theorem ofElement_fits {c : Organization} (h : ofElement ctx v e = .ok c) :
    Fits (.organization c) := by
  simp only [ofElement, bind_ok, within_ok] at h
  obtain ⟨_, -, h⟩ := h
  exact checked_fits h

end Organization

namespace ProducerRole

theorem checked_fits {c d : ProducerRole} (h : checked ctx c = .ok d)
    (hs : c.security.version = c.version) : Fits (.producerRole d) := by
  simp only [checked, bind_ok, check_ok, pure_ok] at h
  obtain ⟨_, hr, rfl⟩ := h
  have hc : ∀ x ∈ (c.entity.map Producer.base).toList, x.version = c.version := by
    unfold rules at hr
    cases ho : c.entity with
    | none => simp only [ho, bind_ok, throw_ok, false_and, exists_false, and_false] at hr
    | some entity =>
      simp only [ho, bind_ok, exists_unit, Base.requireSameVersion_ok] at hr
      obtain ⟨-, hv, -⟩ := hr
      simpa using hv
  exact .of rfl rfl (.cons (Part.agree_attributes hs) (.option hc Part.version?_ofProducer))

theorem ofElement_fits {c : ProducerRole} (h : ofElement ctx v e = .ok c) :
    Fits (.producerRole c) := by
  unfold ofElement at h
  cases hk : Kind.ofName? e.localName with
  | none => simp only [hk, within_ok, error_ok] at h
  | some kind =>
    simp only [hk, bind_ok, within_ok] at h
    obtain ⟨_, -, s, hs, h⟩ := h
    exact checked_fits h (SecurityAttributes.version_ofElement hs)

theorem make_fits {kind : Kind} {entity : Producer} {pocTypes : List String}
    {s : SecurityAttributes} {c : ProducerRole}
    (h : make ctx v kind entity pocTypes s = .ok c) : Fits (.producerRole c) := by
  simp only [make, bind_ok, within_ok] at h
  obtain ⟨_, ⟨_, -, hs⟩, h⟩ := h
  exact checked_fits h (SecurityAttributes.version_addTo hs)

end ProducerRole

namespace TaskingRole

theorem checked_fits {c d : TaskingRole} (h : checked c = .ok d)
    (hs : c.security.version = c.version) : Fits (.taskingRole d) := by
  simp only [checked, bind_ok, check_ok, pure_ok, exists_unit] at h
  obtain ⟨hr, rfl⟩ := h
  have hc : ∀ x ∈ (c.entity.map TaskingEntity.base).toList, x.version = c.version := by
    unfold rules at hr
    cases ho : c.entity with
    | none => simp only [ho, bind_ok, throw_ok, false_and, exists_false, and_false] at hr
    | some entity =>
      simp only [ho, bind_ok, exists_unit, Base.requireSameVersion_ok] at hr
      obtain ⟨-, hv, -⟩ := hr
      simpa using hv
  exact .of rfl rfl (.cons (Part.agree_attributes hs) (.option hc Part.version?_ofTaskingEntity))

theorem ofElement_fits {c : TaskingRole} (h : ofElement ctx v e = .ok c) :
    Fits (.taskingRole c) := by
  unfold ofElement at h
  cases hk : Kind.ofName? e.localName with
  | none => simp only [hk, within_ok, error_ok] at h
  | some kind =>
    simp only [hk, bind_ok, within_ok] at h
    obtain ⟨_, -, s, hs, h⟩ := h
    exact checked_fits h (SecurityAttributes.version_ofElement hs)

theorem make_fits {kind : Kind} {entity : TaskingEntity} {s : SecurityAttributes}
    {c : TaskingRole} (h : make ctx v kind entity s = .ok c) : Fits (.taskingRole c) := by
  simp only [make, bind_ok, within_ok] at h
  obtain ⟨_, hs, h⟩ := h
  exact checked_fits h (SecurityAttributes.version_addTo hs)

end TaskingRole

end Entities

end DiscoveryMetadata
