import DiscoveryMetadata.Proofs.Rebuilding.Basic
import DiscoveryMetadata.Role.Tasking
/-
  Entities and their roles from their own drafts.

  A contact is cleaned of blank texts before an entity is made of it; cleaning it once more changes
  nothing. A role holds one entity, and its draft says of which kind that is; the other entities of
  the draft do not count and are not there in the draft of the role.
-/
namespace DiscoveryMetadata

open Buildable
open Xml (Element)

variable {ctx : Context} {v : Version} {s : SecurityAttributes}

namespace SubOrganization

variable {c : SubOrganization} {value : String}

theorem make_keeps (h : make ctx v value s = .ok c) : c.value = value ∧ c.security = s := by
  simp only [make, checked, bind_ok, within_ok, check_ok, exists_unit, pure_ok] at h
  obtain ⟨e, -, -, rfl⟩ := h
  exact ⟨rfl, rfl⟩

theorem rebuilds (d : Draft) : Rebuilds ctx v toDraft d := by
  obtain ⟨_, value, security⟩ := d
  intro c h
  obtain ⟨he, h⟩ := commitAs_some.1 h
  obtain ⟨s, hs, h⟩ := bind_ok.1 h
  obtain ⟨rfl, rfl⟩ := make_keeps h
  refine commitAs_some.2 ⟨?_, bind_ok.2 ⟨_, SecurityAttributes.commitAs_toDraft hs, h⟩⟩
  simpa only [isEmpty, toDraft, SecurityAttributes.toDraft_isEmpty hs] using he

end SubOrganization

namespace Organization

variable {c : Organization} {contact : Contact} {subs : List SubOrganization} {acronym : String}

theorem make_keeps (h : make ctx v contact subs acronym = .ok c) :
    c.contact = contact ∧ c.subOrganizations = subs ∧ c.acronym = acronym := by
  simp only [make, checked, bind_ok, check_ok, exists_unit, pure_ok] at h
  obtain ⟨-, rfl⟩ := h
  exact ⟨rfl, rfl, rfl⟩

theorem rebuilds (d : Draft) : Rebuilds ctx v toDraft d := by
  obtain ⟨_, contact, subs, acronym⟩ := d
  intro c h
  obtain ⟨he, h⟩ := commitAs_some.1 h
  obtain ⟨ss, hss, h⟩ := bind_ok.1 h
  obtain ⟨hcontact, rfl, rfl⟩ := make_keeps h
  have hagain := commitAll_toDraft (fun d _ => SubOrganization.rebuilds d) hss
  refine commitAs_some.2 ⟨?_, bind_ok.2 ⟨_, hagain, ?_⟩⟩
  · simpa only [isEmpty, toDraft, hcontact, Contact.isEmpty_clean, allEmpty_eq hss,
      allEmpty_eq hagain] using he
  · simpa only [toDraft, hcontact, Contact.clean_clean] using h

end Organization

namespace Person

variable {c : Person} {contact : Contact} {surname userId affiliation : String}

theorem make_keeps (h : make ctx v contact surname userId affiliation = .ok c) :
    c.contact = contact ∧ c.surname = surname ∧ c.userId = userId ∧
      c.affiliation = affiliation := by
  simp only [make, checked, bind_ok, check_ok, exists_unit, pure_ok] at h
  obtain ⟨-, rfl⟩ := h
  exact ⟨rfl, rfl, rfl, rfl⟩

theorem rebuilds (d : Draft) : Rebuilds ctx v toDraft d := by
  obtain ⟨_, contact, surname, userId, affiliation⟩ := d
  intro c h
  obtain ⟨he, h⟩ := commitAs_some.1 h
  obtain ⟨hcontact, rfl, rfl, rfl⟩ := make_keeps h
  refine commitAs_some.2 ⟨?_, ?_⟩
  · simpa only [isEmpty, toDraft, hcontact, Contact.isEmpty_clean] using he
  · simpa only [build, toDraft, hcontact, Contact.clean_clean] using h

end Person

namespace NamedEntity

variable {c : NamedEntity} {kind : Kind} {contact : Contact}

theorem make_keeps (h : make ctx v kind contact = .ok c) :
    c.kind = kind ∧ c.contact = contact := by
  simp only [make, checked, bind_ok, check_ok, exists_unit, pure_ok] at h
  obtain ⟨-, rfl⟩ := h
  exact ⟨rfl, rfl⟩

theorem rebuilds (d : Draft) : Rebuilds ctx v toDraft d := by
  obtain ⟨_, kind, contact⟩ := d
  intro c h
  obtain ⟨he, h⟩ := commitAs_some.1 h
  obtain ⟨rfl, hcontact⟩ := make_keeps h
  refine commitAs_some.2 ⟨?_, ?_⟩
  · simpa only [isEmpty, toDraft, hcontact, Contact.isEmpty_clean] using he
  · simpa only [build, toDraft, hcontact, Contact.clean_clean] using h

end NamedEntity

namespace ProducerRole

variable {c : ProducerRole} {kind : Kind} {entity : Producer} {pocTypes : List String}

theorem make_keeps (h : make ctx v kind entity pocTypes s = .ok c) :
    c.kind = kind ∧ c.entity = some entity ∧ c.pocTypes = pocTypes ∧ c.security = s := by
  simp only [make, checked, bind_ok, within_ok, check_ok, pure_ok] at h
  obtain ⟨e, -, -, -, rfl⟩ := h
  exact ⟨rfl, rfl, rfl, rfl⟩

/-- The draft of a role holds the entity of the role, and no other. -/
theorem commitEntity_toDraft {d : Draft} (hd : d.commitEntity ctx v = .ok (some entity))
    (hc : c.entity = some entity) :
    c.toDraft.commitEntity ctx v = .ok (some entity) ∧ c.toDraft.entityIsEmpty = false := by
  obtain ⟨_, kind, entityType, organization, person, named, pocTypes, security⟩ := d
  simp only [Draft.commitEntity] at hd
  cases entityType with
  | organization =>
    obtain ⟨o, ho, hd⟩ := bind_ok.1 hd
    obtain ⟨o, rfl, rfl⟩ := Option.map_eq_some_iff.1 (pure_ok.1 hd)
    have hagain := Organization.rebuilds _ _ ho
    simp only [toDraft, hc]
    exact ⟨bind_ok.2 ⟨_, hagain, rfl⟩, isEmpty_eq hagain⟩
  | person =>
    obtain ⟨p, hp, hd⟩ := bind_ok.1 hd
    obtain ⟨p, rfl, rfl⟩ := Option.map_eq_some_iff.1 (pure_ok.1 hd)
    have hagain := Person.rebuilds _ _ hp
    simp only [toDraft, hc]
    exact ⟨bind_ok.2 ⟨_, hagain, rfl⟩, isEmpty_eq hagain⟩
  | service =>
    obtain ⟨n, hn, hd⟩ := bind_ok.1 hd
    obtain ⟨n, rfl, rfl⟩ := Option.map_eq_some_iff.1 (pure_ok.1 hd)
    have hkind : n.kind = .service := (NamedEntity.make_keeps (commitAs_some.1 hn).2).1
    have hagain := NamedEntity.rebuilds _ _ hn
    simp only [toDraft, hc, hkind]
    refine ⟨bind_ok.2 ⟨some n, ?_, rfl⟩, isEmpty_eq hagain⟩
    rw [← hkind]
    exact hagain
  | unknown =>
    obtain ⟨n, hn, hd⟩ := bind_ok.1 hd
    obtain ⟨n, rfl, rfl⟩ := Option.map_eq_some_iff.1 (pure_ok.1 hd)
    have hkind : n.kind = .unknown := (NamedEntity.make_keeps (commitAs_some.1 hn).2).1
    have hagain := NamedEntity.rebuilds _ _ hn
    simp only [toDraft, hc, hkind]
    refine ⟨bind_ok.2 ⟨some n, ?_, rfl⟩, isEmpty_eq hagain⟩
    rw [← hkind]
    exact hagain

theorem build_kind {d : Draft} (h : build ctx v d = .ok c) : c.kind = d.kind := by
  obtain ⟨o, -, h⟩ := bind_ok.1 h
  cases o with
  | none => simp at h
  | some entity =>
    obtain ⟨s, -, h⟩ := bind_ok.1 h
    exact (make_keeps h).1

theorem toDraft_rest : c.toDraft.kind = c.kind ∧ c.toDraft.pocTypes = c.pocTypes ∧
    c.toDraft.security = c.security.toDraft := by
  unfold toDraft
  split <;> exact ⟨rfl, rfl, rfl⟩

/-- The draft of a role is one for roles of its kind. -/
theorem toDraft_kind {kind : Kind} (h : c.kind = kind) : { c.toDraft with kind } = c.toDraft := by
  obtain rfl : c.toDraft.kind = kind := toDraft_rest.1.trans h
  rfl

theorem rebuilds (d : Draft) : Rebuilds ctx v toDraft d := by
  intro c h
  obtain ⟨-, h⟩ := commitAs_some.1 h
  obtain ⟨o, ho, h⟩ := bind_ok.1 h
  cases o with
  | none => simp at h
  | some entity =>
    obtain ⟨s, hs, h⟩ := bind_ok.1 h
    obtain ⟨hkind, hentity, hpoc, hsecurity⟩ := make_keeps h
    obtain ⟨hagain, hempty⟩ := commitEntity_toDraft ho hentity
    obtain ⟨htkind, htpoc, htsecurity⟩ := toDraft_rest (c := c)
    refine commitAs_some.2 ⟨?_, bind_ok.2 ⟨_, hagain, bind_ok.2 ⟨s, ?_, ?_⟩⟩⟩
    · simp only [isEmpty, hempty, Bool.false_and]
    · rw [htsecurity, hsecurity]
      exact SecurityAttributes.commitAs_toDraft hs
    · rw [htkind, hkind, htpoc, hpoc, dropBlank_dropBlank]
      exact h

end ProducerRole

namespace TaskingRole

variable {c : TaskingRole} {kind : Kind} {entity : TaskingEntity}

theorem make_keeps (h : make ctx v kind entity s = .ok c) :
    c.kind = kind ∧ c.entity = some entity ∧ c.security = s := by
  simp only [make, checked, bind_ok, within_ok, check_ok, exists_unit, pure_ok] at h
  obtain ⟨e, -, -, rfl⟩ := h
  exact ⟨rfl, rfl, rfl⟩

/-- The draft of a role holds the entity of the role, and no other. -/
theorem commitEntity_toDraft {d : Draft} (hd : d.commitEntity ctx v = .ok (some entity))
    (hc : c.entity = some entity) :
    c.toDraft.commitEntity ctx v = .ok (some entity) ∧
      (isEmpty c.toDraft.organization && isEmpty c.toDraft.person) = false := by
  obtain ⟨_, kind, entityType, organization, person, security⟩ := d
  simp only [Draft.commitEntity] at hd
  cases entityType with
  | organization =>
    obtain ⟨o, ho, hd⟩ := bind_ok.1 hd
    obtain ⟨o, rfl, rfl⟩ := Option.map_eq_some_iff.1 (pure_ok.1 hd)
    have hagain := Organization.rebuilds _ _ ho
    simp only [toDraft, hc, isEmpty_eq hagain]
    exact ⟨bind_ok.2 ⟨_, hagain, rfl⟩, rfl⟩
  | person =>
    obtain ⟨p, hp, hd⟩ := bind_ok.1 hd
    obtain ⟨p, rfl, rfl⟩ := Option.map_eq_some_iff.1 (pure_ok.1 hd)
    have hagain := Person.rebuilds _ _ hp
    simp only [toDraft, hc, isEmpty_eq hagain]
    exact ⟨bind_ok.2 ⟨_, hagain, rfl⟩, rfl⟩
  | service => simp at hd
  | unknown => simp at hd

theorem toDraft_rest : c.toDraft.kind = c.kind ∧ c.toDraft.security = c.security.toDraft := by
  unfold toDraft
  split <;> exact ⟨rfl, rfl⟩

theorem build_kind {d : Draft} (h : build ctx v d = .ok c) : c.kind = d.kind := by
  obtain ⟨o, -, h⟩ := bind_ok.1 h
  cases o with
  | none => simp at h
  | some entity =>
    obtain ⟨s, -, h⟩ := bind_ok.1 h
    exact (make_keeps h).1

/-- The draft of a role is one for roles of its kind. -/
theorem toDraft_kind {kind : Kind} (h : c.kind = kind) : { c.toDraft with kind } = c.toDraft := by
  obtain rfl : c.toDraft.kind = kind := toDraft_rest.1.trans h
  rfl

theorem isEmpty_draft (d : Draft) :
    isEmpty d = (isEmpty d.organization && isEmpty d.person && d.security.isEmpty) := rfl

theorem rebuilds (d : Draft) : Rebuilds ctx v toDraft d := by
  intro c h
  obtain ⟨-, h⟩ := commitAs_some.1 h
  obtain ⟨o, ho, h⟩ := bind_ok.1 h
  cases o with
  | none => simp at h
  | some entity =>
    obtain ⟨s, hs, h⟩ := bind_ok.1 h
    obtain ⟨hkind, hentity, hsecurity⟩ := make_keeps h
    obtain ⟨hagain, hempty⟩ := commitEntity_toDraft ho hentity
    obtain ⟨htkind, htsecurity⟩ := toDraft_rest (c := c)
    refine commitAs_some.2 ⟨?_, bind_ok.2 ⟨_, hagain, bind_ok.2 ⟨s, ?_, ?_⟩⟩⟩
    · simp only [isEmpty_draft, hempty, Bool.false_and]
    · rw [htsecurity, hsecurity]
      exact SecurityAttributes.commitAs_toDraft hs
    · rw [htkind, hkind]
      exact h

end TaskingRole

end DiscoveryMetadata
