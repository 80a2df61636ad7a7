import DiscoveryMetadata.Proofs.Keeping.Basic
import DiscoveryMetadata.Proofs.Rebuilding.Roles
import DiscoveryMetadata.Proofs.Returning.Roles
/-
  What entities and their roles keep through their drafts.

  An entity has a name that says something, and so its draft never counts as empty. Lost are names,
  phone numbers and mail addresses that are blank.
-/
namespace DiscoveryMetadata

open Buildable
open Xml (Element)

variable {ctx : Context} {v : Version} {e : Element}

namespace SubOrganization

/-- A part of an organization is kept with its markings. -/
def Kept (c : SubOrganization) : Prop := c.security.Filled

instance (c : SubOrganization) : Decidable c.Kept := inferInstanceAs (Decidable c.security.Filled)

theorem renews {c : SubOrganization} (h : ofElement ctx v e = .ok c) (hk : c.Kept) :
    Renews ctx v (ctx.ddmsName v "subOrganization") c.toDraft c := by
  simp only [ofElement, checked, bind_ok, within_ok, check_ok, exists_unit, pure_ok] at h
  obtain ⟨s, hs, hr, rfl⟩ := h
  obtain ⟨hput, hs⟩ := SecurityAttributes.commitAs_read hs hk
  simp only [rules, bind_ok, exists_unit, requireDdms_ok] at hr
  obtain ⟨hname, hr⟩ := hr
  refine ⟨_, bind_ok.2 ⟨s, hs, bind_ok.2 ⟨_, within_ok.2 (hput _),
    bind_ok.2 ⟨(), check_ok.2 ?rules, rfl⟩⟩⟩, ?same, rfl, by simp [Component.base]⟩
  case rules => simpa [rules, bind_ok, exists_unit, requireDdms_ok, toDraft] using hr
  case same =>
    change (_ == _ && (_ == _ && _ == _)) = true
    simp [hname, toDraft]

end SubOrganization

namespace Contact

/-- No text of the contact is blank. -/
def Kept (c : Contact) : Prop := c.clean = c

instance (c : Contact) : Decidable c.Kept := inferInstanceAs (Decidable (_ = _))

theorem Kept.eq {c : Contact} (h : c.Kept) : c.clean = c := h

/-- A contact that keeps its rules has a name. -/
theorem isEmpty_eq_false {c : Contact} (h : c.rules = .ok ()) : c.isEmpty = false := by
  simp only [rules, bind_ok, exists_unit, forbid_ok] at h
  rw [isEmpty, h.2, Bool.false_and, Bool.false_and]

end Contact

namespace Organization

/-- An organization is kept if its contact and its parts are. -/
def Kept (c : Organization) : Prop :=
  c.contact.Kept ∧ AllKept SubOrganization.toDraft SubOrganization.Kept c.subOrganizations

instance (c : Organization) : Decidable c.Kept := inferInstanceAs (Decidable (_ ∧ AllKept _ _ _))

theorem isEmpty_toDraft {c : Organization} (h : ofElement ctx v e = .ok c) :
    isEmpty c.toDraft = false := by
  simp only [ofElement, checked, rules, bind_ok, within_ok, check_ok, exists_unit, pure_ok] at h
  obtain ⟨subs, -, ⟨-, hcontact, -⟩, rfl⟩ := h
  simp only [isEmpty, toDraft, Contact.isEmpty_eq_false hcontact, Bool.false_and]

theorem renews {c : Organization} (h : ofElement ctx v e = .ok c) (hk : c.Kept) :
    Renews ctx v (ctx.ddmsName v (Entity.name v "organization")) c.toDraft c := by
  simp only [ofElement, checked, bind_ok, within_ok, check_ok, exists_unit, pure_ok] at h
  obtain ⟨subs, hsubs, hr, rfl⟩ := h
  simp only [rules, bind_ok, exists_unit, requireDdms_ok] at hr
  obtain ⟨hname, hcontact, -, hr⟩ := hr
  obtain ⟨hclean, hk⟩ := hk
  obtain ⟨subs', hagain, hlike⟩ := readAll_renews
    (fun _ _ _ h hk => SubOrganization.renews h hk) hsubs hk
  refine ⟨_, bind_ok.2 ⟨subs', hagain, bind_ok.2 ⟨(), check_ok.2 ?rules, rfl⟩⟩, ?same, rfl,
    by simp [Component.base]⟩
  case rules =>
    simp only [rules, bind_ok, exists_unit, requireDdms_ok, Base.requireSameVersions_ok]
    exact ⟨by simp, hclean.symm ▸ hcontact, Like.versions hlike, hr⟩
  case same =>
    change (_ == _ && (_ == _ && (_ == _ && _ == _))) = true
    simpa [hname, toDraft, Like.beq_list hlike] using Contact.Kept.eq hclean

end Organization

namespace Person

/-- A person is kept if the contact is. -/
def Kept (c : Person) : Prop := c.contact.Kept

instance (c : Person) : Decidable c.Kept := inferInstanceAs (Decidable c.contact.Kept)

theorem isEmpty_toDraft {c : Person} (h : ofElement ctx v e = .ok c) :
    isEmpty c.toDraft = false := by
  simp only [ofElement, checked, rules, bind_ok, check_ok, exists_unit, pure_ok] at h
  obtain ⟨⟨-, hcontact, -⟩, rfl⟩ := h
  simp only [isEmpty, toDraft, Contact.isEmpty_eq_false hcontact, Bool.false_and]

theorem make_like {contact : Contact} {surname userId affiliation : String} {w : List Finding}
    (hname : e.name.isNamed v.ddmsUri (Entity.name v "person") = true)
    (hcontact : contact.rules = .ok ()) (hs : Text.isBlank surname = false) :
    ∃ c', make ctx v contact surname userId affiliation = .ok c' ∧
      Like v (ctx.ddmsName v (Entity.name v "person")) c'
        ⟨⟨e, v, w⟩, contact, surname, userId, affiliation⟩ := by
  refine ⟨_, bind_ok.2 ⟨(), check_ok.2 ?rules, rfl⟩, ?same, rfl, by simp [Component.base]⟩
  case rules =>
    have hfilled : surname ≠ "" := by
      rintro rfl
      exact absurd hs (by decide)
    simp only [rules, bind_ok, exists_unit, requireDdms_ok, requireValue, forbid_ok,
      requireChildren_ok]
    have hfind : ∀ l, ((ctx.ddmsElement v (Entity.name v "person")).add
        (contact.nameElements ctx v ++ ctx.textElements v "surname" surname ++
          ctx.textElements v "userID" userId ++ ctx.textElements v "affiliation" affiliation ++
          contact.reachElements ctx v)).ownChildren l =
        (if "name" = l then contact.names.map (ctx.textElement v "name") else []) ++
          (if "surname" = l then ctx.textElements v "surname" surname else []) ++
          (if "userID" = l then ctx.textElements v "userID" userId else []) ++
          (if "affiliation" = l then ctx.textElements v "affiliation" affiliation else []) ++
          (if "phone" = l then contact.phones.map (ctx.textElement v "phone") else []) ++
          (if "email" = l then contact.emails.map (ctx.textElement v "email") else []) := by
      intro l
      simp [Element.ownChildren, Element.childrenNamed, Contact.nameElements,
        Contact.reachElements, filter_named (names_texts ctx v _ _),
        filter_named (names_textElements ctx v _ _)]
    simp only [hfind]
    exact ⟨by simp, hcontact, hs, by simp [length_textElements, hfilled], by simp, by simp⟩
  case same =>
    change (_ == _ && (_ == _ && (_ == _ && (_ == _ && _ == _)))) = true
    simp [hname]

theorem renews {c : Person} (h : ofElement ctx v e = .ok c) (hk : c.Kept) :
    Renews ctx v (ctx.ddmsName v (Entity.name v "person")) c.toDraft c := by
  simp only [ofElement, checked, bind_ok, check_ok, exists_unit, pure_ok] at h
  obtain ⟨hr, rfl⟩ := h
  simp only [rules, bind_ok, exists_unit, requireDdms_ok, requireValue, forbid_ok] at hr
  obtain ⟨hname, hcontact, hs, -⟩ := hr
  obtain ⟨c', hmade, hlike⟩ := make_like hname hcontact hs
  refine ⟨c', ?_, hlike⟩
  simpa only [build, toDraft, Contact.Kept.eq hk] using hmade

end Person

namespace NamedEntity

/-- Such an entity is kept if the contact is. -/
def Kept (c : NamedEntity) : Prop := c.contact.Kept

instance (c : NamedEntity) : Decidable c.Kept := inferInstanceAs (Decidable c.contact.Kept)

theorem isEmpty_toDraft {c : NamedEntity} (h : ofElement ctx v e = .ok c) :
    isEmpty c.toDraft = false := by
  simp only [ofElement, checked, rules, bind_ok, check_ok, exists_unit, iteStep_ok, pure_ok] at h
  obtain ⟨⟨-, -, hcontact⟩, rfl⟩ := h
  exact Contact.isEmpty_eq_false hcontact

theorem renews {c : NamedEntity} (h : ofElement ctx v e = .ok c) (hk : c.Kept) :
    Renews ctx v (ctx.ddmsName v (Entity.name v c.kind.name)) c.toDraft c := by
  simp only [ofElement, checked, bind_ok, check_ok, exists_unit, pure_ok] at h
  obtain ⟨hr, rfl⟩ := h
  generalize (if e.localName.toLower = "unknown" then Kind.unknown else .service) = kind at *
  have hclean := Contact.Kept.eq hk
  simp only [rules, bind_ok, exists_unit, iteStep_ok, requireDdms_ok] at hr
  obtain ⟨hname, hr⟩ := hr
  refine ⟨_, bind_ok.2 ⟨(), check_ok.2 ?rules, rfl⟩, ?same, rfl, by simp [Component.base, toDraft]⟩
  case rules =>
    simp only [rules, bind_ok, exists_unit, iteStep_ok, requireDdms_ok]
    exact ⟨by simp [toDraft], by simpa only [toDraft, hclean] using hr⟩
  case same =>
    change (_ == _ && (_ == _ && _ == _)) = true
    simpa [hname, toDraft] using hclean

end NamedEntity

namespace Producer

/-- The entity is kept, of whatever kind it is. -/
def Kept : Producer → Prop
  | organization o => o.Kept
  | person p => p.Kept
  | named n => n.Kept

instance : DecidablePred Kept
  | organization o => inferInstanceAs (Decidable o.Kept)
  | person p => inferInstanceAs (Decidable p.Kept)
  | named n => inferInstanceAs (Decidable n.Kept)

end Producer

namespace ProducerRole

theorem Kind.name_of_ofName? {l : String} {kind : Kind} (h : ofName? l = some kind) :
    kind.name = l := by
  simpa using List.find?_some h

/-- A role is kept with its markings if the entity that holds it is. -/
def Kept (c : ProducerRole) : Prop := c.security.Filled ∧ ∀ p ∈ c.entity, p.Kept

instance (c : ProducerRole) : Decidable c.Kept :=
  inferInstanceAs (Decidable (_ ∧ ∀ p ∈ c.entity, p.Kept))

/-- The entity that was read is made again of the draft of the role. -/
theorem commitEntity_renews (c : ProducerRole) {p : Producer} (hc : c.entity = some p)
    (h : Producer.ofElement ctx v e = .ok p) (hk : p.Kept) :
    ∃ p', c.toDraft.commitEntity ctx v = .ok (some p') ∧ (p' == p) = true ∧
      p'.base.version = v := by
  simp only [Producer.ofElement] at h
  split_ifs at h
  · obtain ⟨o, ho, rfl⟩ := map_ok.1 h
    obtain ⟨o', hagain, hlike⟩ := Organization.renews ho hk
    have hcommit := commitAs_some.2 ⟨Organization.isEmpty_toDraft ho, hagain⟩
    refine ⟨.organization o', ?_, hlike.same, hlike.version⟩
    simp only [toDraft, hc]
    exact bind_ok.2 ⟨_, hcommit, rfl⟩
  · obtain ⟨p, hp, rfl⟩ := map_ok.1 h
    obtain ⟨p', hagain, hlike⟩ := Person.renews hp hk
    have hcommit := commitAs_some.2 ⟨Person.isEmpty_toDraft hp, hagain⟩
    refine ⟨.person p', ?_, hlike.same, hlike.version⟩
    simp only [toDraft, hc]
    exact bind_ok.2 ⟨_, hcommit, rfl⟩
  · obtain ⟨n, hn, rfl⟩ := map_ok.1 h
    obtain ⟨n', hagain, hlike⟩ := NamedEntity.renews hn hk
    have hcommit := commitAs_some.2 ⟨NamedEntity.isEmpty_toDraft hn, hagain⟩
    refine ⟨.named n', ?_, hlike.same, hlike.version⟩
    simp only [toDraft, hc]
    cases hkind : n.kind <;>
      exact bind_ok.2 ⟨_, by rwa [NamedEntity.toDraft, hkind] at hcommit, rfl⟩

theorem entityOf_some {p : Producer} (h : entityOf ctx v e = .ok (some p)) :
    ∃ e', Producer.ofElement ctx v e' = .ok p := by
  unfold entityOf at h
  split at h
  case _ child r hc =>
    by_cases hchild : Entity.isElement child v = true
    · rw [if_pos hchild] at h
      obtain ⟨p', hp, heq⟩ := map_ok.1 h
      exact ⟨child, Option.some.inj heq ▸ hp⟩
    · simp [hchild] at h
  · simp at h

variable (ctx) in
/-- Kinds of contact can be put on elements in the versions that have them. -/
theorem addPocTypes_total {pocTypes : List String}
    (h : (pocTypes.isEmpty || v.atLeast .v4_0_1) = true) (e : Element) :
    ∃ e', addPocTypes ctx v pocTypes e = .ok e' := by
  unfold addPocTypes
  split
  · exact ⟨e, rfl⟩
  case isFalse hp =>
    simp only [hp, Bool.false_or] at h
    unfold pocTypeName
    split <;> exact ⟨_, rfl⟩

theorem make_like {kind : Kind} {p p' : Producer} {pocTypes : List String}
    {s : SecurityAttributes} {w remarks : List Finding}
    (hname : e.name.isNamed v.ddmsUri kind.name = true) (hsame : (p' == p) = true)
    (hversion : p'.base.version = v)
    (hput : ∀ e', s.addTo ctx v e' = .ok (SecurityAttributes.mark ctx v s.values e'))
    (hpoc : (pocTypes.isEmpty || v.atLeast .v4_0_1) = true)
    (htokens : (if v.atLeast .v4_1 then ctx.checkTokens Vocabulary.Key.pocType v pocTypes
      else pure []) = .ok remarks) :
    ∃ c', make ctx v kind p' pocTypes s = .ok c' ∧
      Like v (ctx.ddmsName v kind.name) c' ⟨⟨e, v, w⟩, kind, some p, pocTypes, s⟩ := by
  obtain ⟨e', he'⟩ := addPocTypes_total ctx hpoc
    ((ctx.ddmsElement v kind.name).add [p'.base.element])
  have hname' : e'.name = ctx.ddmsName v kind.name := by
    rw [addPocTypes_ok he']
    split <;> simp
  refine ⟨_, bind_ok.2 ⟨_, within_ok.2 (bind_ok.2 ⟨e', he', hput e'⟩),
    bind_ok.2 ⟨remarks, check_ok.2 ?rules, rfl⟩⟩, ?same, rfl, by simp [Component.base, hname']⟩
  case rules =>
    simp only [rules, bind_ok, exists_unit, Base.requireSameVersion_ok, requireDdmsUri, demand_ok]
    exact ⟨by simp [hname'], hversion, hpoc, htokens⟩
  case same =>
    change (_ == _ && (_ == _ && (_ == _ && (_ == _ && _ == _)))) = true
    simp [hname, hname', hsame]

theorem renews {c : ProducerRole} (h : ofElement ctx v e = .ok c) (hk : c.Kept) :
    Renews ctx v (ctx.ddmsName v c.kind.name) c.toDraft c := by
  unfold ofElement at h
  split at h
  · simp only [within_ok, error_ok] at h
  case _ kind hkind =>
  simp only [checked, bind_ok, within_ok, check_ok, pure_ok] at h
  obtain ⟨o, ho, s, hs, remarks, hr, rfl⟩ := h
  obtain ⟨hfilled, hentity⟩ := hk
  obtain ⟨hput, hs⟩ := SecurityAttributes.commitAs_read hs hfilled
  simp only [rules, bind_ok, exists_unit] at hr
  obtain ⟨huri, hr⟩ := hr
  cases o with
  | none => simp at hr
  | some p =>
    simp only [bind_ok, exists_unit, demand_ok] at hr
    obtain ⟨-, hpoc, htokens⟩ := hr
    have hname : e.name.isNamed v.ddmsUri kind.name = true :=
      isNamed_of_requireDdmsUri (Kind.name_of_ofName? hkind).symm huri
    obtain ⟨e', he'⟩ := entityOf_some ho
    obtain ⟨p', hagain, hsame, hversion⟩ := commitEntity_renews
      ⟨⟨e, v, []⟩, kind, some p, pocTypesOf v e, s⟩ rfl he' (hentity p rfl)
    obtain ⟨c', hmade, hlike⟩ := make_like hname hsame hversion hput hpoc htokens
    refine ⟨c', bind_ok.2 ⟨some p', hagain, bind_ok.2 ⟨s, ?_, ?_⟩⟩, hlike⟩
    · rw [toDraft_rest.2.2]
      exact hs
    · rw [toDraft_rest.1, toDraft_rest.2.1]
      simpa only [pocTypesOf, dropBlank_words] using hmade

end ProducerRole

namespace TaskingEntity

/-- The entity is kept, of whatever kind it is. -/
def Kept : TaskingEntity → Prop
  | organization o => o.Kept
  | person p => p.Kept

instance : DecidablePred Kept
  | organization o => inferInstanceAs (Decidable o.Kept)
  | person p => inferInstanceAs (Decidable p.Kept)

end TaskingEntity

namespace TaskingRole

theorem Kind.name_of_ofName? {l : String} {kind : Kind} (h : ofName? l = some kind) :
    kind.name = l := by
  simpa using List.find?_some h

/-- A role is kept with its markings if the entity that holds it is. -/
def Kept (c : TaskingRole) : Prop := c.security.Filled ∧ ∀ t ∈ c.entity, t.Kept

instance (c : TaskingRole) : Decidable c.Kept :=
  inferInstanceAs (Decidable (_ ∧ ∀ t ∈ c.entity, t.Kept))

/-- The entity that was read is made again of the draft of the role. -/
theorem commitEntity_renews (c : TaskingRole) {t : TaskingEntity} (hc : c.entity = some t)
    (h : TaskingEntity.ofElement ctx v e = .ok t) (hk : t.Kept) :
    ∃ t', c.toDraft.commitEntity ctx v = .ok (some t') ∧ (t' == t) = true ∧
      t'.base.version = v := by
  simp only [TaskingEntity.ofElement] at h
  split_ifs at h
  · obtain ⟨o, ho, rfl⟩ := map_ok.1 h
    obtain ⟨o', hagain, hlike⟩ := Organization.renews ho hk
    have hcommit := commitAs_some.2 ⟨Organization.isEmpty_toDraft ho, hagain⟩
    refine ⟨.organization o', ?_, hlike.same, hlike.version⟩
    simp only [toDraft, hc]
    exact bind_ok.2 ⟨_, hcommit, rfl⟩
  · obtain ⟨p, hp, rfl⟩ := map_ok.1 h
    obtain ⟨p', hagain, hlike⟩ := Person.renews hp hk
    have hcommit := commitAs_some.2 ⟨Person.isEmpty_toDraft hp, hagain⟩
    refine ⟨.person p', ?_, hlike.same, hlike.version⟩
    simp only [toDraft, hc]
    exact bind_ok.2 ⟨_, hcommit, rfl⟩

theorem entityOf_some {t : TaskingEntity} (h : entityOf ctx v e = .ok (some t)) :
    ∃ e', TaskingEntity.ofElement ctx v e' = .ok t := by
  unfold entityOf at h
  split at h
  case _ child r hc =>
    by_cases hchild : Entity.isElement child v = true
    · rw [if_pos hchild] at h
      obtain ⟨t', ht, heq⟩ := map_ok.1 h
      exact ⟨child, Option.some.inj heq ▸ ht⟩
    · simp [hchild] at h
  · simp at h

theorem make_like {kind : Kind} {t t' : TaskingEntity} {s : SecurityAttributes} {w : List Finding}
    (hname : e.name.isNamed v.ddmsUri kind.name = true) (hsame : (t' == t) = true)
    (hversion : t'.base.version = v)
    (hput : ∀ e', s.addTo ctx v e' = .ok (SecurityAttributes.mark ctx v s.values e'))
    (hclassified : s.requireClassification = .ok ()) (hv : v.atLeast .v4_0_1 = true) :
    ∃ c', make ctx v kind t' s = .ok c' ∧
      Like v (ctx.ddmsName v kind.name) c' ⟨⟨e, v, w⟩, kind, some t, s⟩ := by
  refine ⟨_, bind_ok.2 ⟨_, within_ok.2 (hput _), bind_ok.2 ⟨(), check_ok.2 ?rules, rfl⟩⟩, ?same,
    rfl, by simp [Component.base]⟩
  case rules =>
    simp only [rules, bind_ok, exists_unit, Base.requireSameVersion_ok, requireDdmsUri,
      requireVersion, demand_ok]
    exact ⟨by simp, hversion, hclassified, hv⟩
  case same =>
    change (_ == _ && (_ == _ && (_ == _ && _ == _))) = true
    simp [hname, hsame]

theorem renews {c : TaskingRole} (h : ofElement ctx v e = .ok c) (hk : c.Kept) :
    Renews ctx v (ctx.ddmsName v c.kind.name) c.toDraft c := by
  unfold ofElement at h
  split at h
  · simp only [within_ok, error_ok] at h
  case _ kind hkind =>
  simp only [checked, bind_ok, within_ok, check_ok, exists_unit, pure_ok] at h
  obtain ⟨o, ho, s, hs, hr, rfl⟩ := h
  obtain ⟨hfilled, hentity⟩ := hk
  obtain ⟨hput, hs⟩ := SecurityAttributes.commitAs_read hs hfilled
  simp only [rules, bind_ok, exists_unit] at hr
  obtain ⟨huri, hr⟩ := hr
  cases o with
  | none => simp at hr
  | some t =>
    simp only [bind_ok, exists_unit, requireVersion, demand_ok] at hr
    obtain ⟨-, hclassified, hv⟩ := hr
    have hname : e.name.isNamed v.ddmsUri kind.name = true :=
      isNamed_of_requireDdmsUri (Kind.name_of_ofName? hkind).symm huri
    obtain ⟨e', he'⟩ := entityOf_some ho
    obtain ⟨t', hagain, hsame, hversion⟩ := commitEntity_renews
      ⟨⟨e, v, []⟩, kind, some t, s⟩ rfl he' (hentity t rfl)
    obtain ⟨c', hmade, hlike⟩ := make_like hname hsame hversion hput hclassified hv
    refine ⟨c', bind_ok.2 ⟨some t', hagain, bind_ok.2 ⟨s, ?_, ?_⟩⟩, hlike⟩
    · rw [toDraft_rest.2]
      exact hs
    · rw [toDraft_rest.1]
      exact hmade

end TaskingRole

end DiscoveryMetadata
