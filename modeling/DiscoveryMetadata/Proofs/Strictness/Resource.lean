import DiscoveryMetadata.Proofs.Rules
import DiscoveryMetadata.Proofs.Strictness.Tokens
import DiscoveryMetadata.Resource
import DiscoveryMetadata.Resource.TopLevel
/-
  Strict and lenient reading of a resource.

  For each kind of component that holds security attributes, notice attributes or kinds of contact,
  or has parts that do, the reading of a context is repeated by every context that follows it. The
  findings of a component contain those of its attributes and of its parts, so if they satisfy `P`,
  those do too, and each step of the reading is repeated. Kinds without tokens do not look at the
  context.

  Whether vocabularies bind decides one thing only: whether a token outside its vocabulary is a
  fault or a finding. So a resource that is accepted strictly is accepted leniently, and one that
  is accepted leniently without a finding about a token is accepted strictly; both times it is the
  same resource, with the same findings (`strict_agrees_lenient`).
-/
namespace DiscoveryMetadata

open Xml (Element)
open Context (Follows)

variable {P : String → Prop} {a b : Context} {v : Version}

section Records

theorem Caption.repeats (h : Follows P a b) : Repeats P a b v Caption.ofElement (·.warnings) := by
  intro e c hc hp
  unfold Caption.ofElement at hc ⊢
  cases hk : Kind.ofName? e.localName with
  | none => simp only [hk, within_ok, error_ok] at hc
  | some kind =>
    simp only [hk, checked, bind_ok, within_ok, check_ok, pure_ok, exists_unit] at hc ⊢
    obtain ⟨s, hs, hr, rfl⟩ := hc
    simp only [findings, Heard.append, Heard.absorb] at hp
    exact ⟨s, h.security hs hp.2, hr, rfl⟩

theorem ResourceType.repeats (h : Follows P a b) :
    Repeats P a b v ResourceType.ofElement (·.warnings) := by
  intro e c hc hp
  simp only [ResourceType.ofElement, checked, bind_ok, within_ok, check_ok, pure_ok,
    exists_unit] at hc ⊢
  obtain ⟨s, hs, hr, rfl⟩ := hc
  simp only [findings, Heard.append, Heard.absorb] at hp
  exact ⟨s, h.security hs hp.2, hr, rfl⟩

theorem Source.repeats (h : Follows P a b) : Repeats P a b v Source.ofElement (·.warnings) := by
  intro e c hc hp
  simp only [Source.ofElement, checked, bind_ok, within_ok, check_ok, pure_ok,
    exists_unit] at hc ⊢
  obtain ⟨s, hs, hr, rfl⟩ := hc
  simp only [findings, Heard.append, Heard.absorb] at hp
  exact ⟨s, h.security hs hp.2, hr, rfl⟩

end Records

section Entities

theorem SubOrganization.repeats (h : Follows P a b) :
    Repeats P a b v SubOrganization.ofElement (·.warnings) := by
  intro e c hc hp
  simp only [SubOrganization.ofElement, checked, bind_ok, within_ok, check_ok, pure_ok,
    exists_unit] at hc ⊢
  obtain ⟨s, hs, hr, rfl⟩ := hc
  simp only [findings, Heard.absorb] at hp
  exact ⟨s, h.security hs hp, hr, rfl⟩

theorem Organization.repeats (h : Follows P a b) :
    Repeats P a b v Organization.ofElement (·.warnings) := by
  intro e c hc hp
  simp only [Organization.ofElement, checked, bind_ok, within_ok, check_ok, pure_ok,
    exists_unit] at hc ⊢
  obtain ⟨subs, hs, hr, rfl⟩ := hc
  simp only [findings, Heard.append, Heard.absorbAll_map] at hp
  exact ⟨subs, (SubOrganization.repeats h).all hs hp.2, hr, rfl⟩

theorem Producer.repeats (h : Follows P a b) :
    Repeats P a b v Producer.ofElement (·.base.warnings) := by
  intro e c hc hp
  unfold Producer.ofElement at hc ⊢
  simp only at hc ⊢
  split at hc
  · rw [if_pos ‹_›, map_ok] at *
    obtain ⟨o, ho, rfl⟩ := hc
    exact ⟨o, Organization.repeats h ho hp, rfl⟩
  · rw [if_neg ‹_›]
    exact hc

/-- The rules of a role repeat what they say about the kinds of contact. -/
theorem ProducerRole.rules_follow (h : Follows P a b) {c : ProducerRole} {ws : List Finding}
    (hw : c.rules a = .ok ws) (hp : Heard P ws) : c.rules b = .ok ws := by
  unfold ProducerRole.rules at hw ⊢
  cases he : c.entity with
  | none => simp only [he, bind_ok, throw_ok, false_and, exists_false, and_false] at hw
  | some entity =>
    simp only [he, bind_ok] at hw ⊢
    obtain ⟨u, hu, u', hu', u'', hu'', hk⟩ := hw
    refine ⟨u, hu, u', hu', u'', hu'', ?_⟩
    split
    · rw [if_pos ‹_›] at hk
      exact h.checkTokens hk hp
    · rwa [if_neg ‹_›] at hk

theorem ProducerRole.entity_follows (h : Follows P a b) {e : Element} {o : Option Producer}
    (ho : entityOf a v e = .ok o) (hp : ∀ p ∈ o, Heard P p.base.warnings) :
    entityOf b v e = .ok o := by
  unfold entityOf at ho ⊢
  cases hc : e.children with
  | nil => simpa only [hc] using ho
  | cons child rest =>
    simp only [hc] at ho ⊢
    split
    · rw [if_pos ‹_›, map_ok] at ho
      obtain ⟨p, hr, rfl⟩ := ho
      exact map_ok.2 ⟨p, Producer.repeats h hr (hp p rfl), rfl⟩
    · rwa [if_neg ‹_›] at ho

theorem ProducerRole.repeats (h : Follows P a b) :
    Repeats P a b v ProducerRole.ofElement (·.warnings) := by
  intro e c hc hp
  unfold ProducerRole.ofElement at hc ⊢
  cases hk : Kind.ofName? e.localName with
  | none => simp only [hk, within_ok, error_ok] at hc
  | some kind =>
    simp only [hk, checked, bind_ok, within_ok, check_ok, pure_ok] at hc ⊢
    obtain ⟨entity, he, s, hs, ws, hw, rfl⟩ := hc
    simp only [findings, Heard.append, Heard.absorb, Heard.absorbAll_option] at hp
    obtain ⟨⟨hpw, hpe⟩, hps⟩ := hp
    exact ⟨entity, entity_follows h he hpe, s, h.security hs hps, ws, rules_follow h hw hpw, rfl⟩

theorem TaskingEntity.repeats (h : Follows P a b) :
    Repeats P a b v TaskingEntity.ofElement (·.base.warnings) := by
  intro e c hc hp
  unfold TaskingEntity.ofElement at hc ⊢
  split at hc
  · rw [if_pos ‹_›, map_ok] at *
    obtain ⟨o, ho, rfl⟩ := hc
    exact ⟨o, Organization.repeats h ho hp, rfl⟩
  · rw [if_neg ‹_›]
    exact hc

theorem TaskingRole.entity_follows (h : Follows P a b) {e : Element} {o : Option TaskingEntity}
    (ho : entityOf a v e = .ok o) (hp : ∀ p ∈ o, Heard P p.base.warnings) :
    entityOf b v e = .ok o := by
  unfold entityOf at ho ⊢
  cases hc : e.children with
  | nil => simpa only [hc] using ho
  | cons child rest =>
    simp only [hc] at ho ⊢
    split
    · rw [if_pos ‹_›, map_ok] at ho
      obtain ⟨p, hr, rfl⟩ := ho
      exact map_ok.2 ⟨p, TaskingEntity.repeats h hr (hp p rfl), rfl⟩
    · rwa [if_neg ‹_›] at ho

theorem TaskingRole.repeats (h : Follows P a b) :
    Repeats P a b v TaskingRole.ofElement (·.warnings) := by
  intro e c hc hp
  unfold TaskingRole.ofElement at hc ⊢
  cases hk : Kind.ofName? e.localName with
  | none => simp only [hk, within_ok, error_ok] at hc
  | some kind =>
    simp only [hk, checked, bind_ok, within_ok, check_ok, pure_ok, exists_unit] at hc ⊢
    obtain ⟨entity, he, s, hs, hr, rfl⟩ := hc
    simp only [findings, Heard.append, Heard.absorb, Heard.absorbAll_option] at hp
    exact ⟨entity, entity_follows h he hp.1, s, h.security hs hp.2, hr, rfl⟩

end Entities

section Coverages

theorem Keyword.repeats (h : Follows P a b) : Repeats P a b v Keyword.ofElement (·.warnings) := by
  intro e c hc hp
  simp only [Keyword.ofElement, checked, bind_ok, within_ok, check_ok, pure_ok,
    exists_unit] at hc ⊢
  obtain ⟨s, hs, hr, rfl⟩ := hc
  simp only [findings, Heard.absorb] at hp
  exact ⟨s, h.security hs hp, hr, rfl⟩

theorem Category.repeats (h : Follows P a b) :
    Repeats P a b v Category.ofElement (·.warnings) := by
  intro e c hc hp
  simp only [Category.ofElement, checked, bind_ok, within_ok, check_ok, pure_ok,
    exists_unit] at hc ⊢
  obtain ⟨s, hs, hr, rfl⟩ := hc
  simp only [findings, Heard.absorb] at hp
  exact ⟨s, h.security hs hp, hr, rfl⟩

theorem ProductionMetric.repeats (h : Follows P a b) :
    Repeats P a b v ProductionMetric.ofElement (·.warnings) := by
  intro e c hc hp
  simp only [ProductionMetric.ofElement, checked, bind_ok, within_ok, check_ok, pure_ok,
    exists_unit] at hc ⊢
  obtain ⟨s, hs, hr, rfl⟩ := hc
  simp only [findings, Heard.absorb] at hp
  exact ⟨s, h.security hs hp, hr, rfl⟩

theorem NonStateActor.repeats (h : Follows P a b) :
    Repeats P a b v NonStateActor.ofElement (·.warnings) := by
  intro e c hc hp
  simp only [NonStateActor.ofElement, checked, bind_ok, within_ok, check_ok, pure_ok,
    exists_unit] at hc ⊢
  obtain ⟨order, ho, s, hs, hr, rfl⟩ := hc
  simp only [findings, Heard.append, Heard.absorb] at hp
  exact ⟨order, ho, s, h.security hs hp.2, hr, rfl⟩

theorem SubjectCoverage.repeats (h : Follows P a b) :
    Repeats P a b v SubjectCoverage.ofElement (·.warnings) := by
  intro e c hc hp
  simp only [SubjectCoverage.ofElement, checked, bind_ok, within_ok, withinHolder_ok, check_ok,
    pure_ok, exists_unit] at hc ⊢
  obtain ⟨ks, hk, cs, hcs, ms, hm, as, ha, s, hs, hr, rfl⟩ := hc
  simp only [findings, parts, Heard.append, Heard.absorb, Heard.absorbAll_append,
    Heard.absorbAll_map] at hp
  obtain ⟨⟨-, ⟨⟨hpk, hpc⟩, hpm⟩, hpa⟩, hps⟩ := hp
  exact ⟨ks, (Keyword.repeats h).all hk hpk, cs, (Category.repeats h).all hcs hpc,
    ms, (ProductionMetric.repeats h).all hm hpm, as, (NonStateActor.repeats h).all ha hpa,
    s, h.security hs hps, hr, rfl⟩

theorem VirtualCoverage.repeats (h : Follows P a b) :
    Repeats P a b v VirtualCoverage.ofElement (·.warnings) := by
  intro e c hc hp
  simp only [VirtualCoverage.ofElement, checked, bind_ok, within_ok, check_ok, pure_ok,
    exists_unit] at hc ⊢
  obtain ⟨s, hs, hr, rfl⟩ := hc
  simp only [findings, Heard.append, Heard.absorb] at hp
  exact ⟨s, h.security hs hp.2, hr, rfl⟩

theorem TemporalCoverage.repeats (h : Follows P a b) :
    Repeats P a b v TemporalCoverage.ofElement (·.warnings) := by
  intro e c hc hp
  simp only [TemporalCoverage.ofElement, checked, bind_ok, within_ok, check_ok, pure_ok,
    exists_unit] at hc ⊢
  obtain ⟨start, hst, finish, hf, s, hs, hr, rfl⟩ := hc
  simp only [findings, Heard.append, Heard.absorb] at hp
  exact ⟨start, hst, finish, hf, s, h.security hs hp.2, hr, rfl⟩

theorem GeospatialCoverage.repeats (h : Follows P a b) :
    Repeats P a b v GeospatialCoverage.ofElement (·.warnings) := by
  intro e c hc hp
  simp only [GeospatialCoverage.ofElement, checked, bind_ok, within_ok, check_ok, pure_ok,
    exists_unit] at hc ⊢
  obtain ⟨extents, hx, order, ho, s, hs, hr, rfl⟩ := hc
  simp only [findings, Heard.append, Heard.absorb] at hp
  exact ⟨extents, hx, order, ho, s, h.security hs hp.2, hr, rfl⟩

end Coverages

section Relations

theorem Link.repeats (h : Follows P a b) : Repeats P a b v Link.ofElement (·.warnings) := by
  intro e c hc hp
  simp only [Link.ofElement, checked, bind_ok, within_ok, check_ok, pure_ok, exists_unit] at hc ⊢
  obtain ⟨link, hl, s, hs, hr, rfl⟩ := hc
  simp only [findings, Heard.absorb] at hp
  exact ⟨link, hl, s, h.security hs hp, hr, rfl⟩

theorem RelatedResource.repeats (h : Follows P a b) :
    Repeats P a b v RelatedResource.ofElement (·.warnings) := by
  intro e c hc hp
  unfold RelatedResource.ofElement at hc ⊢
  cases hh : e.holder? v wrapper with
  | none =>
    simp only [hh, checked, bind_ok, within_ok, check_ok, pure_ok, exists_unit] at hc ⊢
    obtain ⟨links, hl, s, hs, hr, rfl⟩ := hc
    simp only [findings, Heard.append, Heard.absorb] at hp
    exact ⟨links, hl, s, h.security hs hp.2, hr, rfl⟩
  | some holder =>
    simp only [hh, checked, bind_ok, within_ok, withinHolder_ok, check_ok, pure_ok,
      exists_unit] at hc ⊢
    obtain ⟨links, hl, s, hs, hr, rfl⟩ := hc
    simp only [findings, Heard.append, Heard.absorb, Heard.absorbAll_map] at hp
    exact ⟨links, (Link.repeats h).all hl hp.1.2, s, h.security hs hp.2, hr, rfl⟩

end Relations

section Management

theorem ManagedText.repeats (h : Follows P a b) :
    Repeats P a b v ManagedText.ofElement (·.warnings) := by
  intro e c hc hp
  unfold ManagedText.ofElement at hc ⊢
  cases hk : Kind.ofName? e.localName with
  | none => simp only [hk, within_ok, error_ok] at hc
  | some kind =>
    simp only [hk, checked, bind_ok, within_ok, check_ok, pure_ok, exists_unit] at hc ⊢
    obtain ⟨s, hs, hr, rfl⟩ := hc
    simp only [findings, Heard.append, Heard.absorb] at hp
    exact ⟨s, h.security hs hp.2, hr, rfl⟩

theorem ProcessingInfo.repeats (h : Follows P a b) :
    Repeats P a b v ProcessingInfo.ofElement (·.warnings) := by
  intro e c hc hp
  simp only [ProcessingInfo.ofElement, checked, bind_ok, within_ok, check_ok, pure_ok,
    exists_unit] at hc ⊢
  obtain ⟨s, hs, hr, rfl⟩ := hc
  simp only [findings, Heard.append, Heard.absorb] at hp
  exact ⟨s, h.security hs hp.2, hr, rfl⟩

theorem RecordKeeper.repeats (h : Follows P a b) :
    Repeats P a b v RecordKeeper.ofElement (·.warnings) := by
  intro e c hc hp
  simp only [RecordKeeper.ofElement, checked, bind_ok, within_ok, check_ok, pure_ok,
    exists_unit] at hc ⊢
  obtain ⟨organization, ho, hr, rfl⟩ := hc
  simp only [findings, Heard.absorbAll_option] at hp
  exact ⟨organization, (Organization.repeats h).option ho hp, hr, rfl⟩

theorem RecordsInfo.repeats (h : Follows P a b) :
    Repeats P a b v RecordsInfo.ofElement (·.warnings) := by
  intro e c hc hp
  simp only [RecordsInfo.ofElement, checked, bind_ok, within_ok, check_ok, pure_ok,
    exists_unit] at hc ⊢
  obtain ⟨c₀, ⟨keeper, hk, software, hs, vital, hv, rfl⟩, hr, rfl⟩ := hc
  simp only [findings, parts, Heard.absorbAll_append, Heard.absorbAll_option] at hp
  exact ⟨_, ⟨keeper, (RecordKeeper.repeats h).option hk hp.1, software,
    (ManagedText.repeats h).option hs hp.2, vital, hv, rfl⟩, hr, rfl⟩

theorem RevisionRecall.repeats (h : Follows P a b) :
    Repeats P a b v RevisionRecall.ofElement (·.warnings) := by
  intro e c hc hp
  simp only [RevisionRecall.ofElement, checked, bind_ok, within_ok, check_ok, pure_ok,
    exists_unit] at hc ⊢
  obtain ⟨links, hl, details, hd, id, hi, link, hk, s, hs, hr, rfl⟩ := hc
  simp only [findings, parts, Heard.append, Heard.absorb, Heard.absorbAll_append,
    Heard.absorbAll_map] at hp
  obtain ⟨⟨hpl, hpd⟩, hps⟩ := hp
  exact ⟨links, (Link.repeats h).all hl hpl, details, (ManagedText.repeats h).all hd hpd, id, hi,
    link, hk, s, h.security hs hps, hr, rfl⟩

theorem TaskingInfo.repeats (h : Follows P a b) :
    Repeats P a b v TaskingInfo.ofElement (·.warnings) := by
  intro e c hc hp
  simp only [TaskingInfo.ofElement, checked, bind_ok, within_ok, check_ok, pure_ok,
    exists_unit] at hc ⊢
  obtain ⟨rs, hrs, as, has, d, hd, t, ht, s, hs, hr, rfl⟩ := hc
  simp only [findings, parts, Heard.append, Heard.absorb, Heard.absorbAll_append,
    Heard.absorbAll_map, Heard.absorbAll_option] at hp
  obtain ⟨⟨⟨⟨hpr, hpa⟩, hpd⟩, hpt⟩, hps⟩ := hp
  exact ⟨rs, (TaskingRole.repeats h).all hrs hpr, as, (TaskingRole.repeats h).all has hpa,
    d, (Caption.repeats h).option hd hpd, t, ht, s, h.security hs hps, hr, rfl⟩

theorem Management.repeats (h : Follows P a b) :
    Repeats P a b v Management.ofElement (·.warnings) := by
  intro e c hc hp
  simp only [Management.ofElement, checked, bind_ok, within_ok, check_ok, pure_ok,
    exists_unit] at hc ⊢
  obtain ⟨c₀, ⟨records, hre, revision, hrv, ts, ht, ps, hps, s, hs, rfl⟩, hr, rfl⟩ := hc
  simp only [findings, parts, Heard.append, Heard.absorb, Heard.absorbAll_append,
    Heard.absorbAll_map, Heard.absorbAll_option] at hp
  obtain ⟨⟨⟨⟨hpr, hpv⟩, hpt⟩, hpp⟩, hpsec⟩ := hp
  exact ⟨_, ⟨records, (RecordsInfo.repeats h).option hre hpr,
    revision, (RevisionRecall.repeats h).option hrv hpv, ts, (TaskingInfo.repeats h).all ht hpt,
    ps, (ProcessingInfo.repeats h).all hps hpp, s, h.security hs hpsec, rfl⟩, hr, rfl⟩

end Management

section Protection

/-- The rules of a text repeat what they say about the kinds of contact. -/
theorem NoticeText.rules_follow (h : Follows P a b) {c : NoticeText} {ws : List Finding}
    (hw : c.rules a = .ok ws) (hp : Heard P ws) : c.rules b = .ok ws := by
  simp only [NoticeText.rules, bind_ok] at hw ⊢
  obtain ⟨u, hu, u', hu', u'', hu'', hk⟩ := hw
  exact ⟨u, hu, u', hu', u'', hu'', h.checkTokens hk hp⟩

theorem NoticeText.repeats (h : Follows P a b) :
    Repeats P a b v NoticeText.ofElement (·.warnings) := by
  intro e c hc hp
  simp only [NoticeText.ofElement, checked, bind_ok, within_ok, check_ok, pure_ok] at hc ⊢
  obtain ⟨s, hs, ws, hw, rfl⟩ := hc
  simp only [findings, Heard.append, Heard.absorb] at hp
  exact ⟨s, h.security hs hp.2, ws, rules_follow h hw hp.1.1, rfl⟩

theorem Notice.repeats (h : Follows P a b) : Repeats P a b v Notice.ofElement (·.warnings) := by
  intro e c hc hp
  simp only [Notice.ofElement, checked, bind_ok, within_ok, check_ok, pure_ok,
    exists_unit] at hc ⊢
  obtain ⟨ts, ht, s, hs, n, hn, hr, rfl⟩ := hc
  simp only [findings, Heard.append, Heard.absorb, Heard.absorbAll_map] at hp
  obtain ⟨⟨hpt, hps⟩, hpn⟩ := hp
  exact ⟨ts, (NoticeText.repeats h).all ht hpt, s, h.security hs hps, n, h.notice hn hpn, hr, rfl⟩

theorem NoticeList.repeats (h : Follows P a b) :
    Repeats P a b v NoticeList.ofElement (·.warnings) := by
  intro e c hc hp
  simp only [NoticeList.ofElement, checked, bind_ok, within_ok, check_ok, pure_ok,
    exists_unit] at hc ⊢
  obtain ⟨ns, hn, s, hs, hr, rfl⟩ := hc
  simp only [findings, Heard.append, Heard.absorb, Heard.absorbAll_map] at hp
  exact ⟨ns, (Notice.repeats h).all hn hp.1, s, h.security hs hp.2, hr, rfl⟩

theorem AccessText.repeats (h : Follows P a b) :
    Repeats P a b v AccessText.ofElement (·.warnings) := by
  intro e c hc hp
  unfold AccessText.ofElement at hc ⊢
  cases hk : Kind.ofName? e.localName with
  | none => simp only [hk, within_ok, error_ok] at hc
  | some kind =>
    simp only [hk, checked, bind_ok, within_ok, check_ok, pure_ok, exists_unit] at hc ⊢
    obtain ⟨uri, hu, s, hs, hr, rfl⟩ := hc
    simp only [findings, Heard.append, Heard.absorb] at hp
    exact ⟨uri, hu, s, h.security hs hp.2, hr, rfl⟩

theorem AccessEntity.repeats (h : Follows P a b) :
    Repeats P a b v AccessEntity.ofElement (·.warnings) := by
  intro e c hc hp
  unfold AccessEntity.ofElement at hc ⊢
  cases hk : Kind.ofName? e.localName with
  | none => simp only [hk, within_ok, error_ok] at hc
  | some kind =>
    simp only [hk, checked, bind_ok, within_ok, check_ok, pure_ok, exists_unit] at hc ⊢
    obtain ⟨uri, hu, system, hy, values, hv, s, hs, hr, rfl⟩ := hc
    simp only [findings, parts, Heard.append, Heard.absorb, Heard.absorbAll_append,
      Heard.absorbAll_map, Heard.absorbAll_option] at hp
    obtain ⟨⟨hpy, hpv⟩, hps⟩ := hp
    exact ⟨uri, hu, system, (AccessText.repeats h).option hy hpy,
      values, (AccessText.repeats h).all hv hpv, s, h.security hs hps, hr, rfl⟩

theorem ProfileList.repeats (h : Follows P a b) :
    Repeats P a b v ProfileList.ofElement (·.warnings) := by
  intro e c hc hp
  simp only [ProfileList.ofElement, checked, bind_ok, within_ok, check_ok, pure_ok,
    exists_unit] at hc ⊢
  obtain ⟨uri, hu, ps, hps, s, hs, hr, rfl⟩ := hc
  simp only [findings, Heard.append, Heard.absorb, Heard.absorbAll_map] at hp
  exact ⟨uri, hu, ps, (AccessEntity.repeats h).all hps hp.1, s, h.security hs hp.2, hr, rfl⟩

theorem Access.entries_follow (h : Follows P a b) {list : Option Element}
    {entries : List AccessEntity} (he : entriesOf a v list = .ok entries)
    (hp : ∀ c ∈ entries, Heard P c.warnings) : entriesOf b v list = .ok entries := by
  cases list with
  | none => exact he
  | some list =>
    simp only [entriesOf, within_ok] at he ⊢
    exact (AccessEntity.repeats h).all he hp

theorem Access.repeats (h : Follows P a b) : Repeats P a b v Access.ofElement (·.warnings) := by
  intro e c hc hp
  simp only [Access.ofElement, checked, bind_ok, within_ok, check_ok, pure_ok,
    exists_unit] at hc ⊢
  obtain ⟨uri, hu, is, hi, gs, hg, ps, hl, s, hs, hr, rfl⟩ := hc
  simp only [findings, parts, Heard.append, Heard.absorb, Heard.absorbAll_append,
    Heard.absorbAll_map, Heard.absorbAll_option] at hp
  obtain ⟨⟨-, ⟨hpi, hpg⟩, hpl⟩, hps⟩ := hp
  exact ⟨uri, hu, is, entries_follow h hi hpi, gs, entries_follow h hg hpg,
    ps, (ProfileList.repeats h).option hl hpl, s, h.security hs hps, hr, rfl⟩

theorem Security.repeats (h : Follows P a b) :
    Repeats P a b v Security.ofElement (·.warnings) := by
  intro e c hc hp
  simp only [Security.ofElement, checked, bind_ok, within_ok, check_ok, pure_ok,
    exists_unit] at hc ⊢
  obtain ⟨ns, hn, access, ha, s, hs, hr, rfl⟩ := hc
  simp only [findings, parts, Heard.append, Heard.absorb, Heard.absorbAll_append,
    Heard.absorbAll_option] at hp
  obtain ⟨⟨hpn, hpa⟩, hps⟩ := hp
  exact ⟨ns, (NoticeList.repeats h).option hn hpn, access, (Access.repeats h).option ha hpa,
    s, h.security hs hps, hr, rfl⟩

end Protection

section TopLevel

/-- A component of some kind, wrapped as a component of a resource. -/
theorem Repeats.map {α : Type} {read : Context → Version → Element → Outcome α}
    {warnings : α → List Finding} {wrap : α → TopLevel} (hr : Repeats P a b v read warnings)
    (hw : ∀ c, (wrap c).base.warnings = warnings c) {e : Element} {t : TopLevel}
    (ht : (read a v e).map wrap = .ok t) (hp : Heard P t.base.warnings) :
    (read b v e).map wrap = .ok t := by
  rw [map_ok] at ht ⊢
  obtain ⟨c, hc, rfl⟩ := ht
  exact ⟨c, hr hc (hw c ▸ hp), rfl⟩

theorem TopLevel.ddms_repeats (h : Follows P a b) :
    Repeats P a b v TopLevel.ofDdmsElement (·.base.warnings) := by
  intro e t ht hp
  unfold TopLevel.ofDdmsElement at ht ⊢
  generalize e.localName = name at ht ⊢
  split at ht
  case h_5 => exact (Source.repeats h).map (fun _ => rfl) ht hp
  case h_6 => exact (ResourceType.repeats h).map (fun _ => rfl) ht hp
  case h_8 => exact (SubjectCoverage.repeats h).map (fun _ => rfl) ht hp
  case h_9 => exact (VirtualCoverage.repeats h).map (fun _ => rfl) ht hp
  case h_10 => exact (TemporalCoverage.repeats h).map (fun _ => rfl) ht hp
  case h_11 => exact (GeospatialCoverage.repeats h).map (fun _ => rfl) ht hp
  case h_12 => exact (Security.repeats h).map (fun _ => rfl) ht hp
  case h_13 =>
    -- these kinds have names that depend on the version, or several names
    split_ifs at ht ⊢
    · exact (Management.repeats h).map (fun _ => rfl) ht hp
    · exact (RelatedResource.repeats h).map (fun _ => rfl) ht hp
    · exact (Caption.repeats h).map (fun _ => rfl) ht hp
    · exact (ProducerRole.repeats h).map (fun _ => rfl) ht hp
  all_goals exact Repeats.map (.of_eq rfl) (fun _ => rfl) ht hp

theorem TopLevel.repeats (h : Follows P a b) :
    Repeats P a b v TopLevel.ofElement (·.base.warnings) := by
  intro e t ht hp
  unfold TopLevel.ofElement at ht ⊢
  split at ht
  · rw [if_pos ‹_›]
    exact ddms_repeats h ht hp
  · rw [if_neg ‹_›]
    exact Repeats.map (.of_eq rfl) (fun _ => rfl) ht hp

end TopLevel

namespace Resource

theorem repeats (h : Follows P a b) : Repeats P a b v Resource.ofElement (·.warnings) := by
  intro e c hc hp
  simp only [Resource.ofElement, checked, bind_ok, within_ok, check_ok, pure_ok,
    exists_unit] at hc ⊢
  obtain ⟨m, hm, ts, ht, s, hs, n, hn, hr, rfl⟩ := hc
  simp only [findings, Heard.append, Heard.absorb, Heard.absorbAll_map] at hp
  obtain ⟨⟨⟨-, hpt⟩, hps⟩, hpn⟩ := hp
  have hpt : ∀ t ∈ ts, Heard P t.base.warnings := fun t ht => hpt t (TopLevel.mem_inOrder.2 ht)
  exact ⟨m, hm, ts, (TopLevel.repeats h).all ht hpt, s, h.security hs hps, n, h.notice hn hpn,
    hr, rfl⟩

/-- With the same vocabularies, a resource read where they bind is read where they do not, and one
read where they do not bind, and whose findings report no token, is read where they bind. It is the
same resource both times, findings included. -/
theorem strict_agrees_lenient (ctx : Context) (v : Version) (e : Element) (r : Resource) :
    (Resource.ofElement (ctx.withStrict true) v e = .ok r →
      Resource.ofElement (ctx.withStrict false) v e = .ok r) ∧
    (Resource.ofElement (ctx.withStrict false) v e = .ok r →
      (∀ f ∈ r.warnings, ¬ Context.ReportsToken f.text) →
      Resource.ofElement (ctx.withStrict true) v e = .ok r) := by
  constructor
  · intro h
    exact repeats ctx.lenient_follows h fun _ _ => trivial
  · intro h hp
    exact repeats ctx.strict_follows h hp

/-- An element of version 2.0 with as little as a resource can hold. -/
def smallest : Element :=
  let element := fun name (attributes : List (String × String)) (text : Option String)
      (children : List Element) =>
    { name := .prefixed "ddms" (Version.ddmsUri .v2_0) name
      attributes := attributes.map fun (n, value) =>
        ⟨.prefixed "ddms" (Version.ddmsUri .v2_0) n, value⟩
      text, children : Element }
  let classified := fun (e : Element) =>
    (e.setAttribute (.prefixed "ISM" (Version.ismUri .v2_0) "classification") "U").setAttribute
      (.prefixed "ISM" (Version.ismUri .v2_0) "ownerProducer") "USA"
  classified <| element "Resource" [] none
    [element "identifier" [("qualifier", "urn:isbn"), ("value", "0")] none [],
     element "title" [] (some "Title") [],
     element "creator" [] none
      [element "Person" [] none
        [element "name" [] (some "Jo") [], element "surname" [] (some "Doe") []]],
     element "subjectCoverage" [] none
      [element "Subject" [] none [element "keyword" [("value", "word")] none []]],
     classified (element "security" [] none [])]

theorem strict_agrees_lenient_smallest :
    ∃ r, Resource.ofElement (({} : Context).withStrict true) .v2_0 smallest = .ok r ∧
      Resource.ofElement (({} : Context).withStrict false) .v2_0 smallest = .ok r ∧
      ∀ f ∈ r.warnings, ¬ Context.ReportsToken f.text := by
  have hread : (Resource.ofElement (({} : Context).withStrict true) .v2_0
      smallest).toOption.map (·.warnings) = some [] := by decide +kernel
  obtain ⟨r, hr, hw⟩ := Option.map_eq_some_iff.1 hread
  have hp : ∀ f ∈ r.warnings, ¬ Context.ReportsToken f.text := by simp [hw]
  have hl := (strict_agrees_lenient {} .v2_0 smallest r).1 (toOption_ok.1 hr)
  exact ⟨r, (strict_agrees_lenient {} .v2_0 smallest r).2 hl hp, hl, hp⟩

end Resource

end DiscoveryMetadata
