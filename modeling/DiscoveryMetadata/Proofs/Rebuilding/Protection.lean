import DiscoveryMetadata.Proofs.Rebuilding.Basic
import DiscoveryMetadata.Protection.Security
/-
  The security of a resource from its own draft: notices with their texts, and need-to-know rules
  with their lists.
-/
namespace DiscoveryMetadata

open Buildable
open Xml (Element)

variable {ctx : Context} {v : Version} {s : SecurityAttributes}

namespace NoticeAttributes

variable {a : NoticeAttributes} {type reason date unregistered : String} {external : Option Bool}

theorem ofValues_keeps (h : ofValues ctx v type reason date unregistered external = .ok a) :
    a.noticeType = type ∧ a.noticeReason = reason ∧ a.noticeDate = date ∧
      a.unregisteredNoticeType = unregistered ∧ a.externalNotice = external := by
  simp only [ofValues, checked, bind_ok, pure_ok] at h
  obtain ⟨ws, -, rfl⟩ := h
  exact ⟨rfl, rfl, rfl, rfl, rfl⟩

theorem ofValues_toDraft (h : ofValues ctx v type reason date unregistered external = .ok a) :
    ofValues ctx v a.noticeType a.noticeReason a.noticeDate a.unregisteredNoticeType
      a.externalNotice = .ok a := by
  obtain ⟨rfl, rfl, rfl, rfl, rfl⟩ := ofValues_keeps h
  exact h

end NoticeAttributes

namespace NoticeText

variable {c : NoticeText} {value : String} {pocTypes : List String}

theorem make_keeps (h : make ctx v value pocTypes s = .ok c) :
    c.value = value ∧ c.pocTypes = pocTypes ∧ c.security = s := by
  simp only [make, checked, bind_ok, within_ok, check_ok, pure_ok] at h
  obtain ⟨e, -, e', -, ws, -, rfl⟩ := h
  exact ⟨rfl, rfl, rfl⟩

theorem rebuilds (d : Draft) : Rebuilds ctx v toDraft d := by
  obtain ⟨_, value, pocTypes, security⟩ := d
  intro c h
  obtain ⟨he, h⟩ := commitAs_some.1 h
  obtain ⟨s, hs, h⟩ := bind_ok.1 h
  obtain ⟨rfl, hpoc, rfl⟩ := make_keeps h
  refine commitAs_some.2 ⟨?_, bind_ok.2 ⟨_, SecurityAttributes.commitAs_toDraft hs, ?_⟩⟩
  · simpa only [isEmpty, toDraft, SecurityAttributes.toDraft_isEmpty hs, hpoc,
      allBlank_dropBlank] using he
  · simpa only [toDraft, hpoc, dropBlank_dropBlank] using h

end NoticeText

namespace Notice

variable {c : Notice} {texts : List NoticeText} {notice : NoticeAttributes}

theorem make_keeps (h : make ctx v texts s notice = .ok c) :
    c.texts = texts ∧ c.security = s ∧ c.notice = notice := by
  simp only [make, checked, bind_ok, within_ok, check_ok, exists_unit, pure_ok] at h
  obtain ⟨e, -, e', -, -, rfl⟩ := h
  exact ⟨rfl, rfl, rfl⟩

theorem rebuilds (d : Draft) : Rebuilds ctx v toDraft d := by
  obtain ⟨_, texts, security, type, reason, date, unregistered, external⟩ := d
  intro c h
  obtain ⟨he, h⟩ := commitAs_some.1 h
  obtain ⟨a, ha, h⟩ := bind_ok.1 h
  obtain ⟨rfl, rfl, rfl, rfl, rfl⟩ := NoticeAttributes.ofValues_keeps ha
  obtain ⟨ts, hts, h⟩ := bind_ok.1 h
  obtain ⟨s, hs, h⟩ := bind_ok.1 h
  obtain ⟨rfl, rfl, rfl⟩ := make_keeps h
  have hts' := commitAll_toDraft (fun d _ => NoticeText.rebuilds d) hts
  refine commitAs_some.2 ⟨?_, bind_ok.2 ⟨_, ha, bind_ok.2 ⟨_, hts', bind_ok.2
    ⟨_, SecurityAttributes.commitAs_toDraft hs, h⟩⟩⟩⟩
  simpa only [isEmpty, toDraft, SecurityAttributes.toDraft_isEmpty hs, allEmpty_eq hts,
    allEmpty_eq hts'] using he

end Notice

namespace NoticeList

variable {c : NoticeList} {notices : List Notice}

theorem make_keeps (h : make ctx v notices s = .ok c) : c.notices = notices ∧ c.security = s := by
  simp only [make, checked, bind_ok, within_ok, check_ok, exists_unit, pure_ok] at h
  obtain ⟨e, -, -, rfl⟩ := h
  exact ⟨rfl, rfl⟩

theorem rebuilds (d : Draft) : Rebuilds ctx v toDraft d := by
  obtain ⟨_, notices, security⟩ := d
  intro c h
  obtain ⟨he, h⟩ := commitAs_some.1 h
  obtain ⟨ns, hns, h⟩ := bind_ok.1 h
  obtain ⟨s, hs, h⟩ := bind_ok.1 h
  obtain ⟨rfl, rfl⟩ := make_keeps h
  have hns' := commitAll_toDraft (fun d _ => Notice.rebuilds d) hns
  refine commitAs_some.2 ⟨?_, bind_ok.2 ⟨_, hns', bind_ok.2
    ⟨_, SecurityAttributes.commitAs_toDraft hs, h⟩⟩⟩
  simpa only [isEmpty, toDraft, SecurityAttributes.toDraft_isEmpty hs, allEmpty_eq hns,
    allEmpty_eq hns'] using he

end NoticeList

namespace AccessText

variable {c : AccessText} {kind : Kind} {value vocabulary id idReference qualifier : String}

theorem make_keeps
    (h : make ctx v kind value vocabulary id idReference qualifier s = .ok c) :
    c.kind = kind ∧ c.value = value ∧ c.vocabulary = vocabulary ∧ c.id = id ∧
      c.idReference = idReference ∧ c.qualifier = qualifier ∧ c.security = s := by
  simp only [make, checked, bind_ok, within_ok, check_ok, exists_unit, pure_ok] at h
  obtain ⟨e, -, e₁, -, e₂, -, e₃, -, e₄, -, e₅, -, -, rfl⟩ := h
  exact ⟨rfl, rfl, rfl, rfl, rfl, rfl, rfl⟩

theorem build_kind {d : Draft} (h : build ctx v d = .ok c) : c.kind = d.kind := by
  obtain ⟨s, -, h⟩ := bind_ok.1 h
  exact (make_keeps h).1

theorem rebuilds (d : Draft) : Rebuilds ctx v toDraft d := by
  obtain ⟨_, kind, value, vocabulary, id, idReference, qualifier, security⟩ := d
  intro c h
  obtain ⟨he, h⟩ := commitAs_some.1 h
  obtain ⟨s, hs, h⟩ := bind_ok.1 h
  obtain ⟨rfl, rfl, rfl, rfl, rfl, rfl, rfl⟩ := make_keeps h
  refine commitAs_some.2 ⟨?_, bind_ok.2 ⟨_, SecurityAttributes.commitAs_toDraft hs, h⟩⟩
  simpa only [isEmpty, toDraft, SecurityAttributes.toDraft_isEmpty hs] using he

/-- The draft of a text is one for texts of its kind. -/
theorem toDraft_kind {kind : Kind} (h : c.kind = kind) : { c.toDraft with kind } = c.toDraft := by
  subst h
  rfl

end AccessText

namespace AccessEntity

variable {c : AccessEntity} {kind : Kind} {systemName : Option AccessText}
  {values : List AccessText}

theorem make_keeps (h : make ctx v kind systemName values s = .ok c) :
    c.kind = kind ∧ c.systemName = systemName ∧ c.values = values ∧ c.security = s := by
  simp only [make, checked, bind_ok, within_ok, check_ok, exists_unit, pure_ok] at h
  obtain ⟨e, -, e', -, -, rfl⟩ := h
  exact ⟨rfl, rfl, rfl, rfl⟩

theorem build_kind {d : Draft} (h : build ctx v d = .ok c) : c.kind = d.kind := by
  obtain ⟨x, -, h⟩ := bind_ok.1 h
  obtain ⟨ys, -, h⟩ := bind_ok.1 h
  obtain ⟨s, -, h⟩ := bind_ok.1 h
  exact (make_keeps h).1

theorem isEmpty_draft (d : Draft) :
    isEmpty d = (isEmpty { d.systemName with kind := .systemName } && allEmpty d.values &&
      d.security.isEmpty) := rfl

theorem rebuilds (d : Draft) : Rebuilds ctx v toDraft d := by
  obtain ⟨_, kind, systemName, values, security⟩ := d
  intro c h
  obtain ⟨he, h⟩ := commitAs_some.1 h
  obtain ⟨x, hx, h⟩ := bind_ok.1 h
  obtain ⟨ys, hys, h⟩ := bind_ok.1 h
  obtain ⟨s, hs, h⟩ := bind_ok.1 h
  obtain ⟨rfl, rfl, rfl, rfl⟩ := make_keeps h
  have hx' := commitAs_map_getD (e := {})
    (g := fun d : AccessText.Draft => { d with kind := .systemName }) rfl (AccessText.rebuilds _) hx
    fun _ hc => AccessText.toDraft_kind
      (commitAs_all (fun _ hc => AccessText.build_kind hc) hx _ hc)
  have hvalue : ∀ t ∈ c.values, t.kind = c.kind.valueKind :=
    commitAll_map_all (fun _ _ ht => AccessText.build_kind ht) hys
  have hys' := commitAll_map_toDraft (fun _ _ => AccessText.rebuilds _) hys
    fun t ht => AccessText.toDraft_kind (hvalue t ht)
  have hvalues := allEmpty_map_toDraft (fun _ _ => AccessText.rebuilds _) hys fun _ => rfl
  refine commitAs_some.2 ⟨?_, bind_ok.2 ⟨_, hx', bind_ok.2 ⟨_, hys', bind_ok.2
    ⟨_, SecurityAttributes.commitAs_toDraft hs, h⟩⟩⟩⟩
  simpa only [isEmpty_draft, toDraft, SecurityAttributes.toDraft_isEmpty hs, isEmpty_eq hx,
    isEmpty_eq hx', hvalues] using he

/-- The draft of an entity is one for entities of its kind. -/
theorem toDraft_kind {kind : Kind} (h : c.kind = kind) : { c.toDraft with kind } = c.toDraft := by
  subst h
  rfl

/-- A list of entities of one kind is made again, and its drafts are empty where they were. -/
theorem commitAll_allOf {ds : List Draft} {cs : List AccessEntity}
    (h : commitAll ctx v (Draft.allOf kind ds) = .ok cs) :
    commitAll ctx v (Draft.allOf kind (cs.map (·.toDraft))) = .ok cs ∧
      allEmpty (cs.map (·.toDraft)) = allEmpty ds := by
  have hkind : ∀ c ∈ cs, c.kind = kind := commitAll_map_all (fun _ _ hc => build_kind hc) h
  exact ⟨commitAll_map_toDraft (fun _ _ => rebuilds _) h fun c hc => toDraft_kind (hkind c hc),
    allEmpty_map_toDraft (fun _ _ => rebuilds _) h fun _ => rfl⟩

end AccessEntity

namespace ProfileList

variable {c : ProfileList} {profiles : List AccessEntity}

theorem make_keeps (h : make ctx v profiles s = .ok c) :
    c.profiles = profiles ∧ c.security = s := by
  simp only [make, checked, bind_ok, within_ok, check_ok, exists_unit, pure_ok] at h
  obtain ⟨e, -, e', -, -, rfl⟩ := h
  exact ⟨rfl, rfl⟩

theorem rebuilds (d : Draft) : Rebuilds ctx v toDraft d := by
  obtain ⟨_, profiles, security⟩ := d
  intro c h
  obtain ⟨he, h⟩ := commitAs_some.1 h
  obtain ⟨ps, hps, h⟩ := bind_ok.1 h
  obtain ⟨s, hs, h⟩ := bind_ok.1 h
  obtain ⟨rfl, rfl⟩ := make_keeps h
  obtain ⟨hps, hempty⟩ := AccessEntity.commitAll_allOf hps
  refine commitAs_some.2 ⟨?_, bind_ok.2 ⟨_, hps, bind_ok.2
    ⟨_, SecurityAttributes.commitAs_toDraft hs, h⟩⟩⟩
  simpa only [isEmpty, toDraft, SecurityAttributes.toDraft_isEmpty hs, hempty] using he

end ProfileList

namespace Access

variable {c : Access} {individuals groups : List AccessEntity} {profileList : Option ProfileList}

theorem make_keeps (h : make ctx v individuals groups profileList s = .ok c) :
    c.individuals = individuals ∧ c.groups = groups ∧ c.profileList = profileList ∧
      c.security = s := by
  simp only [make, checked, bind_ok, within_ok, check_ok, exists_unit, pure_ok] at h
  obtain ⟨e, -, is, -, gs, -, e', -, -, rfl⟩ := h
  exact ⟨rfl, rfl, rfl, rfl⟩

theorem isEmpty_draft (d : Draft) :
    isEmpty d = (allEmpty d.individuals && allEmpty d.groups && isEmpty d.profileList &&
      d.security.isEmpty) := rfl

theorem rebuilds (d : Draft) : Rebuilds ctx v toDraft d := by
  obtain ⟨_, individuals, groups, profileList, security⟩ := d
  intro c h
  obtain ⟨he, h⟩ := commitAs_some.1 h
  obtain ⟨is, his, h⟩ := bind_ok.1 h
  obtain ⟨gs, hgs, h⟩ := bind_ok.1 h
  obtain ⟨p, hp, h⟩ := bind_ok.1 h
  obtain ⟨s, hs, h⟩ := bind_ok.1 h
  obtain ⟨rfl, rfl, rfl, rfl⟩ := make_keeps h
  obtain ⟨his, hiempty⟩ := AccessEntity.commitAll_allOf his
  obtain ⟨hgs, hgempty⟩ := AccessEntity.commitAll_allOf hgs
  have hp' := commitAs_getD (e := {}) rfl (ProfileList.rebuilds _) hp
  refine commitAs_some.2 ⟨?_, bind_ok.2 ⟨_, his, bind_ok.2 ⟨_, hgs, bind_ok.2 ⟨_, hp', bind_ok.2
    ⟨_, SecurityAttributes.commitAs_toDraft hs, h⟩⟩⟩⟩⟩
  simpa only [isEmpty_draft, toDraft, SecurityAttributes.toDraft_isEmpty hs, hiempty, hgempty,
    isEmpty_eq hp, isEmpty_eq hp'] using he

end Access

namespace Security

variable {c : Security} {noticeList : Option NoticeList} {access : Option Access}

theorem make_keeps (h : make ctx v noticeList access s = .ok c) :
    c.noticeList = noticeList ∧ c.access = access ∧ c.security = s := by
  simp only [make, checked, bind_ok, within_ok, check_ok, exists_unit, pure_ok] at h
  obtain ⟨e, -, -, rfl⟩ := h
  exact ⟨rfl, rfl, rfl⟩

theorem isEmpty_draft (d : Draft) :
    isEmpty d = (isEmpty d.noticeList && isEmpty d.access && d.security.isEmpty) := rfl

theorem rebuilds (d : Draft) : Rebuilds ctx v toDraft d := by
  obtain ⟨_, noticeList, access, security⟩ := d
  intro c h
  obtain ⟨he, h⟩ := commitAs_some.1 h
  obtain ⟨n, hn, h⟩ := bind_ok.1 h
  obtain ⟨a, ha, h⟩ := bind_ok.1 h
  obtain ⟨s, hs, h⟩ := bind_ok.1 h
  obtain ⟨rfl, rfl, rfl⟩ := make_keeps h
  have hn' := commitAs_getD (e := {}) rfl (NoticeList.rebuilds _) hn
  have ha' := commitAs_getD (e := {}) rfl (Access.rebuilds _) ha
  refine commitAs_some.2 ⟨?_, bind_ok.2 ⟨_, hn', bind_ok.2 ⟨_, ha', bind_ok.2
    ⟨_, SecurityAttributes.commitAs_toDraft hs, h⟩⟩⟩⟩
  simpa only [isEmpty_draft, toDraft, SecurityAttributes.toDraft_isEmpty hs, isEmpty_eq hn,
    isEmpty_eq ha, isEmpty_eq hn', isEmpty_eq ha'] using he

end Security

end DiscoveryMetadata
