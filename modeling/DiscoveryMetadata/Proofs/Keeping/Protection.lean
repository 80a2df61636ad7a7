import DiscoveryMetadata.Proofs.Keeping.Basic
import DiscoveryMetadata.Proofs.Returning.Protection
/-
  What the security of a resource keeps through its draft: notices with their texts, and
  need-to-know rules with their lists. Apart from attributes without a value, only parts are lost
  whose own drafts count as empty.
-/
namespace DiscoveryMetadata

open Buildable
open Xml (Element QName)

variable {ctx : Context} {v : Version} {e : Element}

section Notices

@[simp]
theorem Context.sameExpanded_ismName (l : String) (q : QName) :
    (ctx.ismName v l).sameExpanded q = q.isNamed v.ismUri l :=
  QName.sameExpanded_prefixed ..

theorem requireIn_ism {l : String} {x : Unit} :
    requireIn e v .ism l = .ok x ↔ e.name.isNamed v.ismUri l = true :=
  requireIn_ok rfl

theorem NoticeAttributes.addTo_total {a : NoticeAttributes} (h : a.version = v) (e : Element) :
    a.addTo ctx v e = .ok (e.putAll (ctx.ismName v) a.pairs) := by
  obtain ⟨e', he'⟩ : ∃ e', a.addTo ctx v e = .ok e' := by
    unfold addTo
    split
    · exact ⟨e, rfl⟩
    · exact ⟨_, if_neg (not_not_intro h)⟩
  rw [he', addTo_ok he']

namespace NoticeText

/-- A text of a notice is kept with its markings. -/
def Kept (c : NoticeText) : Prop := c.security.Filled

instance (c : NoticeText) : Decidable c.Kept := inferInstanceAs (Decidable c.security.Filled)

theorem renews {c : NoticeText} (h : ofElement ctx v e = .ok c) (hk : c.Kept) :
    Renews ctx v (ctx.ismName v "NoticeText") c.toDraft c := by
  simp only [ofElement, checked, bind_ok, within_ok, check_ok, pure_ok] at h
  obtain ⟨s, hs, ws, hr, rfl⟩ := h
  obtain ⟨hput, hs⟩ := SecurityAttributes.commitAs_read hs hk
  simp only [rules, bind_ok, exists_unit, requireIn_ism] at hr
  obtain ⟨hname, hr⟩ := hr
  refine ⟨_, bind_ok.2 ⟨s, hs, bind_ok.2 ⟨_, ctx.elementIn_ism, bind_ok.2 ⟨_, within_ok.2 (hput _),
    bind_ok.2 ⟨ws, check_ok.2 ?rules, rfl⟩⟩⟩⟩, ?same, rfl, by simp [Component.base]⟩
  case rules =>
    simp only [rules, bind_ok, exists_unit, requireIn_ism, toDraft, dropBlank_words]
    exact ⟨by simp, hr⟩
  case same =>
    change (_ == _ && (_ == _ && (_ == _ && _ == _))) = true
    simp [hname, toDraft, dropBlank_words]

end NoticeText

namespace Notice

/-- A notice is kept with its markings if its texts are. -/
def Kept (c : Notice) : Prop :=
  c.security.Filled ∧ AllKept NoticeText.toDraft NoticeText.Kept c.texts

instance (c : Notice) : Decidable c.Kept :=
  inferInstanceAs (Decidable (SecurityAttributes.Filled _ ∧ AllKept _ _ _))

theorem renews {c : Notice} (h : ofElement ctx v e = .ok c) (hk : c.Kept) :
    Renews ctx v (ctx.ismName v "Notice") c.toDraft c := by
  simp only [ofElement, checked, bind_ok, within_ok, check_ok, exists_unit, pure_ok] at h
  obtain ⟨ts, hts, s, hs, n, hn, hr, rfl⟩ := h
  obtain ⟨hfilled, htk⟩ := hk
  obtain ⟨hput, hs⟩ := SecurityAttributes.commitAs_read hs hfilled
  obtain ⟨hversion, hn⟩ := NoticeAttributes.ofValues_read hn
  obtain ⟨ts', hts', htl⟩ := readAll_renews (fun _ _ _ h hk => NoticeText.renews h hk) hts htk
  simp only [rules, bind_ok, exists_unit, requireIn_ism] at hr
  obtain ⟨hname, hsome, hsince, hclassified, -⟩ := hr
  refine ⟨_, bind_ok.2 ⟨n, hn, bind_ok.2 ⟨ts', hts', bind_ok.2 ⟨s, hs, bind_ok.2 ⟨_,
    ctx.elementIn_ism, bind_ok.2 ⟨_, within_ok.2 (bind_ok.2 ⟨_, hput _,
      NoticeAttributes.addTo_total hversion _⟩), bind_ok.2 ⟨(), check_ok.2 ?rules, rfl⟩⟩⟩⟩⟩⟩,
    ?same, rfl, by simp [Component.base]⟩
  case rules =>
    simp only [rules, bind_ok, exists_unit, requireIn_ism, Base.requireSameVersions_ok,
      Like.isEmpty_eq htl]
    exact ⟨by simp, hsome, hsince, hclassified, Like.versions htl⟩
  case same =>
    change (_ == _ && (_ == _ && (_ == _ && _ == _))) = true
    simp [hname, Like.beq_list htl]

end Notice

namespace NoticeList

/-- A list of notices is kept with its markings if the notices are. -/
def Kept (c : NoticeList) : Prop :=
  c.security.Filled ∧ AllKept Notice.toDraft Notice.Kept c.notices

instance (c : NoticeList) : Decidable c.Kept :=
  inferInstanceAs (Decidable (SecurityAttributes.Filled _ ∧ AllKept _ _ _))

theorem renews {c : NoticeList} (h : ofElement ctx v e = .ok c) (hk : c.Kept) :
    Renews ctx v (ctx.ddmsName v "noticeList") c.toDraft c := by
  simp only [ofElement, checked, bind_ok, within_ok, check_ok, exists_unit, pure_ok] at h
  obtain ⟨ns, hns, s, hs, hr, rfl⟩ := h
  obtain ⟨hfilled, hnk⟩ := hk
  obtain ⟨hput, hs⟩ := SecurityAttributes.commitAs_read hs hfilled
  obtain ⟨ns', hns', hnl⟩ := readAll_renews (fun _ _ _ h hk => Notice.renews h hk) hns hnk
  simp only [rules, bind_ok, exists_unit, requireDdms_ok] at hr
  obtain ⟨hname, hsome, hclassified, hsince, -⟩ := hr
  refine ⟨_, bind_ok.2 ⟨ns', hns', bind_ok.2 ⟨s, hs, bind_ok.2 ⟨_, within_ok.2 (hput _),
    bind_ok.2 ⟨(), check_ok.2 ?rules, rfl⟩⟩⟩⟩, ?same, rfl, by simp [Component.base]⟩
  case rules =>
    simp only [rules, bind_ok, exists_unit, requireDdms_ok, Base.requireSameVersions_ok,
      Like.isEmpty_eq hnl]
    exact ⟨by simp, hsome, hclassified, hsince, Like.versions hnl⟩
  case same =>
    change (_ == _ && (_ == _ && _ == _)) = true
    simp [hname, Like.beq_list hnl]

end NoticeList

end Notices

section NeedToKnow

@[simp]
theorem Context.sameExpanded_ntkName (l : String) (q : QName) :
    (ctx.ntkName l).sameExpanded q = q.isNamed Version.ntkUri l :=
  QName.sameExpanded_prefixed ..

namespace Ntk

variable {l u : String}

/-- A version that has an element of these rules has their namespace. -/
theorem uriOf_of_uriFor (h : uriFor v l = .ok u) : v.uriOf .ntk = .ok Version.ntkUri := by
  obtain ⟨-, -, hu⟩ := bind_ok.1 h
  exact uriFor_eq h ▸ hu

theorem element_since (h : uriFor v l = .ok u) :
    element ctx v l = .ok { name := ctx.ntkName l } :=
  within_ok.2 (bind_ok.2 ⟨u, h, bind_ok.2 ⟨_, bind_ok.2 ⟨_, uriOf_of_uriFor h, rfl⟩, rfl⟩⟩)

theorem requireIn_since (h : uriFor v l = .ok u) {n : String} {x : Unit} :
    requireIn e v .ntk n = .ok x ↔ e.name.isNamed Version.ntkUri n = true :=
  requireIn_ok (uriOf_of_uriFor h)

end Ntk

theorem Context.putIn_since {l value : String} (h : v.uriOf .ntk = .ok Version.ntkUri)
    (e : Element) : ctx.putIn v .ntk l value e = .ok (e.put (ctx.ntkName l) value) := by
  unfold putIn Element.put
  split
  · rfl
  · exact bind_ok.2 ⟨_, bind_ok.2 ⟨_, h, rfl⟩, rfl⟩

namespace AccessText

/-- A text is kept with its markings. -/
def Kept (c : AccessText) : Prop := c.security.Filled

instance (c : AccessText) : Decidable c.Kept := inferInstanceAs (Decidable c.security.Filled)

theorem Kind.name_injective : Function.Injective Kind.name := by
  rintro (_ | _ | _ | _) (_ | _ | _ | _) h <;> simp_all [name]

/-- The kind of a text is that of its name. -/
theorem ofElement_kind {c : AccessText} (h : ofElement ctx v e = .ok c) :
    c.kind.name = e.localName := by
  unfold ofElement at h
  split at h
  · simp only [within_ok, error_ok] at h
  case _ kind hkind =>
    simp only [checked, bind_ok, within_ok, check_ok, exists_unit, pure_ok] at h
    obtain ⟨u, -, s, -, -, rfl⟩ := h
    simpa using List.find?_some hkind

theorem renews {c : AccessText} (h : ofElement ctx v e = .ok c) (hk : c.Kept) :
    Renews ctx v (ctx.ntkName c.kind.name) c.toDraft c := by
  unfold ofElement at h
  split at h
  · simp only [within_ok, error_ok] at h
  · simp only [checked, bind_ok, within_ok, check_ok, exists_unit, pure_ok] at h
    obtain ⟨u, hu, s, hs, hr, rfl⟩ := h
    obtain ⟨hput, hs⟩ := SecurityAttributes.commitAs_read hs hk
    have hattribute : ∀ (l t : String) (e : Element),
        ctx.putIn v .ntk l t e = .ok (e.put (ctx.ntkName l) t) :=
      fun _ _ => Context.putIn_since (Ntk.uriOf_of_uriFor hu)
    simp only [rules, bind_ok, exists_unit, Ntk.requireIn_since hu] at hr
    obtain ⟨hname, hr⟩ := hr
    refine ⟨_, bind_ok.2 ⟨s, hs, bind_ok.2 ⟨_, Ntk.element_since hu, bind_ok.2 ⟨_, hattribute _ _ _,
      bind_ok.2 ⟨_, hattribute _ _ _, bind_ok.2 ⟨_, hattribute _ _ _, bind_ok.2 ⟨_, hattribute _ _ _,
        bind_ok.2 ⟨_, within_ok.2 (hput _), bind_ok.2 ⟨(), check_ok.2 ?rules, rfl⟩⟩⟩⟩⟩⟩⟩⟩, ?same, rfl,
      by simp [Component.base, toDraft]⟩
    case rules =>
      simp only [rules, bind_ok, exists_unit, Ntk.requireIn_since hu]
      exact ⟨by simp [toDraft], hr⟩
    case same =>
      change (_ == _ && (_ == _ && (_ == _ && (_ == _ && (_ == _ && (_ == _ && (_ == _ &&
        _ == _))))))) = true
      simp [hname, toDraft]

/-- A text of one kind that may be there is made again. -/
theorem readOption_renews (kind : Kind) {d : Draft} {o : Option Element} {p : Option AccessText}
    (ho : ∀ x ∈ o, x.localName = kind.name) (hd : isEmpty d = true)
    (h : readOption ofElement ctx v o = .ok p) (hk : AllKept toDraft Kept p.toList) :
    ∃ p', commitAs ctx v { (p.map toDraft).getD d with kind } = .ok p' ∧
      Option.Rel (Like v (ctx.ntkName kind.name)) p' p := by
  have hkind : ∀ x ∈ o, ∀ c, ofElement ctx v x = .ok c → c.kind = kind := fun x hx c hc =>
    Kind.name_injective ((ofElement_kind hc).trans (ho x hx))
  refine readOption_renews_map (g := fun d : Draft => { d with kind }) hd (fun x hx c h hk => ?_)
    (fun x hx c h => toDraft_kind (hkind x hx c h)) h hk
  have hc := renews h hk
  rwa [hkind x hx c h] at hc

/-- So are the texts of one kind. -/
theorem readAll_renews {kind : Kind} {u : String} {cs : List AccessText}
    (h : readAll ofElement ctx v (e.childrenNamed u kind.name) = .ok cs)
    (hk : AllKept toDraft Kept cs) :
    ∃ cs', commitAll ctx v ((cs.map toDraft).map fun t => { t with kind }) = .ok cs' ∧
      List.Forall₂ (Like v (ctx.ntkName kind.name)) cs' cs := by
  have hkind : ∀ x ∈ e.childrenNamed u kind.name, ∀ t, ofElement ctx v x = .ok t →
      t.kind = kind := fun x hx t ht =>
    Kind.name_injective ((ofElement_kind ht).trans (Element.localName_of_mem_childrenNamed hx))
  refine readAll_renews_map (fun x hx t h hk => ?_)
    (fun x hx t h => toDraft_kind (hkind x hx t h)) h hk
  have ht := renews h hk
  rwa [hkind x hx t h] at ht

end AccessText

namespace AccessEntity

/-- An entity is kept with its markings if its name in a system and its values are. -/
def Kept (c : AccessEntity) : Prop :=
  c.security.Filled ∧ AllKept AccessText.toDraft AccessText.Kept c.systemName.toList ∧
    AllKept AccessText.toDraft AccessText.Kept c.values

instance (c : AccessEntity) : Decidable c.Kept :=
  inferInstanceAs (Decidable (SecurityAttributes.Filled _ ∧ AllKept _ _ _ ∧ AllKept _ _ _))

theorem renews {c : AccessEntity} (h : ofElement ctx v e = .ok c) (hk : c.Kept) :
    Renews ctx v (ctx.ntkName c.kind.name) c.toDraft c := by
  unfold ofElement at h
  split at h
  · simp only [within_ok, error_ok] at h
  case _ kind hkind =>
  simp only [checked, bind_ok, within_ok, check_ok, exists_unit, pure_ok] at h
  obtain ⟨u, hu, n, hn, ts, hts, s, hs, hr, rfl⟩ := h
  obtain ⟨hfilled, hnk, htk⟩ := hk
  obtain ⟨hput, hs⟩ := SecurityAttributes.commitAs_read hs hfilled
  obtain ⟨n', hn', hnl⟩ := AccessText.readOption_renews .systemName (d := {})
    (fun _ => Element.localName_of_child?) rfl hn hnk
  obtain ⟨ts', hts', htl⟩ := AccessText.readAll_renews hts htk
  simp only [rules, bind_ok, exists_unit, Ntk.requireIn_since hu] at hr
  obtain ⟨hname, hsystem, hsome, -, hclassified⟩ := hr
  refine ⟨_, bind_ok.2 ⟨n', hn', bind_ok.2 ⟨ts', hts', bind_ok.2 ⟨s, hs, bind_ok.2 ⟨_,
    Ntk.element_since hu, bind_ok.2 ⟨_, within_ok.2 (hput _), bind_ok.2 ⟨(), check_ok.2 ?rules,
      rfl⟩⟩⟩⟩⟩⟩, ?same, rfl, by simp [Component.base, toDraft]⟩
  case rules =>
    simp only [rules, bind_ok, exists_unit, Ntk.requireIn_since hu, Like.isEmpty_eq htl]
    refine ⟨by simp [toDraft], ?_, hsome, ?_, hclassified⟩
    · have hkind : ∀ t ∈ n', t.kind = .systemName :=
        commitAs_all (fun _ => AccessText.build_kind) hn'
      cases hnl with
      | none => exact hsystem
      | some hlike =>
        exact bind_ok.2 ⟨(), demand_ok.2 (decide_eq_true (hkind _ rfl)),
          (Base.requireSameVersion_ok _ _).2 hlike.version⟩
    · have hkind : ∀ t ∈ ts', t.kind = kind.valueKind :=
        commitAll_map_all (fun _ _ => AccessText.build_kind) hts'
      exact forM_ok.2 fun t ht => bind_ok.2 ⟨(), demand_ok.2 (decide_eq_true (hkind t ht)),
        (Base.requireSameVersion_ok _ _).2 (Like.version_of_mem htl t ht)⟩
  case same =>
    change (_ == _ && (_ == _ && (_ == _ && (_ == _ && _ == _)))) = true
    simp [hname, toDraft, Like.beq_option hnl, Like.beq_list htl]

/-- The entities of one kind that were read are made again, of the same kind. -/
theorem readAll_renews {kind : Kind} {es : List Element} {cs : List AccessEntity}
    (hkind : ∀ c ∈ cs, c.kind = kind) (h : readAll ofElement ctx v es = .ok cs)
    (hk : AllKept toDraft Kept cs) :
    ∃ cs', commitAll ctx v (Draft.allOf kind (cs.map toDraft)) = .ok cs' ∧
      List.Forall₂ (Like v (ctx.ntkName kind.name)) cs' cs ∧ ∀ c ∈ cs', c.kind = kind := by
  have hsame : Draft.allOf kind (cs.map toDraft) = cs.map toDraft := by
    rw [Draft.allOf, List.map_map]
    exact List.map_congr_left fun c hc => toDraft_kind (hkind c hc)
  have hrenews : ∀ e ∈ es, ∀ c, ofElement ctx v e = .ok c → c.Kept ∧ c.kind = kind →
      Renews ctx v (ctx.ntkName kind.name) c.toDraft c :=
    fun _ _ _ h ⟨hk, hkind⟩ => hkind ▸ renews h hk
  obtain ⟨cs', hcs', hlike⟩ := DiscoveryMetadata.readAll_renews hrenews h
    fun c hc => ⟨(hk c hc).1, (hk c hc).2, hkind c hc⟩
  rw [← hsame] at hcs'
  exact ⟨cs', hcs', hlike, commitAll_map_all (fun _ _ => build_kind) hcs'⟩

end AccessEntity

namespace ProfileList

/-- A list of profiles is kept with its markings if the profiles are. -/
def Kept (c : ProfileList) : Prop :=
  c.security.Filled ∧ AllKept AccessEntity.toDraft AccessEntity.Kept c.profiles

instance (c : ProfileList) : Decidable c.Kept :=
  inferInstanceAs (Decidable (SecurityAttributes.Filled _ ∧ AllKept _ _ _))

theorem renews {c : ProfileList} (h : ofElement ctx v e = .ok c) (hk : c.Kept) :
    Renews ctx v (ctx.ntkName name) c.toDraft c := by
  simp only [ofElement, checked, bind_ok, within_ok, check_ok, exists_unit, pure_ok] at h
  obtain ⟨u, hu, ps, hps, s, hs, hr, rfl⟩ := h
  obtain ⟨hfilled, hpk⟩ := hk
  obtain ⟨hput, hs⟩ := SecurityAttributes.commitAs_read hs hfilled
  simp only [rules, bind_ok, exists_unit, Ntk.requireIn_since hu, forM_ok, checkProfile, demand_ok,
    Base.requireSameVersion_ok, decide_eq_true_eq] at hr
  obtain ⟨hname, hsome, hprofiles, hclassified⟩ := hr
  obtain ⟨ps', hps', hpl, hkind⟩ := AccessEntity.readAll_renews (fun p hp => (hprofiles p hp).1) hps
    hpk
  refine ⟨_, bind_ok.2 ⟨ps', hps', bind_ok.2 ⟨s, hs, bind_ok.2 ⟨_, Ntk.element_since hu, bind_ok.2
    ⟨_, within_ok.2 (hput _), bind_ok.2 ⟨(), check_ok.2 ?rules, rfl⟩⟩⟩⟩⟩, ?same, rfl,
    by simp [Component.base]⟩
  case rules =>
    simp only [rules, bind_ok, exists_unit, Ntk.requireIn_since hu, forM_ok, checkProfile, demand_ok,
      Base.requireSameVersion_ok, decide_eq_true_eq, Like.isEmpty_eq hpl]
    exact ⟨by simp, hsome, fun p hp => ⟨hkind p hp, Like.version_of_mem hpl p hp⟩, hclassified⟩
  case same =>
    change (_ == _ && (_ == _ && _ == _)) = true
    simp [hname, Like.beq_list hpl]

end ProfileList

namespace Access

/-- Need-to-know rules are kept with their markings if all their entries are. -/
def Kept (c : Access) : Prop :=
  c.security.Filled ∧ AllKept AccessEntity.toDraft AccessEntity.Kept c.individuals ∧
    AllKept AccessEntity.toDraft AccessEntity.Kept c.groups ∧
    AllKept ProfileList.toDraft ProfileList.Kept c.profileList.toList

instance (c : Access) : Decidable c.Kept :=
  inferInstanceAs (Decidable (SecurityAttributes.Filled _ ∧ AllKept _ _ _ ∧ AllKept _ _ _ ∧
    AllKept _ _ _))

/-- The entries of a list are read from its children; without a list there are none. -/
theorem readAll_of_entriesOf {list : Option Element} {cs : List AccessEntity}
    (h : entriesOf ctx v list = .ok cs) : ∃ es, readAll AccessEntity.ofElement ctx v es = .ok cs := by
  cases list with
  | none => exact ⟨[], h⟩
  | some list => exact ⟨_, within_ok.1 h⟩

theorem listOf_since {listName l u : String} (h : Ntk.uriFor v l = .ok u)
    (entries : List AccessEntity) :
    listOf ctx v listName entries = .ok (listed ctx listName entries) := by
  obtain ⟨es, hes⟩ : ∃ es, listOf ctx v listName entries = .ok es := by
    unfold listOf
    split
    · exact ⟨[], rfl⟩
    · exact ⟨_, bind_ok.2 ⟨_, bind_ok.2 ⟨_, bind_ok.2 ⟨_, Ntk.uriOf_of_uriFor h, rfl⟩, rfl⟩, rfl⟩⟩
  rw [hes, listOf_ok hes]

theorem renews {c : Access} (h : ofElement ctx v e = .ok c) (hk : c.Kept) :
    Renews ctx v (ctx.ntkName name) c.toDraft c := by
  simp only [ofElement, checked, bind_ok, within_ok, check_ok, exists_unit, pure_ok] at h
  obtain ⟨u, hu, is, his, gs, hgs, p, hp, s, hs, hr, rfl⟩ := h
  obtain ⟨hfilled, hik, hgk, hpk⟩ := hk
  obtain ⟨hput, hs⟩ := SecurityAttributes.commitAs_read hs hfilled
  simp only [rules, bind_ok, exists_unit, Ntk.requireIn_since hu, forM_ok, checkEntry, demand_ok,
    Base.requireSameVersion_ok, decide_eq_true_eq] at hr
  obtain ⟨hname, hindividuals, hgroups, -, hclassified⟩ := hr
  obtain ⟨_, his⟩ := readAll_of_entriesOf his
  obtain ⟨_, hgs⟩ := readAll_of_entriesOf hgs
  obtain ⟨is', his', hil, hikind⟩ := AccessEntity.readAll_renews (fun i hi => (hindividuals i hi).1)
    his hik
  obtain ⟨gs', hgs', hgl, hgkind⟩ := AccessEntity.readAll_renews (fun g hg => (hgroups g hg).1)
    hgs hgk
  obtain ⟨p', hp', hpl⟩ := readOption_renews (d := ({} : ProfileList.Draft)) rfl
    (fun _ _ _ h hk => ProfileList.renews h hk) hp hpk
  refine ⟨_, bind_ok.2 ⟨is', his', bind_ok.2 ⟨gs', hgs', bind_ok.2 ⟨p', hp', bind_ok.2 ⟨s, hs,
    bind_ok.2 ⟨_, Ntk.element_since hu, bind_ok.2 ⟨_, listOf_since hu _, bind_ok.2 ⟨_,
      listOf_since hu _, bind_ok.2 ⟨_, within_ok.2 (hput _), bind_ok.2 ⟨(), check_ok.2 ?rules,
        rfl⟩⟩⟩⟩⟩⟩⟩⟩⟩, ?same, rfl, by simp [Component.base]⟩
  case rules =>
    simp only [rules, bind_ok, exists_unit, Ntk.requireIn_since hu, forM_ok, checkEntry, demand_ok,
      Base.requireSameVersion_ok, Base.requireSameVersions_ok, decide_eq_true_eq]
    exact ⟨by simp, fun i hi => ⟨hikind i hi, Like.version_of_mem hil i hi⟩,
      fun g hg => ⟨hgkind g hg, Like.version_of_mem hgl g hg⟩, Like.versions_option hpl,
      hclassified⟩
  case same =>
    change (_ == _ && (_ == _ && (_ == _ && (_ == _ && _ == _)))) = true
    simp [hname, Like.beq_list hil, Like.beq_list hgl, Like.beq_option hpl]

end Access

end NeedToKnow

namespace Security

/-- The security of a resource is kept with its markings if its notices and rules are. -/
def Kept (c : Security) : Prop :=
  c.security.Filled ∧ AllKept NoticeList.toDraft NoticeList.Kept c.noticeList.toList ∧
    AllKept Access.toDraft Access.Kept c.access.toList

instance (c : Security) : Decidable c.Kept :=
  inferInstanceAs (Decidable (SecurityAttributes.Filled _ ∧ AllKept _ _ _ ∧ AllKept _ _ _))

/-- The exclusion from a roll-up is said in just the versions that have it. -/
theorem checkRollup_ok {c : Security} {x : Unit} : c.checkRollup = .ok x ↔
    c.excludeFromRollup = if c.version.atLeast .v3_0 then some true else none := by
  unfold checkRollup
  split
  · cases c.excludeFromRollup <;> simp [demand_ok]
  · simp [demand_ok]

/-- The element that is made holds the notices and the rules, and nothing else. -/
theorem make_eq (noticeList : Option NoticeList) (access : Option Access) {s : SecurityAttributes}
    (hput : ∀ e, s.addTo ctx v e = .ok (SecurityAttributes.mark ctx v s.values e)) :
    ∃ e : Element, e.name = ctx.ddmsName v name ∧
      e.children = (noticeList.map (·.element)).toList ++ (access.map (·.element)).toList ∧
      make ctx v noticeList access s = checked
        ⟨⟨e, v, []⟩, if v.atLeast .v3_0 then some true else none, noticeList, access, s⟩ := by
  refine ⟨SecurityAttributes.mark ctx v s.values ((if v.atLeast .v3_0 then
    (ctx.ddmsElement v name).setAttribute (ctx.ismName v rollupName) rollupValue
    else ctx.ddmsElement v name).add
      ((noticeList.map (·.element)).toList ++ (access.map (·.element)).toList)), ?_, ?_, ?_⟩
  · split <;> simp
  · split <;> simp
  · simp only [make, hput]
    rfl

/-- Notices and rules like those of the security of a resource make one like it. -/
theorem make_like {c : Security} {noticeList : Option NoticeList} {access : Option Access}
    (hv : c.version = v)
    (hn : Option.Rel (Like v (ctx.ddmsName v "noticeList")) noticeList c.noticeList)
    (ha : Option.Rel (Like v (ctx.ntkName Access.name)) access c.access)
    (hput : ∀ e, c.security.addTo ctx v e = .ok (SecurityAttributes.mark ctx v c.security.values e))
    (hr : c.rules = .ok ()) :
    ∃ c', make ctx v noticeList access c.security = .ok c' ∧
      Like v (ctx.ddmsName v name) c' c := by
  obtain ⟨⟨e, version, w⟩, excluded, n, a, s⟩ := c
  obtain rfl : version = v := hv
  simp only [rules, bind_ok, exists_unit, requireDdms_ok, checkRollup_ok] at hr
  obtain ⟨hname, -, -, hrollup, -, hclassified⟩ := hr
  obtain ⟨e', hname', hchildren, hmake⟩ := make_eq noticeList access hput
  rw [hmake]
  refine ⟨_, bind_ok.2 ⟨(), check_ok.2 ?rules, rfl⟩, ?same, rfl, hname'⟩
  case rules =>
    have hnn : ∀ e ∈ (noticeList.map (·.element)).toList, e.name = _ := Like.names_option hn
    have han : ∀ e ∈ (access.map (·.element)).toList, e.name = _ := Like.names_option ha
    have hfind : ∀ u l, e'.childrenNamed u l = _ := fun u l => by
      rw [Element.childrenNamed, hchildren, List.filter_append, filter_named hnn, filter_named han]
    simp only [rules, bind_ok, exists_unit, requireDdms_ok, checkRollup_ok, requireChildren_ok,
      requireCount, demand_ok, Base.requireSameVersions_ok, parts, List.forall_mem_append]
    refine ⟨by simp [hname'], ?_, ?_, trivial, ⟨Like.versions_option hn, Like.versions_option ha⟩,
      hclassified⟩
    · simp [Element.ownChildren, hfind, QName.isNamed, Access.name, Element.uri, hname']
    · unfold accessElements Version.uriOf
      by_cases hv : version.atLeast .v4_0_1 = true <;>
        simp [hv, hfind, QName.isNamed, Access.name]
  case same =>
    change (_ == _ && (_ == _ && (_ == _ && (_ == _ && _ == _)))) = true
    simp [hname', hname, hrollup.symm, Like.beq_option hn, Like.beq_option ha]

theorem renews {c : Security} (h : ofElement ctx v e = .ok c) (hk : c.Kept) :
    Renews ctx v (ctx.ddmsName v name) c.toDraft c := by
  simp only [ofElement, checked, bind_ok, within_ok, check_ok, exists_unit, pure_ok] at h
  obtain ⟨n, hn, a, ha, s, hs, hr, rfl⟩ := h
  obtain ⟨hfilled, hnk, hak⟩ := hk
  obtain ⟨hput, hs⟩ := SecurityAttributes.commitAs_read hs hfilled
  obtain ⟨n', hn', hnl⟩ := readOption_renews (d := ({} : NoticeList.Draft)) rfl
    (fun _ _ _ h hk => NoticeList.renews h hk) hn hnk
  obtain ⟨a', ha', hal⟩ := readOption_renews (d := ({} : Access.Draft)) rfl
    (fun _ _ _ h hk => Access.renews h hk) ha hak
  obtain ⟨c', hmade, hlike⟩ := make_like (c := ⟨⟨e, v, []⟩, _, n, a, s⟩) rfl hnl hal hput hr
  exact ⟨c', bind_ok.2 ⟨n', hn', bind_ok.2 ⟨a', ha', bind_ok.2 ⟨s, hs, hmade⟩⟩⟩, hlike.same,
    hlike.version, hlike.name⟩

end Security

end DiscoveryMetadata
