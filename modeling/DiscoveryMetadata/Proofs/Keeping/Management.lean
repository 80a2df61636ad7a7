import DiscoveryMetadata.Proofs.Keeping.Roles
import DiscoveryMetadata.Proofs.Keeping.Subjects
import DiscoveryMetadata.Proofs.Rebuilding.Management
/-
  What the management of a resource keeps through its draft.

  Task identifiers and revisions can carry a link, of which a draft holds the parts but not the
  type: the link is made anew with the type that such links have. Lost are links of another type and
  parts of links that the draft has no place for, and the blank text of a revision that has links or
  details.
-/
namespace DiscoveryMetadata

open Buildable
open Xml (Element)

variable {ctx : Context} {v : Version} {e : Element}

namespace ManagedText

/-- A text is kept with its markings. -/
def Kept (c : ManagedText) : Prop := c.security.Filled

instance (c : ManagedText) : Decidable c.Kept := inferInstanceAs (Decidable c.security.Filled)

theorem Kind.name_of_ofName? {l : String} {kind : Kind} (h : ofName? l = some kind) :
    kind.name = l := by
  simpa using List.find?_some h

theorem Kind.name_injective : Function.Injective Kind.name := by
  rintro (_ | _) (_ | _) h <;> simp_all [name]

theorem ofElement_kind {c : ManagedText} (h : ofElement ctx v e = .ok c) :
    c.kind.name = e.localName := by
  unfold ofElement at h
  split at h
  · simp only [within_ok, error_ok] at h
  case _ kind hkind =>
    simp only [checked, bind_ok, within_ok, check_ok, exists_unit, pure_ok] at h
    obtain ⟨s, -, -, rfl⟩ := h
    exact Kind.name_of_ofName? hkind

theorem renews {c : ManagedText} (h : ofElement ctx v e = .ok c) (hk : c.Kept) :
    Renews ctx v (ctx.ddmsName v c.kind.name) c.toDraft c := by
  unfold ofElement at h
  split at h
  · simp only [within_ok, error_ok] at h
  · simp only [checked, bind_ok, within_ok, check_ok, exists_unit, pure_ok] at h
    obtain ⟨s, hs, hr, rfl⟩ := h
    obtain ⟨hput, hs⟩ := SecurityAttributes.commitAs_read hs hk
    simp only [rules, bind_ok, exists_unit, requireDdms_ok] at hr
    obtain ⟨hname, hr⟩ := hr
    refine ⟨_, bind_ok.2 ⟨s, hs, bind_ok.2 ⟨_, within_ok.2 (hput _),
      bind_ok.2 ⟨(), check_ok.2 ?rules, rfl⟩⟩⟩, ?same, rfl, by simp [Component.base, toDraft]⟩
    case rules => simpa [rules, bind_ok, exists_unit, requireDdms_ok, toDraft] using hr
    case same =>
      change (_ == _ && (_ == _ && (_ == _ && _ == _))) = true
      simp [hname, toDraft]

/-- A text of one kind that may be there is made again. -/
theorem readOption_renews (kind : Kind) {d : Draft} {o : Option Element} {p : Option ManagedText}
    (ho : ∀ x ∈ o, x.localName = kind.name) (hd : isEmpty d = true)
    (h : readOption ofElement ctx v o = .ok p) (hk : AllKept toDraft Kept p.toList) :
    ∃ p', commitAs ctx v { (p.map toDraft).getD d with kind } = .ok p' ∧
      Option.Rel (Like v (ctx.ddmsName v kind.name)) p' p := by
  have hkind : ∀ x ∈ o, ∀ c, ofElement ctx v x = .ok c → c.kind = kind := fun x hx c hc =>
    Kind.name_injective ((ofElement_kind hc).trans (ho x hx))
  refine readOption_renews_map (g := fun d : Draft => { d with kind }) hd (fun x hx c h hk => ?_)
    (fun x hx c h => toDraft_kind (hkind x hx c h)) h hk
  have hc := renews h hk
  rwa [hkind x hx c h] at hc

/-- So are the texts of one kind. -/
theorem readAll_renews (kind : Kind) {cs : List ManagedText}
    (h : readAll ofElement ctx v (e.childrenNamed v.ddmsUri kind.name) = .ok cs)
    (hk : AllKept toDraft Kept cs) :
    ∃ cs', commitAll ctx v ((cs.map toDraft).map fun t => { t with kind }) = .ok cs' ∧
      List.Forall₂ (Like v (ctx.ddmsName v kind.name)) cs' cs := by
  have hkind : ∀ x ∈ e.childrenNamed v.ddmsUri kind.name, ∀ t, ofElement ctx v x = .ok t →
      t.kind = kind := fun x hx t ht =>
    Kind.name_injective ((ofElement_kind ht).trans (Element.localName_of_mem_childrenNamed hx))
  refine readAll_renews_map (fun x hx t h hk => ?_)
    (fun x hx t h => toDraft_kind (hkind x hx t h)) h hk
  have ht := renews h hk
  rwa [hkind x hx t h] at ht

end ManagedText

namespace RecordKeeper

/-- A record keeper is kept if its organization is. -/
def Kept (c : RecordKeeper) : Prop := ∀ o ∈ c.organization, o.Kept

instance (c : RecordKeeper) : Decidable c.Kept :=
  inferInstanceAs (Decidable (∀ o ∈ c.organization, o.Kept))

theorem renews {c : RecordKeeper} (h : ofElement ctx v e = .ok c) (hk : c.Kept) :
    Renews ctx v (ctx.ddmsName v "recordKeeper") c.toDraft c := by
  simp only [ofElement, checked, bind_ok, within_ok, check_ok, exists_unit, pure_ok] at h
  obtain ⟨o, ho, hr, rfl⟩ := h
  simp only [rules, bind_ok, exists_unit, requireDdms_ok] at hr
  obtain ⟨hname, hid, hr⟩ := hr
  generalize e.child? v.ddmsUri (Entity.name v "organization") = child at ho
  cases readOption_ok.1 ho with
  | none => simp at hr
  | some hread =>
    simp only [bind_ok, exists_unit, Base.requireSameVersion_ok] at hr
    obtain ⟨-, hsince⟩ := hr
    obtain ⟨o', hagain, hlike⟩ := Organization.renews hread (hk _ rfl)
    have hcommit := commitAs_some.2 ⟨Organization.isEmpty_toDraft hread, hagain⟩
    refine ⟨_, bind_ok.2 ⟨some o', hcommit, bind_ok.2 ⟨(), check_ok.2 ?rules, rfl⟩⟩, ?same, rfl,
      by simp [Component.base]⟩
    case rules =>
      simp only [rules, bind_ok, exists_unit, requireDdms_ok, Base.requireSameVersion_ok]
      exact ⟨by simp, hid, hlike.version, hsince⟩
    case same =>
      have ho : (some o' == some _) = true := hlike.same
      change (_ == _ && (_ == _ && _ == _)) = true
      simp [hname, toDraft, ho]

end RecordKeeper

namespace RecordsInfo

/-- The information is kept if its parts are there as drafts and kept. -/
def Kept (c : RecordsInfo) : Prop :=
  AllKept RecordKeeper.toDraft RecordKeeper.Kept c.recordKeeper.toList ∧
    AllKept ManagedText.toDraft ManagedText.Kept c.applicationSoftware.toList

instance (c : RecordsInfo) : Decidable c.Kept :=
  inferInstanceAs (Decidable (AllKept _ _ _ ∧ AllKept _ _ _))

theorem renews {c : RecordsInfo} (h : ofElement ctx v e = .ok c) (hk : c.Kept) :
    Renews ctx v (ctx.ddmsName v "recordsManagementInfo") c.toDraft c := by
  simp only [ofElement, checked, bind_ok, within_ok, check_ok, exists_unit, pure_ok] at h
  obtain ⟨_, ⟨keeper, hkeeper, software, hsoftware, vital, -, rfl⟩, hr, rfl⟩ := h
  obtain ⟨hkk, hsk⟩ := hk
  obtain ⟨keeper', hkeeper', hkl⟩ := readOption_renews (d := ({} : RecordKeeper.Draft)) rfl
    (fun _ _ _ h hk => RecordKeeper.renews h hk) hkeeper hkk
  obtain ⟨software', hsoftware', hsl⟩ := ManagedText.readOption_renews
    .applicationSoftware (d := {}) (fun _ => Element.localName_of_child?) rfl hsoftware hsk
  simp only [rules, bind_ok, exists_unit, requireDdms_ok, demand_ok] at hr
  obtain ⟨hname, -, -, -, hsoft, -, hsince⟩ := hr
  refine ⟨_, bind_ok.2 ⟨keeper', hkeeper', bind_ok.2 ⟨software', hsoftware',
    bind_ok.2 ⟨(), check_ok.2 ?rules, rfl⟩⟩⟩, ?same, rfl, by simp [Component.base]⟩
  case rules =>
    have hkn : ∀ e ∈ (keeper'.map (·.element)).toList, e.name = _ := Like.names_option hkl
    have hsn : ∀ e ∈ (software'.map (·.element)).toList, e.name = _ := Like.names_option hsl
    simp only [rules, bind_ok, exists_unit, requireDdms_ok, demand_ok, requireChildren_ok,
      Base.requireSameVersions_ok]
    refine ⟨by simp, ?_, ?_, Like.versions_option hkl, ?_, Like.versions_option hsl, hsince⟩
    · simp [Element.ownChildren, Element.childrenNamed, filter_named hkn, filter_named hsn,
        ManagedText.Kind.name]
    · simp [Element.ownChildren, Element.childrenNamed, filter_named hkn, filter_named hsn,
        ManagedText.Kind.name]
    · have hkinds : ∀ t ∈ software', t.kind = .applicationSoftware :=
        commitAs_all (fun _ => ManagedText.build_kind) hsoftware'
      cases software' with
      | none => rfl
      | some t => exact beq_iff_eq.2 (hkinds t rfl)
  case same =>
    change (_ == _ && (_ == _ && (_ == _ && _ == _))) = true
    simp [hname, Like.beq_option hkl, Like.beq_option hsl, toDraft]

end RecordsInfo

namespace TaskId

/-- A task identifier is kept if it has no link, or a link of the type that such links have, with
no label and a part that is not blank. -/
def Kept (c : TaskId) : Prop :=
  c.link = {} ∨
    (c.link.linkType = linkType ∧ c.link.label = "" ∧ c.toDraft.linkIsEmpty = false)

instance (c : TaskId) : Decidable c.Kept := inferInstanceAs (Decidable (_ = _ ∨ _))

theorem commitLink_kept {c : TaskId} (h : c.link.check v = .ok ()) (hk : c.Kept) :
    c.toDraft.commitLink v = .ok c.link := by
  obtain hnone | ⟨htype, hlabel, hsome⟩ := hk
  · have hempty : c.toDraft.linkIsEmpty = true := by
      simp only [toDraft, Draft.linkIsEmpty, hnone]
      decide
    rw [Draft.commitLink, if_pos hempty, hnone]
  · rw [Draft.commitLink, hsome, if_neg Bool.false_ne_true]
    refine LinkAttributes.checked_ok.2 ?_
    have hlink : LinkAttributes.mk "simple" c.link.href c.link.role c.link.title "" c.link.arcrole
        c.link.show_ c.link.actuate = c.link := by
      have htype : c.link.linkType = "simple" := htype
      rw [← htype, ← hlabel]
    exact ⟨(congrArg (LinkAttributes.check v) hlink).trans h, hlink⟩

/-- A task identifier with the same contents keeps the rules too. -/
theorem make_like {c : TaskId} (hv : c.version = v) (hl : c.link.check v = .ok ())
    (hr : c.rules = .ok ()) :
    ∃ c', make ctx v c.value c.taskingSystem c.network c.otherNetwork c.link = .ok c' ∧
      Like v (ctx.ddmsName v "taskID") c' c := by
  obtain ⟨⟨e, _, w⟩, value, taskingSystem, network, otherNetwork, link⟩ := c
  obtain rfl : _ = v := hv
  obtain ⟨e', hname', hmake⟩ := make_eq ctx _ value taskingSystem network otherNetwork link
  simp only [rules, bind_ok, exists_unit, requireDdms_ok] at hr
  obtain ⟨hname, hr⟩ := hr
  rw [hmake]
  refine ⟨_, bind_ok.2 ⟨link, within_ok.2 (LinkAttributes.checked_ok.2 ⟨hl, rfl⟩),
    bind_ok.2 ⟨(), check_ok.2 ?rules, rfl⟩⟩, ?same, rfl, hname'⟩
  case rules =>
    simp only [rules, bind_ok, exists_unit, requireDdms_ok]
    exact ⟨by simp [hname'], hr⟩
  case same =>
    change (_ == _ && (_ == _ && (_ == _ && (_ == _ && (_ == _ && _ == _))))) = true
    simp [hname', hname]

theorem renews {c : TaskId} (h : ofElement ctx v e = .ok c) (hk : c.Kept) :
    Renews ctx v (ctx.ddmsName v "taskID") c.toDraft c := by
  simp only [ofElement, bind_ok, within_ok, check_ok, exists_unit, pure_ok] at h
  obtain ⟨link, hlink, hr, rfl⟩ := h
  obtain ⟨hcheck, hread⟩ := LinkAttributes.checked_ok.1 hlink
  have hcheck : link.check v = .ok () := hread ▸ hcheck
  obtain ⟨c', hmade, hlike⟩ := make_like rfl hcheck hr
  exact ⟨c', bind_ok.2 ⟨_, commitLink_kept hcheck hk, hmade⟩, hlike⟩

/-- The draft of a task identifier is not empty, for there is a value. -/
theorem isEmpty_toDraft {c : TaskId} (h : ofElement ctx v e = .ok c) :
    isEmpty c.toDraft = false := by
  simp only [ofElement, bind_ok, within_ok, check_ok, exists_unit, pure_ok] at h
  obtain ⟨link, -, hr, rfl⟩ := h
  simp only [rules, bind_ok, exists_unit, requireValue, forbid_ok] at hr
  simp [isEmpty_draft, toDraft, allBlank, hr.2.1]

end TaskId

namespace TaskingRole

theorem Kind.name_injective : Function.Injective Kind.name := by
  rintro (_ | _) (_ | _) h <;> simp_all [name]

theorem ofElement_kind {c : TaskingRole} (h : ofElement ctx v e = .ok c) :
    c.kind.name = e.localName := by
  unfold ofElement at h
  split at h
  · simp only [within_ok, error_ok] at h
  case _ kind hkind =>
    simp only [checked, bind_ok, within_ok, check_ok, exists_unit, pure_ok] at h
    obtain ⟨o, -, s, -, -, rfl⟩ := h
    exact Kind.name_of_ofName? hkind

/-- The roles of one kind that were read are made again. -/
theorem readAll_renews (kind : Kind) {cs : List TaskingRole}
    (h : readAll ofElement ctx v (e.childrenNamed v.ddmsUri kind.name) = .ok cs)
    (hk : AllKept toDraft Kept cs) :
    ∃ cs', commitAll ctx v ((cs.map toDraft).map fun r => { r with kind }) = .ok cs' ∧
      List.Forall₂ (Like v (ctx.ddmsName v kind.name)) cs' cs := by
  have hkind : ∀ x ∈ e.childrenNamed v.ddmsUri kind.name, ∀ r, ofElement ctx v x = .ok r →
      r.kind = kind := fun x hx r hr =>
    Kind.name_injective ((ofElement_kind hr).trans (Element.localName_of_mem_childrenNamed hx))
  refine readAll_renews_map (fun x hx r h hk => ?_)
    (fun x hx r h => toDraft_kind (hkind x hx r h)) h hk
  have hr := renews h hk
  rwa [hkind x hx r h] at hr

end TaskingRole

namespace TaskingInfo

/-- A tasking is kept with its markings if all its parts are. -/
def Kept (c : TaskingInfo) : Prop :=
  c.security.Filled ∧ AllKept TaskingRole.toDraft TaskingRole.Kept c.requesters ∧
    AllKept TaskingRole.toDraft TaskingRole.Kept c.addressees ∧
    AllKept Caption.toDraft Caption.Kept c.description.toList ∧ ∀ t ∈ c.taskId, t.Kept

instance (c : TaskingInfo) : Decidable c.Kept :=
  inferInstanceAs (Decidable (SecurityAttributes.Filled _ ∧ AllKept _ _ _ ∧ AllKept _ _ _ ∧
    AllKept _ _ _ ∧ ∀ t ∈ c.taskId, t.Kept))

theorem renews {c : TaskingInfo} (h : ofElement ctx v e = .ok c) (hk : c.Kept) :
    Renews ctx v (ctx.ddmsName v "taskingInfo") c.toDraft c := by
  simp only [ofElement, checked, bind_ok, within_ok, check_ok, exists_unit, pure_ok] at h
  obtain ⟨rs, hrs, as, has, d, hd, t, ht, s, hs, hr, rfl⟩ := h
  obtain ⟨hfilled, hrk, hak, hdk, htk⟩ := hk
  obtain ⟨hput, hs⟩ := SecurityAttributes.commitAs_read hs hfilled
  obtain ⟨rs', hrs', hrl⟩ := TaskingRole.readAll_renews .requesterInfo hrs hrk
  obtain ⟨as', has', hal⟩ := TaskingRole.readAll_renews .addressee has hak
  obtain ⟨d', hd', hdl⟩ := Caption.readOption_renews .description
    (d := { kind := .description }) (fun _ => Element.localName_of_child?) rfl hd hdk
  simp only [rules, bind_ok, exists_unit, requireDdms_ok, requireChildren_ok] at hr
  obtain ⟨hname, -, hone, -, hclassified, hsince⟩ := hr
  obtain ⟨x, hx⟩ := Element.child?_of_ownChildren hname
    (of_decide_eq_true (Bool.and_eq_true_iff.1 hone).1)
  rw [hx] at ht
  cases readOption_ok.1 ht with
  | some hread =>
  obtain ⟨t', hagain, htl⟩ := TaskId.renews hread (htk _ rfl)
  have ht' := commitAs_some.2 ⟨TaskId.isEmpty_toDraft hread, hagain⟩
  refine ⟨_, bind_ok.2 ⟨rs', hrs', bind_ok.2 ⟨as', has', bind_ok.2 ⟨some t', ht', bind_ok.2 ⟨d', hd',
    bind_ok.2 ⟨s, hs, bind_ok.2 ⟨_, within_ok.2 (hput _), bind_ok.2 ⟨(), check_ok.2 ?rules,
      rfl⟩⟩⟩⟩⟩⟩⟩, ?same, rfl, by simp [Component.base]⟩
  case rules =>
    have hrn : ∀ e ∈ rs'.map (·.element), e.name = _ := Like.names hrl
    have han : ∀ e ∈ as'.map (·.element), e.name = _ := Like.names hal
    have hdn : ∀ e ∈ (d'.map (·.element)).toList, e.name = _ := Like.names_option hdl
    have htn : ∀ e ∈ [t'.element], e.name = _ := List.forall_mem_singleton.2 htl.name
    simp only [rules, bind_ok, exists_unit, requireDdms_ok, requireChildren_ok,
      Base.requireSameVersions_ok, parts, List.forall_mem_append]
    refine ⟨by simp, ?_, ?_, ⟨⟨⟨Like.versions hrl, Like.versions hal⟩, Like.versions_option hdl⟩,
      Like.versions_option (.some htl)⟩, hclassified, hsince⟩
    · simp [Element.ownChildren, Element.childrenNamed, filter_named hrn, filter_named han,
        filter_named hdn, filter_named htn, TaskingRole.Kind.name, Caption.Kind.name]
    · simp [Element.ownChildren, Element.childrenNamed, filter_named hrn, filter_named han,
        filter_named hdn, filter_named htn, TaskingRole.Kind.name, Caption.Kind.name]
  case same =>
    have ht : (some t' == some _) = true := htl.same
    change (_ == _ && (_ == _ && (_ == _ && (_ == _ && (_ == _ && _ == _))))) = true
    simp [hname, Like.beq_list hrl, Like.beq_list hal, Like.beq_option hdl, ht]

end TaskingInfo

namespace ProcessingInfo

/-- A step of processing is kept with its markings. -/
def Kept (c : ProcessingInfo) : Prop := c.security.Filled

instance (c : ProcessingInfo) : Decidable c.Kept := inferInstanceAs (Decidable c.security.Filled)

theorem renews {c : ProcessingInfo} (h : ofElement ctx v e = .ok c) (hk : c.Kept) :
    Renews ctx v (ctx.ddmsName v "processingInfo") c.toDraft c := by
  simp only [ofElement, checked, bind_ok, within_ok, check_ok, exists_unit, pure_ok] at h
  obtain ⟨s, hs, hr, rfl⟩ := h
  obtain ⟨hput, hs⟩ := SecurityAttributes.commitAs_read hs hk
  simp only [rules, bind_ok, exists_unit, requireDdms_ok] at hr
  obtain ⟨hname, hr⟩ := hr
  refine ⟨_, bind_ok.2 ⟨s, hs, bind_ok.2 ⟨_, within_ok.2 (hput _),
    bind_ok.2 ⟨(), check_ok.2 ?rules, rfl⟩⟩⟩, ?same, rfl, by simp [Component.base]⟩
  case rules =>
    simp only [rules, bind_ok, exists_unit, requireDdms_ok]
    exact ⟨by simp, hr⟩
  case same =>
    change (_ == _ && (_ == _ && (_ == _ && _ == _))) = true
    simp [hname, toDraft]

end ProcessingInfo

namespace RevisionRecall

/-- A revision is kept with its markings if its links and details are, it has no blank text beside
them, and it has no link or one of the type that such links have, of which a part is not blank and
which has no other parts than those of a draft. -/
def Kept (c : RevisionRecall) : Prop :=
  c.security.Filled ∧ AllKept Link.toDraft Link.Kept c.links ∧
    AllKept ManagedText.toDraft ManagedText.Kept c.details ∧ (c.hasNested = true → c.value = "") ∧
    (c.link = {} ∨
      (c.link = { linkType, role := c.link.role, title := c.link.title, label := c.link.label } ∧
        c.toDraft.linkIsEmpty = false))

instance (c : RevisionRecall) : Decidable c.Kept :=
  inferInstanceAs (Decidable (SecurityAttributes.Filled _ ∧ AllKept _ _ _ ∧ AllKept _ _ _ ∧
    (_ → _) ∧ (_ ∨ _)))

theorem commitLink_kept {c : RevisionRecall} (h : c.link.check v = .ok ()) (hk : c.Kept) :
    c.toDraft.commitLink v = .ok c.link := by
  obtain ⟨-, -, -, -, hnone | ⟨hlink, hsome⟩⟩ := hk
  · have hempty : c.toDraft.linkIsEmpty = true := by
      simp only [toDraft, Draft.linkIsEmpty, hnone]
      decide
    rw [Draft.commitLink, if_pos hempty, hnone]
  · rw [Draft.commitLink, hsome, if_neg Bool.false_ne_true]
    exact LinkAttributes.checked_ok.2 ⟨(congrArg (LinkAttributes.check v) hlink.symm).trans h,
      hlink.symm⟩

/-- Links and details like those of a revision make a revision like it. -/
theorem make_like {c : RevisionRecall} {ls : List Link} {ts : List ManagedText} {n : Int}
    (hv : c.version = v) (hl : List.Forall₂ (Like v (ctx.ddmsName v "link")) ls c.links)
    (ht : List.Forall₂ (Like v (ctx.ddmsName v "details")) ts c.details)
    (hid : c.revisionId = some n)
    (hput : ∀ e, c.security.addTo ctx v e = .ok (SecurityAttributes.mark ctx v c.security.values e))
    (hr : c.rules = .ok ()) :
    ∃ c', make ctx v c.value ls ts n c.revisionType c.network c.otherNetwork c.link c.security =
        .ok c' ∧ Like v (ctx.ddmsName v "revisionRecall") c' c := by
  obtain ⟨⟨e, _, w⟩, value, id, type, network, other, links, details, link, s⟩ := c
  obtain rfl : _ = v := hv
  simp only [rules, bind_ok, exists_unit, requireDdms_ok, forM_ok, checkLink,
    Base.requireSameVersion_ok] at hr
  obtain ⟨hname, hone, hlinks, -, -, hr⟩ := hr
  refine ⟨_, bind_ok.2 ⟨_, within_ok.2 (hput _), bind_ok.2 ⟨(), check_ok.2 ?rules, rfl⟩⟩, ?same, rfl,
    by simp [Component.base]⟩
  case rules =>
    simp only [rules, bind_ok, exists_unit, requireDdms_ok, forM_ok, checkLink,
      Base.requireSameVersion_ok, Base.requireSameVersions_ok, hasNested, Like.isEmpty_eq hl,
      Like.isEmpty_eq ht]
    refine ⟨by simp, hone, ?_, Like.versions ht, demand_ok.2 rfl, hr⟩
    exact forall_mem_of_forall₂ (fun l' l hl h => ⟨hl.version,
      (SecurityAttributes.requireClassification_of_beq (Link.beq_security hl.same)).trans h.2⟩)
      hl hlinks
  case same =>
    change (_ == _ && (_ == _ && (_ == _ && (_ == _ && (_ == _ && (_ == _ && (_ == _ && (_ == _ &&
      (_ == _ && _ == _))))))))) = true
    simp [hname, hid.symm, Like.beq_list hl, Like.beq_list ht]

theorem renews {c : RevisionRecall} (h : ofElement ctx v e = .ok c) (hk : c.Kept) :
    Renews ctx v (ctx.ddmsName v "revisionRecall") c.toDraft c := by
  simp only [ofElement, checked, bind_ok, within_ok, check_ok, exists_unit, pure_ok] at h
  obtain ⟨ls, hls, ts, hts, id, -, link, hlink, s, hs, hr, rfl⟩ := h
  have hcommit := commitLink_kept (v := v) ?check hk
  case check =>
    obtain ⟨hcheck, hread⟩ := LinkAttributes.checked_ok.1 hlink
    exact hread ▸ hcheck
  obtain ⟨hfilled, hlk, htk, hblank, -⟩ := hk
  obtain ⟨hput, hs⟩ := SecurityAttributes.commitAs_read hs hfilled
  obtain ⟨ls', hls', hll⟩ := readAll_renews (fun _ _ _ h hk => Link.renews h hk) hls hlk
  obtain ⟨ts', hts', htl⟩ := ManagedText.readAll_renews .details hts htk
  have hvalue : (if ls'.isEmpty && ts'.isEmpty then e.content else "") = e.content := by
    rw [Like.isEmpty_eq hll, Like.isEmpty_eq htl]
    split
    case isTrue => rfl
    case isFalse hsome =>
      refine (hblank ?_).symm
      rw [hasNested, ← Bool.not_and, Bool.not_eq_true']
      exact Bool.eq_false_iff.2 hsome
  obtain ⟨n, rfl⟩ : ∃ n, id = some n := by
    simp only [rules, bind_ok, exists_unit, demand_ok] at hr
    exact Option.isSome_iff_exists.1 hr.2.2.2.2.1
  obtain ⟨c', hmade, hlike⟩ := make_like (c := ⟨⟨e, v, []⟩, _, _, _, _, _, _, _, _, _⟩) rfl hll htl
    rfl hput hr
  refine ⟨c', ?_, hlike.same, hlike.version, hlike.name⟩
  simp only [build, toDraft]
  refine bind_ok.2 ⟨link, hcommit, bind_ok.2 ⟨s, hs, bind_ok.2 ⟨ls', hls',
    bind_ok.2 ⟨ts', hts', ?_⟩⟩⟩⟩
  exact (congrArg (fun t => make ctx v t ..) hvalue).trans hmade

end RevisionRecall

namespace Management

/-- What is there about the management is kept with its markings if all its parts are. -/
def Kept (c : Management) : Prop :=
  c.security.Filled ∧ AllKept RecordsInfo.toDraft RecordsInfo.Kept c.recordsInfo.toList ∧
    AllKept RevisionRecall.toDraft RevisionRecall.Kept c.revisionRecall.toList ∧
    AllKept TaskingInfo.toDraft TaskingInfo.Kept c.taskingInfos ∧
    AllKept ProcessingInfo.toDraft ProcessingInfo.Kept c.processingInfos

instance (c : Management) : Decidable c.Kept :=
  inferInstanceAs (Decidable (SecurityAttributes.Filled _ ∧ AllKept _ _ _ ∧ AllKept _ _ _ ∧
    AllKept _ _ _ ∧ AllKept _ _ _))

theorem renews {c : Management} (h : ofElement ctx v e = .ok c) (hk : c.Kept) :
    Renews ctx v (ctx.ddmsName v "resourceManagement") c.toDraft c := by
  simp only [ofElement, checked, bind_ok, within_ok, check_ok, exists_unit, pure_ok] at h
  obtain ⟨_, ⟨x, hx, y, hy, ts, hts, ps, hps, s, hs, rfl⟩, hr, rfl⟩ := h
  obtain ⟨hfilled, hxk, hyk, htk, hpk⟩ := hk
  obtain ⟨hput, hs⟩ := SecurityAttributes.commitAs_read hs hfilled
  obtain ⟨x', hx', hxl⟩ := readOption_renews (d := ({} : RecordsInfo.Draft)) rfl
    (fun _ _ _ h hk => RecordsInfo.renews h hk) hx hxk
  obtain ⟨y', hy', hyl⟩ := readOption_renews (d := ({} : RevisionRecall.Draft)) rfl
    (fun _ _ _ h hk => RevisionRecall.renews h hk) hy hyk
  obtain ⟨ts', hts', htl⟩ := readAll_renews (fun _ _ _ h hk => TaskingInfo.renews h hk) hts htk
  obtain ⟨ps', hps', hpl⟩ := readAll_renews (fun _ _ _ h hk => ProcessingInfo.renews h hk) hps hpk
  simp only [rules, bind_ok, exists_unit, requireDdms_ok] at hr
  obtain ⟨hname, -, -, -, hsince⟩ := hr
  refine ⟨_, bind_ok.2 ⟨x', hx', bind_ok.2 ⟨y', hy', bind_ok.2 ⟨ts', hts', bind_ok.2 ⟨ps', hps',
    bind_ok.2 ⟨s, hs, bind_ok.2 ⟨_, within_ok.2 (hput _), bind_ok.2 ⟨(), check_ok.2 ?rules,
      rfl⟩⟩⟩⟩⟩⟩⟩, ?same, rfl, by simp [Component.base]⟩
  case rules =>
    have hxn : ∀ e ∈ (x'.map (·.element)).toList, e.name = _ := Like.names_option hxl
    have hyn : ∀ e ∈ (y'.map (·.element)).toList, e.name = _ := Like.names_option hyl
    have htn : ∀ e ∈ ts'.map (·.element), e.name = _ := Like.names htl
    have hpn : ∀ e ∈ ps'.map (·.element), e.name = _ := Like.names hpl
    simp only [rules, bind_ok, exists_unit, requireDdms_ok, requireChildren_ok,
      Base.requireSameVersions_ok, parts, List.forall_mem_append]
    refine ⟨by simp, ?_, ?_, ⟨⟨⟨Like.versions_option hxl, Like.versions_option hyl⟩,
      Like.versions htl⟩, Like.versions hpl⟩, hsince⟩
    · simp [Element.ownChildren, Element.childrenNamed, filter_named hxn, filter_named hyn,
        filter_named htn, filter_named hpn]
    · simp [Element.ownChildren, Element.childrenNamed, filter_named hxn, filter_named hyn,
        filter_named htn, filter_named hpn]
  case same =>
    change (_ == _ && (_ == _ && (_ == _ && (_ == _ && (_ == _ && _ == _))))) = true
    simp [hname, Like.beq_option hxl, Like.beq_option hyl, Like.beq_list htl, Like.beq_list hpl]

end Management

end DiscoveryMetadata
