import DiscoveryMetadata.Management
import DiscoveryMetadata.Proofs.Rebuilding.Records
import DiscoveryMetadata.Proofs.Rebuilding.Roles
/-
  The management of a resource from its own draft.

  Task identifiers and revisions can carry a link. A draft with blank texts only for it leads to no
  link at all, and so does the draft of a component without one (`commitLink_toDraft`). The text of
  a revision is dropped where it has links or details; these are made again and so it stays dropped.
-/
namespace DiscoveryMetadata

open Buildable
open Xml (Element QName)

variable {ctx : Context} {v : Version} {s : SecurityAttributes}

namespace ManagedText

variable {c : ManagedText} {kind : Kind} {value : String}

theorem make_keeps (h : make ctx v kind value s = .ok c) :
    c.kind = kind ∧ c.value = value ∧ c.security = s := by
  simp only [make, checked, bind_ok, within_ok, check_ok, exists_unit, pure_ok] at h
  obtain ⟨e, -, -, rfl⟩ := h
  exact ⟨rfl, rfl, rfl⟩

theorem build_kind {d : Draft} (h : build ctx v d = .ok c) : c.kind = d.kind := by
  obtain ⟨s, -, h⟩ := bind_ok.1 h
  exact (make_keeps h).1

theorem rebuilds (d : Draft) : Rebuilds ctx v toDraft d := by
  obtain ⟨_, kind, value, security⟩ := d
  intro c h
  obtain ⟨he, h⟩ := commitAs_some.1 h
  obtain ⟨s, hs, h⟩ := bind_ok.1 h
  obtain ⟨rfl, rfl, rfl⟩ := make_keeps h
  refine commitAs_some.2 ⟨?_, bind_ok.2 ⟨_, SecurityAttributes.commitAs_toDraft hs, h⟩⟩
  simpa only [isEmpty, toDraft, SecurityAttributes.toDraft_isEmpty hs] using he

/-- The draft of a text is one for texts of its kind. -/
theorem toDraft_kind {kind : Kind} (h : c.kind = kind) :
    { c.toDraft with kind } = c.toDraft := by
  subst h
  rfl

end ManagedText

namespace TaskId

variable {c : TaskId} {value taskingSystem network otherNetwork : String} {link : LinkAttributes}

variable (ctx v) in
/-- From the element that is made, all is read as it was given. -/
theorem make_eq (value taskingSystem network otherNetwork : String) (link : LinkAttributes) :
    ∃ e : Element, e.name = ctx.ddmsName v "taskID" ∧
      make ctx v value taskingSystem network otherNetwork link = (do
        let link ← within e.writtenName (LinkAttributes.checked v link)
        let c : TaskId := ⟨⟨e, v, []⟩, value, taskingSystem, network, otherNetwork, link⟩
        c.check c.rules
        return c) := by
  refine ⟨link.addTo ctx ((((ctx.textElement v "taskID" value).put (ctx.ddmsName v "taskingSystem")
    taskingSystem).put (networkName ctx v) network).put (.unqualified "otherNetwork") otherNetwork),
    by simp, ?_⟩
  rw [make, ofElement, LinkAttributes.ofElement_addTo (by
    intro l
    by_cases hv : v.atLeast .v5_0 = true <;>
      simp [Element.attribute?_put, networkName, hv, v.ddmsUri_ne_xlinkUri,
        Version.virtUri_ne_xlinkUri])]
  by_cases hv : v.atLeast .v5_0 = true <;>
    simp [Element.own, LinkAttributes.attributeText_addTo, LinkAttributes.attribute?_addTo,
      Element.attributeText_put, Element.attribute?_put, networkName, hv, v.ddmsUri_ne_xlinkUri,
      v.virtUri_ne_ddmsUri, Version.virtUri_ne_xlinkUri]

theorem make_keeps (h : make ctx v value taskingSystem network otherNetwork link = .ok c) :
    c.value = value ∧ c.taskingSystem = taskingSystem ∧ c.network = network ∧
      c.otherNetwork = otherNetwork ∧ c.link = link := by
  obtain ⟨e, -, he⟩ := make_eq ctx v value taskingSystem network otherNetwork link
  simp only [he, bind_ok, within_ok, check_ok, exists_unit, pure_ok] at h
  obtain ⟨l, hl, -, rfl⟩ := h
  exact ⟨rfl, rfl, rfl, rfl, (LinkAttributes.checked_ok.1 hl).2.symm⟩

/-- A link is made again of its own parts, and an absent one of none. -/
theorem commitLink_toDraft {d : Draft} (h : d.commitLink v = .ok c.link) :
    c.toDraft.commitLink v = .ok c.link ∧ c.toDraft.linkIsEmpty = d.linkIsEmpty := by
  unfold Draft.commitLink at h
  by_cases he : d.linkIsEmpty = true
  · rw [if_pos he] at h
    have hlink : ({} : LinkAttributes) = c.link := Except.ok.inj h
    have hempty : c.toDraft.linkIsEmpty = true := by
      simp only [toDraft, ← hlink, Draft.linkIsEmpty]
      decide
    rw [Draft.commitLink, if_pos hempty, hlink]
    exact ⟨rfl, hempty.trans he.symm⟩
  · rw [if_neg he] at h
    obtain ⟨hc, hlink⟩ := LinkAttributes.checked_ok.1 h
    have hempty : c.toDraft.linkIsEmpty = d.linkIsEmpty := by
      simp only [toDraft, ← hlink, Draft.linkIsEmpty]
    rw [Draft.commitLink, hempty, if_neg he]
    refine ⟨?_, rfl⟩
    simp only [toDraft, ← hlink]
    exact LinkAttributes.checked_ok.2 ⟨hc, rfl⟩

theorem isEmpty_draft (d : Draft) :
    isEmpty d = (allBlank [d.value, d.taskingSystem, d.network, d.otherNetwork] &&
      d.linkIsEmpty) := rfl

theorem rebuilds (d : Draft) : Rebuilds ctx v toDraft d := by
  intro c h
  obtain ⟨he, h⟩ := commitAs_some.1 h
  obtain ⟨l, hl, h⟩ := bind_ok.1 h
  obtain ⟨hvalue, hsystem, hnetwork, hother, hlink⟩ := make_keeps h
  subst hlink
  obtain ⟨hagain, hempty⟩ := commitLink_toDraft hl
  refine commitAs_some.2 ⟨?_, bind_ok.2 ⟨_, hagain, ?_⟩⟩
  · rw [isEmpty_draft] at he ⊢
    rw [hempty]
    simpa only [toDraft, hvalue, hsystem, hnetwork, hother] using he
  · simpa only [toDraft, hvalue, hsystem, hnetwork, hother] using h

end TaskId

namespace TaskingInfo

variable {c : TaskingInfo} {requesters addressees : List TaskingRole} {description : Option Caption}
  {taskId : TaskId}

theorem make_keeps (h : make ctx v requesters addressees description taskId s = .ok c) :
    c.requesters = requesters ∧ c.addressees = addressees ∧ c.description = description ∧
      c.taskId = some taskId ∧ c.security = s := by
  simp only [make, checked, bind_ok, within_ok, check_ok, exists_unit, pure_ok] at h
  obtain ⟨e, -, -, rfl⟩ := h
  exact ⟨rfl, rfl, rfl, rfl, rfl⟩

theorem isEmpty_draft (d : Draft) :
    isEmpty d = (allEmpty d.requesters && allEmpty d.addressees && isEmpty d.description &&
      isEmpty d.taskId && d.security.isEmpty) := rfl

/-- The parts that a tasking is made of. -/
theorem build_ok {d : Draft} (h : build ctx v d = .ok c) :
    ∃ rs as t x s, commitAll ctx v (d.requesters.map fun r => { r with kind := .requesterInfo }) =
        .ok rs ∧
      commitAll ctx v (d.addressees.map fun r => { r with kind := .addressee }) = .ok as ∧
      commitAs ctx v d.taskId = .ok (some t) ∧
      commitAs ctx v { d.description with kind := .description } = .ok x ∧
      d.security.commitAs ctx v = .ok s ∧ make ctx v rs as x t s = .ok c := by
  obtain ⟨rs, hrs, h⟩ := bind_ok.1 h
  obtain ⟨as, has, h⟩ := bind_ok.1 h
  obtain ⟨o, ho, h⟩ := bind_ok.1 h
  cases o with
  | none => simp at h
  | some t =>
    obtain ⟨x, hx, h⟩ := bind_ok.1 h
    obtain ⟨s, hs, h⟩ := bind_ok.1 h
    exact ⟨rs, as, t, x, s, hrs, has, ho, hx, hs, h⟩

theorem rebuilds (d : Draft) : Rebuilds ctx v toDraft d := by
  intro c h
  obtain ⟨-, h⟩ := commitAs_some.1 h
  obtain ⟨rs, as, t, x, s, hrs, has, ht, hx, hs, h⟩ := build_ok h
  obtain ⟨rfl, rfl, rfl, htask, rfl⟩ := make_keeps h
  have hrequester : ∀ r ∈ c.requesters, r.kind = .requesterInfo :=
    commitAll_map_all (fun _ _ hr => TaskingRole.build_kind hr) hrs
  have haddressee : ∀ r ∈ c.addressees, r.kind = .addressee :=
    commitAll_map_all (fun _ _ hr => TaskingRole.build_kind hr) has
  have hrs' := commitAll_map_toDraft (fun _ _ => TaskingRole.rebuilds _) hrs
    fun r hr => TaskingRole.toDraft_kind (hrequester r hr)
  have has' := commitAll_map_toDraft (fun _ _ => TaskingRole.rebuilds _) has
    fun r hr => TaskingRole.toDraft_kind (haddressee r hr)
  have ht' := TaskId.rebuilds _ _ ht
  have hx' := commitAs_map_getD (e := { kind := .description })
    (g := fun d : Caption.Draft => { d with kind := .description }) rfl (Caption.rebuilds _) hx
    fun _ hc => Caption.toDraft_kind (commitAs_all (fun _ hc => Caption.build_kind hc) hx _ hc)
  refine commitAs_some.2 ⟨?_, ?_⟩
  · simp [isEmpty_draft, toDraft, htask, isEmpty_eq ht']
  · unfold toDraft
    rw [htask]
    exact bind_ok.2 ⟨_, hrs', bind_ok.2 ⟨_, has', bind_ok.2 ⟨_, ht', bind_ok.2 ⟨_, hx',
      bind_ok.2 ⟨_, SecurityAttributes.commitAs_toDraft hs, h⟩⟩⟩⟩⟩

end TaskingInfo

namespace RevisionRecall

variable {c : RevisionRecall} {value revisionType network otherNetwork : String} {links : List Link}
  {details : List ManagedText} {revisionId : Int} {link : LinkAttributes}

theorem make_keeps
    (h : make ctx v value links details revisionId revisionType network otherNetwork link s =
      .ok c) :
    c.value = value ∧ c.links = links ∧ c.details = details ∧ c.revisionId = some revisionId ∧
      c.revisionType = revisionType ∧ c.network = network ∧ c.otherNetwork = otherNetwork ∧
      c.link = link ∧ c.security = s := by
  simp only [make, checked, bind_ok, within_ok, check_ok, exists_unit, pure_ok] at h
  obtain ⟨e, -, -, rfl⟩ := h
  exact ⟨rfl, rfl, rfl, rfl, rfl, rfl, rfl, rfl, rfl⟩

/-- A link is made again of its own parts, and an absent one of none. -/
theorem commitLink_toDraft {d : Draft} (h : d.commitLink v = .ok c.link) :
    c.toDraft.commitLink v = .ok c.link := by
  unfold Draft.commitLink at h
  by_cases he : d.linkIsEmpty = true
  · rw [if_pos he] at h
    have hlink : ({} : LinkAttributes) = c.link := Except.ok.inj h
    have hempty : c.toDraft.linkIsEmpty = true := by
      simp only [toDraft, ← hlink, Draft.linkIsEmpty]
      decide
    rw [Draft.commitLink, if_pos hempty, hlink]
  · rw [if_neg he] at h
    obtain ⟨hc, hlink⟩ := LinkAttributes.checked_ok.1 h
    have hempty : c.toDraft.linkIsEmpty = d.linkIsEmpty := by
      simp only [toDraft, ← hlink, Draft.linkIsEmpty]
    rw [Draft.commitLink, hempty, if_neg he]
    simp only [toDraft, ← hlink]
    exact LinkAttributes.checked_ok.2 ⟨hc, rfl⟩

/-- The parts that a record is made of; its text counts only where it has no others. -/
theorem build_ok {d : Draft} (h : build ctx v d = .ok c) :
    ∃ n link s ls ts, d.revisionId = some n ∧ d.commitLink v = .ok link ∧
      d.security.commitAs ctx v = .ok s ∧ commitAll ctx v d.links = .ok ls ∧
      commitAll ctx v (d.details.map fun t => { t with kind := .details }) = .ok ts ∧
      make ctx v (if ls.isEmpty && ts.isEmpty then d.value else "") ls ts n d.revisionType d.network
        d.otherNetwork link s = .ok c := by
  simp only [build] at h
  split at h
  · simp at h
  · obtain ⟨link, hlink, h⟩ := bind_ok.1 h
    obtain ⟨s, hs, h⟩ := bind_ok.1 h
    obtain ⟨ls, hls, h⟩ := bind_ok.1 h
    obtain ⟨ts, hts, h⟩ := bind_ok.1 h
    exact ⟨_, link, s, ls, ts, ‹_›, hlink, hs, hls, hts, h⟩

theorem rebuilds (d : Draft) : Rebuilds ctx v toDraft d := by
  intro c h
  obtain ⟨-, h⟩ := commitAs_some.1 h
  obtain ⟨n, link, s, ls, ts, hn, hlink, hs, hls, hts, h⟩ := build_ok h
  obtain ⟨hvalue, rfl, rfl, hid, htype, hnetwork, hother, rfl, rfl⟩ := make_keeps h
  have hdetails : ∀ t ∈ c.details, t.kind = .details :=
    commitAll_map_all (fun _ _ ht => ManagedText.build_kind ht) hts
  have hls' := commitAll_toDraft (fun d _ => Link.rebuilds d) hls
  have hts' := commitAll_map_toDraft (fun _ _ => ManagedText.rebuilds _) hts
    fun t ht => ManagedText.toDraft_kind (hdetails t ht)
  have hagain : (if c.links.isEmpty && c.details.isEmpty then c.value else "") = c.value := by
    rw [hvalue]
    split <;> simp
  refine commitAs_some.2 ⟨?_, ?_⟩
  · simp [isEmpty, toDraft, hid]
  · rw [← hvalue, ← htype, ← hnetwork, ← hother] at h
    simp only [build, toDraft, hid]
    refine bind_ok.2 ⟨_, commitLink_toDraft hlink, bind_ok.2
      ⟨_, SecurityAttributes.commitAs_toDraft hs, bind_ok.2 ⟨_, hls', bind_ok.2 ⟨_, hts', ?_⟩⟩⟩⟩
    rw [hagain]
    exact h

end RevisionRecall

namespace RecordKeeper

variable {c : RecordKeeper} {recordKeeperId : String} {organization : Organization}

theorem make_keeps (h : make ctx v recordKeeperId organization = .ok c) :
    c.recordKeeperId = recordKeeperId ∧ c.organization = some organization := by
  simp only [make, checked, bind_ok, check_ok, exists_unit, pure_ok] at h
  obtain ⟨-, rfl⟩ := h
  exact ⟨rfl, rfl⟩

theorem isEmpty_draft (d : Draft) :
    isEmpty d = (Text.isBlank d.recordKeeperId && isEmpty d.organization) := rfl

theorem rebuilds (d : Draft) : Rebuilds ctx v toDraft d := by
  obtain ⟨_, recordKeeperId, organization⟩ := d
  intro c h
  obtain ⟨-, h⟩ := commitAs_some.1 h
  obtain ⟨o, ho, h⟩ := bind_ok.1 h
  cases o with
  | none => simp at h
  | some o =>
    obtain ⟨rfl, horganization⟩ := make_keeps h
    have hagain := Organization.rebuilds _ _ ho
    refine commitAs_some.2 ⟨?_, ?_⟩
    · simp [isEmpty_draft, toDraft, horganization, isEmpty_eq hagain]
    · unfold toDraft
      rw [horganization]
      exact bind_ok.2 ⟨_, hagain, h⟩

end RecordKeeper

namespace RecordsInfo

variable {c : RecordsInfo} {keeper : Option RecordKeeper} {software : Option ManagedText}
  {vital : Bool}

theorem make_keeps (h : make ctx v keeper software vital = .ok c) :
    c.recordKeeper = keeper ∧ c.applicationSoftware = software ∧ c.vitalRecord = vital := by
  simp only [make, checked, bind_ok, check_ok, exists_unit, pure_ok] at h
  obtain ⟨-, rfl⟩ := h
  exact ⟨rfl, rfl, rfl⟩

theorem isEmpty_draft (d : Draft) :
    isEmpty d = (isEmpty d.recordKeeper &&
      isEmpty { d.applicationSoftware with kind := .applicationSoftware } && !d.vitalRecord) := rfl

theorem rebuilds (d : Draft) : Rebuilds ctx v toDraft d := by
  obtain ⟨_, keeper, software, vital⟩ := d
  intro c h
  obtain ⟨he, h⟩ := commitAs_some.1 h
  obtain ⟨k, hk, h⟩ := bind_ok.1 h
  obtain ⟨x, hx, h⟩ := bind_ok.1 h
  obtain ⟨rfl, rfl, rfl⟩ := make_keeps h
  have hk' := commitAs_getD (e := {}) rfl (RecordKeeper.rebuilds _) hk
  have hx' := commitAs_map_getD (e := {})
    (g := fun d : ManagedText.Draft => { d with kind := .applicationSoftware }) rfl
    (ManagedText.rebuilds _) hx
    fun _ hc => ManagedText.toDraft_kind
      (commitAs_all (fun _ hc => ManagedText.build_kind hc) hx _ hc)
  refine commitAs_some.2 ⟨?_, bind_ok.2 ⟨_, hk', bind_ok.2 ⟨_, hx', h⟩⟩⟩
  simpa only [isEmpty_draft, toDraft, isEmpty_eq hk, isEmpty_eq hx, isEmpty_eq hk',
    isEmpty_eq hx'] using he

end RecordsInfo

namespace ProcessingInfo

variable {c : ProcessingInfo} {value dateProcessed : String}

theorem make_keeps (h : make ctx v value dateProcessed s = .ok c) :
    c.value = value ∧ c.dateProcessed = dateProcessed ∧ c.security = s := by
  simp only [make, checked, bind_ok, within_ok, check_ok, exists_unit, pure_ok] at h
  obtain ⟨e, -, -, rfl⟩ := h
  exact ⟨rfl, rfl, rfl⟩

theorem rebuilds (d : Draft) : Rebuilds ctx v toDraft d := by
  obtain ⟨_, value, dateProcessed, security⟩ := d
  intro c h
  obtain ⟨he, h⟩ := commitAs_some.1 h
  obtain ⟨s, hs, h⟩ := bind_ok.1 h
  obtain ⟨rfl, rfl, rfl⟩ := make_keeps h
  refine commitAs_some.2 ⟨?_, bind_ok.2 ⟨_, SecurityAttributes.commitAs_toDraft hs, h⟩⟩
  simpa only [isEmpty, toDraft, SecurityAttributes.toDraft_isEmpty hs] using he

end ProcessingInfo

namespace Management

variable {c : Management} {records : Option RecordsInfo} {revision : Option RevisionRecall}
  {taskings : List TaskingInfo} {processings : List ProcessingInfo}

theorem make_keeps (h : make ctx v records revision taskings processings s = .ok c) :
    c.recordsInfo = records ∧ c.revisionRecall = revision ∧ c.taskingInfos = taskings ∧
      c.processingInfos = processings ∧ c.security = s := by
  simp only [make, checked, bind_ok, within_ok, check_ok, exists_unit, pure_ok] at h
  obtain ⟨e, -, -, rfl⟩ := h
  exact ⟨rfl, rfl, rfl, rfl, rfl⟩

theorem isEmpty_draft (d : Draft) :
    isEmpty d = (isEmpty d.recordsInfo && isEmpty d.revisionRecall && allEmpty d.taskingInfos &&
      allEmpty d.processingInfos && d.security.isEmpty) := rfl

theorem rebuilds (d : Draft) : Rebuilds ctx v toDraft d := by
  obtain ⟨_, records, revision, taskings, processings, security⟩ := d
  intro c h
  obtain ⟨he, h⟩ := commitAs_some.1 h
  obtain ⟨x, hx, h⟩ := bind_ok.1 h
  obtain ⟨y, hy, h⟩ := bind_ok.1 h
  obtain ⟨ts, hts, h⟩ := bind_ok.1 h
  obtain ⟨ps, hps, h⟩ := bind_ok.1 h
  obtain ⟨s, hs, h⟩ := bind_ok.1 h
  obtain ⟨rfl, rfl, rfl, rfl, rfl⟩ := make_keeps h
  have hx' := commitAs_getD (e := {}) rfl (RecordsInfo.rebuilds _) hx
  have hy' := commitAs_getD (e := {}) rfl (RevisionRecall.rebuilds _) hy
  have hts' := commitAll_toDraft (fun d _ => TaskingInfo.rebuilds d) hts
  have hps' := commitAll_toDraft (fun d _ => ProcessingInfo.rebuilds d) hps
  refine commitAs_some.2 ⟨?_, bind_ok.2 ⟨_, hx', bind_ok.2 ⟨_, hy', bind_ok.2 ⟨_, hts', bind_ok.2
    ⟨_, hps', bind_ok.2 ⟨_, SecurityAttributes.commitAs_toDraft hs, h⟩⟩⟩⟩⟩⟩
  simpa only [isEmpty_draft, toDraft, SecurityAttributes.toDraft_isEmpty hs, isEmpty_eq hx,
    isEmpty_eq hy, allEmpty_eq hts, allEmpty_eq hps, isEmpty_eq hx', isEmpty_eq hy',
    allEmpty_eq hts', allEmpty_eq hps'] using he

end Management

end DiscoveryMetadata
