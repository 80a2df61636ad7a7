import DiscoveryMetadata.Management
import DiscoveryMetadata.Proofs.Places.Records
import DiscoveryMetadata.Protection.Security
/-
  Where a fault lies in the management of a resource and in its protection.

  The lists of individuals and groups that have access are elements without components of their
  own. Whatever stands in them is read as an entry, so an entry can have no name at all; its fault
  is then placed in the list.
-/
namespace DiscoveryMetadata

open Xml (Element)
open Fault (Unplaced Placed Beneath)

variable {ctx : Context} {v : Version}

namespace ManagedText

theorem rules_fails (c : ManagedText) : Fails Unplaced c.rules := by
  simp [rules]

theorem places (hctx : ctx.Standard) : Places ofElement ctx := by
  intro v e he
  unfold ofElement
  split
  · exact .own he (by simp)
  · refine .bind (.own he (SecurityAttributes.ofElement_fails hctx e)) fun _ _ => ?_
    exact .bind (.check he (rules_fails _)) fun _ _ => .pure

end ManagedText

namespace ProcessingInfo

theorem rules_fails (c : ProcessingInfo) : Fails Unplaced c.rules := by
  simp [rules]

theorem places (hctx : ctx.Standard) : Places ofElement ctx := fun _ e he =>
  .bind (.own he (SecurityAttributes.ofElement_fails hctx e)) fun _ _ =>
    .bind (.check he (rules_fails _)) fun _ _ => .pure

end ProcessingInfo

namespace RecordKeeper

theorem rules_fails (c : RecordKeeper) : Fails Unplaced c.rules := by
  unfold rules
  cases c.organization <;> simp [missingOrganization]

theorem places (hctx : ctx.Standard) : Places ofElement ctx := fun v _ he =>
  .bind (.within he ((Organization.places hctx).readOption (by cases v <;> decide) _)) fun _ _ =>
    .bind (.check he (rules_fails _)) fun _ _ => .pure

end RecordKeeper

namespace RecordsInfo

theorem rules_fails (c : RecordsInfo) : Fails Unplaced c.rules := by
  simp [rules]

theorem vitalOf_fails (text : String) : Fails Unplaced (vitalOf text) := by
  unfold vitalOf
  split <;> simp

theorem places (hctx : ctx.Standard) : Places ofElement ctx := by
  intro v e he
  refine .bind (.within he ?_) fun c hc => ?_
  · exact .bind ((RecordKeeper.places hctx).readOption (by decide) _) fun _ _ =>
      .bind ((ManagedText.places hctx).readOption (by decide) _) fun _ _ =>
        .bind (.beneath (.optionMapM fun _ _ => vitalOf_fails _)) fun _ _ => .pure
  · simp only [within_ok, bind_ok, pure_ok] at hc
    obtain ⟨_, -, _, -, _, -, rfl⟩ := hc
    exact .bind (.check he (rules_fails _)) fun _ _ => .pure

end RecordsInfo

@[simp]
theorem TaskId.checkNetwork_fails (network : String) : Fails Unplaced (TaskId.checkNetwork network) :=
  .ifPresent (by simp [Network.check])

namespace RevisionRecall

theorem checkLink_fails (b : Base) (l : Link) : Fails Unplaced (checkLink b l) := by
  simp [checkLink]

theorem rules_fails (c : RevisionRecall) : Fails Unplaced c.rules := by
  have hlinks : Fails Unplaced (forM c.links (checkLink c.toBase)) :=
    .forM fun _ _ => checkLink_fails _ _
  simp [rules, hlinks, missingId, LinkAttributes.wrongType]

theorem idOf_fails (text : String) : Fails Unplaced (idOf text) := by
  unfold idOf
  split <;> simp

theorem places (hctx : ctx.Standard) : Places ofElement ctx := fun _ e he =>
  .bind (.within he ((Link.places hctx).readAll (by decide) _)) fun _ _ =>
    .bind (.within he ((ManagedText.places hctx).readAll (by decide) _)) fun _ _ =>
      .bind (.own he (.optionMapM fun _ _ => idOf_fails _)) fun _ _ =>
        .bind (.own he (LinkAttributes.ofElement_fails e)) fun _ _ =>
          .bind (.own he (SecurityAttributes.ofElement_fails hctx e)) fun _ _ =>
            .bind (.check he (rules_fails _)) fun _ _ => .pure

end RevisionRecall

namespace TaskId

theorem rules_fails (c : TaskId) : Fails Unplaced c.rules := by
  simp [rules, LinkAttributes.wrongType]

theorem places : Places ofElement ctx := fun _ e he =>
  .bind (.own he (LinkAttributes.ofElement_fails e)) fun _ _ =>
    .bind (.check he (rules_fails _)) fun _ _ => .pure

end TaskId

namespace TaskingInfo

theorem rules_fails (c : TaskingInfo) : Fails Unplaced c.rules := by
  simp [rules]

theorem places (hctx : ctx.Standard) : Places ofElement ctx := fun _ e he =>
  .bind (.within he ((TaskingRole.places hctx).readAll (by decide) _)) fun _ _ =>
    .bind (.within he ((TaskingRole.places hctx).readAll (by decide) _)) fun _ _ =>
      .bind (.within he ((Caption.places hctx).readOption (by decide) _)) fun _ _ =>
        .bind (.within he (TaskId.places.readOption (by decide) _)) fun _ _ =>
          .bind (.own he (SecurityAttributes.ofElement_fails hctx e)) fun _ _ =>
            .bind (.check he (rules_fails _)) fun _ _ => .pure

end TaskingInfo

namespace Management

theorem rules_fails (c : Management) : Fails Unplaced c.rules := by
  simp [rules]

theorem places (hctx : ctx.Standard) : Places ofElement ctx := by
  intro v e he
  refine .bind (.within he ?_) fun c hc => ?_
  · exact .bind ((RecordsInfo.places hctx).readOption (by decide) _) fun _ _ =>
      .bind ((RevisionRecall.places hctx).readOption (by decide) _) fun _ _ =>
        .bind ((TaskingInfo.places hctx).readAll (by decide) _) fun _ _ =>
          .bind ((ProcessingInfo.places hctx).readAll (by decide) _) fun _ _ =>
            .bind (SecurityAttributes.ofElement_fails hctx e).beneath fun _ _ => .pure
  · simp only [within_ok, bind_ok, pure_ok] at hc
    obtain ⟨_, -, _, -, _, -, _, -, _, -, rfl⟩ := hc
    exact .bind (.check he (rules_fails _)) fun _ _ => .pure

end Management

section Notices

/-- All versions draw on the schema of security markings. -/
theorem requireIsm_fails (e : Element) (localName : String) :
    Fails Unplaced (requireIn e v .ism localName) :=
  requireIn_fails rfl _

namespace NoticeText

theorem rules_fails (hctx : ctx.Standard) (c : NoticeText) : Fails Unplaced (c.rules ctx) :=
  .bind (requireIsm_fails _ _) fun _ _ => .bind (requireVersion_fails _) fun _ hv =>
    .bind (SecurityAttributes.requireClassification_fails _) fun _ _ =>
      Context.checkTokens_fails hctx (Vocabulary.pocType_known (demand_ok.1 hv)) _

theorem places (hctx : ctx.Standard) : Places ofElement ctx := fun _ e he =>
  .bind (.own he (SecurityAttributes.ofElement_fails hctx e)) fun _ _ =>
    .bind (.check he (rules_fails hctx _)) fun _ _ => .pure

end NoticeText

namespace Notice

theorem rules_fails (c : Notice) : Fails Unplaced c.rules := by
  simp [rules, requireIsm_fails]

theorem places (hctx : ctx.Standard) : Places ofElement ctx := fun _ e he =>
  .bind (.within he ((NoticeText.places hctx).readAll (by decide) _)) fun _ _ =>
    .bind (.own he (SecurityAttributes.ofElement_fails hctx e)) fun _ _ =>
      .bind (.own he (NoticeAttributes.ofElement_fails hctx e)) fun _ _ =>
        .bind (.check he (rules_fails _)) fun _ _ => .pure

end Notice

namespace NoticeList

theorem rules_fails (c : NoticeList) : Fails Unplaced c.rules := by
  simp [rules]

theorem places (hctx : ctx.Standard) : Places ofElement ctx := fun _ e he =>
  .bind (.within he ((Notice.places hctx).readAll (by decide) _)) fun _ _ =>
    .bind (.own he (SecurityAttributes.ofElement_fails hctx e)) fun _ _ =>
      .bind (.check he (rules_fails _)) fun _ _ => .pure

end NoticeList

end Notices

section Access

theorem uriOf_ntk (hv : v.atLeast .v4_0_1 = true) : v.uriOf .ntk = .ok Version.ntkUri :=
  if_pos hv

/-- The version is asked for first, so the schema is there where it is asked for. -/
@[simp]
theorem Ntk.uriFor_fails (localName : String) : Fails Unplaced (Ntk.uriFor v localName) :=
  .bind (requireVersion_fails _) fun _ hv => by simp [uriOf_ntk (demand_ok.1 hv)]

theorem Ntk.uriFor_ok {localName uri : String} (h : Ntk.uriFor v localName = .ok uri) :
    v.atLeast .v4_0_1 = true := by
  obtain ⟨_, hv, -⟩ := bind_ok.1 h
  exact demand_ok.1 hv

namespace AccessText

theorem rules_fails (c : AccessText) (hv : c.version.atLeast .v4_0_1 = true) :
    Fails Unplaced c.rules := by
  have hname (n : String) : Fails Unplaced (requireIn c.element c.version .ntk n) :=
    requireIn_fails (uriOf_ntk hv) n
  unfold rules
  split_ifs <;> simp [hname]

theorem places (hctx : ctx.Standard) : Places ofElement ctx := by
  intro v e he
  unfold ofElement
  split
  · exact .own he (by simp)
  · refine .bind (.own he (Ntk.uriFor_fails _)) fun _ hu =>
      .bind (.own he (SecurityAttributes.ofElement_fails hctx e)) fun _ _ => ?_
    exact .bind (.check he (rules_fails _ (Ntk.uriFor_ok (within_ok.1 hu)))) fun _ _ => .pure

end AccessText

namespace AccessEntity

theorem checkSystemName_fails (c : AccessEntity) : Fails Unplaced c.checkSystemName := by
  unfold checkSystemName
  split <;> simp

theorem checkValue_fails (c : AccessEntity) (value : AccessText) :
    Fails Unplaced (c.checkValue value) := by
  simp [checkValue]

theorem rules_fails (c : AccessEntity) (hv : c.version.atLeast .v4_0_1 = true) :
    Fails Unplaced c.rules :=
  .bind (requireIn_fails (uriOf_ntk hv) _) fun _ _ => .bind (checkSystemName_fails c) fun _ _ =>
    .bind (by simp) fun _ _ => .bind (.forM fun _ _ => checkValue_fails _ _) fun _ _ =>
      SecurityAttributes.requireClassification_fails _

theorem places (hctx : ctx.Standard) : Places ofElement ctx := by
  intro v e he
  unfold ofElement
  split
  · exact .own he (by simp)
  · refine .bind (.own he (Ntk.uriFor_fails _)) fun _ hu =>
      .bind (.within he ((AccessText.places hctx).readOption (by decide) _)) fun _ _ =>
        .bind (.within he ((AccessText.places hctx).readAll ?_ _)) fun _ _ =>
          .bind (.own he (SecurityAttributes.ofElement_fails hctx e)) fun _ _ => ?_
    · cases ‹Kind› <;> decide
    · exact .bind (.check he (rules_fails _ (Ntk.uriFor_ok (within_ok.1 hu)))) fun _ _ => .pure

/-- An entry without a name is none of the kinds there are, and that is all that is said. -/
theorem ofElement_beneath (hctx : ctx.Standard) {e c : Element} (hc : c ∈ e.children) :
    Fails (Beneath e) (ofElement ctx v c) := by
  by_cases hn : c.writtenName = ""
  · unfold ofElement
    split
    · exact .nameless hn (.beneath (by simp))
    case h_2 kind hkind =>
      have hname := List.find?_some hkind
      have hkinds : kind.name ≠ "" := by cases kind <;> decide
      exact absurd hn (writtenName_ne hkinds (of_decide_eq_true hname).symm)
  · exact (places hctx v c hn).inChild hc

end AccessEntity

namespace ProfileList

theorem checkProfile_fails (b : Base) (profile : AccessEntity) :
    Fails Unplaced (checkProfile b profile) := by
  simp [checkProfile]

theorem rules_fails (c : ProfileList) (hv : c.version.atLeast .v4_0_1 = true) :
    Fails Unplaced c.rules :=
  .bind (requireIn_fails (uriOf_ntk hv) _) fun _ _ => .bind (by simp) fun _ _ =>
    .bind (.forM fun _ _ => checkProfile_fails _ _) fun _ _ =>
      SecurityAttributes.requireClassification_fails _

theorem places (hctx : ctx.Standard) : Places ofElement ctx := fun _ e he =>
  .bind (.own he (Ntk.uriFor_fails _)) fun _ hu =>
    .bind (.within he ((AccessEntity.places hctx).readAll (by decide) _)) fun _ _ =>
      .bind (.own he (SecurityAttributes.ofElement_fails hctx e)) fun _ _ =>
        .bind (.check he (rules_fails _ (Ntk.uriFor_ok (within_ok.1 hu)))) fun _ _ => .pure

end ProfileList

namespace Access

theorem checkEntry_fails (b : Base) (kind : AccessEntity.Kind) (entity : AccessEntity) :
    Fails Unplaced (checkEntry b kind entity) := by
  simp [checkEntry]

theorem rules_fails (c : Access) (hv : c.version.atLeast .v4_0_1 = true) :
    Fails Unplaced c.rules :=
  .bind (requireIn_fails (uriOf_ntk hv) _) fun _ _ =>
    .bind (.forM fun _ _ => checkEntry_fails _ _ _) fun _ _ =>
      .bind (.forM fun _ _ => checkEntry_fails _ _ _) fun _ _ =>
        .bind (requireSameVersions_fails _) fun _ _ =>
          SecurityAttributes.requireClassification_fails _

/-- A list of entries shows on the way out of each. -/
theorem entriesOf_fails (hctx : ctx.Standard) (e : Element) {localName : String}
    (hn : localName ≠ "") (uri : String) :
    Fails (Beneath e) (entriesOf ctx v (e.child? uri localName)) := by
  unfold entriesOf
  split
  case h_1 list hlist =>
    have hname := List.find?_some hlist
    have hentries : Fails (Beneath list) (readAll AccessEntity.ofElement ctx v list.children) :=
      .mapM fun _ hc => AccessEntity.ofElement_beneath hctx hc
    exact (Fails.within (writtenName_ne hn (localName_eq hname)) hentries).inChild
      (List.mem_of_find?_eq_some hlist)
  · exact .ok

theorem places (hctx : ctx.Standard) : Places ofElement ctx := fun _ e he =>
  .bind (.own he (Ntk.uriFor_fails _)) fun _ hu =>
    .bind (.within he (entriesOf_fails hctx e (by decide) _)) fun _ _ =>
      .bind (.within he (entriesOf_fails hctx e (by decide) _)) fun _ _ =>
        .bind (.within he ((ProfileList.places hctx).readOption (by decide) _)) fun _ _ =>
          .bind (.own he (SecurityAttributes.ofElement_fails hctx e)) fun _ _ =>
            .bind (.check he (rules_fails _ (Ntk.uriFor_ok (within_ok.1 hu)))) fun _ _ => .pure

end Access

end Access

namespace Security

theorem checkRollup_fails (c : Security) : Fails Unplaced c.checkRollup := by
  unfold checkRollup
  split_ifs
  · split <;> simp
  · simp

theorem rules_fails (c : Security) : Fails Unplaced c.rules := by
  simp [rules, checkRollup_fails]

theorem readAccess_fails (hctx : ctx.Standard) (e : Element) :
    Fails (Beneath e) (readOption Access.ofElement ctx v (accessElements v e).head?) := by
  refine .optionMapM fun c hc => ?_
  have hc := List.mem_of_mem_head? hc
  unfold accessElements at hc
  split at hc
  · obtain ⟨hin, hname⟩ := List.mem_filter.1 hc
    exact (Access.places hctx v c (writtenName_ne (by decide) (localName_eq hname))).inChild hin
  · cases hc

theorem places (hctx : ctx.Standard) : Places ofElement ctx := fun _ e he =>
  .bind (.within he ((NoticeList.places hctx).readOption (by decide) _)) fun _ _ =>
    .bind (.within he (readAccess_fails hctx e)) fun _ _ =>
      .bind (.own he (SecurityAttributes.ofElement_fails hctx e)) fun _ _ =>
        .bind (.check he (rules_fails _)) fun _ _ => .pure

end Security

end DiscoveryMetadata
