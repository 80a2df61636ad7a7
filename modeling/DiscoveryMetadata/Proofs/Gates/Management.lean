import DiscoveryMetadata.Proofs.Gates.Records
/-
  Components are allowed by the version they are accepted in: relations, management and the security
  of a resource.
-/
namespace DiscoveryMetadata

open Xml (Element)
open DiscoveryMetadata.Part (Sound AllSound)

variable {ctx : Context} {v : Version} {e : Element}

section Relations

namespace Link

theorem checked_sound {c d : Link} (h : checked c = .ok d)
    (hs : Sound c.version (.attributes c.security)) : Sound c.version (.link d) := by
  simp only [checked, bind_ok, check_ok, pure_ok, exists_unit] at h
  obtain ⟨-, rfl⟩ := h
  exact .of trivial (.cons hs .nil)

theorem ofElement_sound {c : Link} (h : ofElement ctx v e = .ok c) : Sound v (.link c) := by
  simp only [ofElement, bind_ok, within_ok] at h
  obtain ⟨_, -, s, hs, h⟩ := h
  exact checked_sound h (SecurityAttributes.ofElement_sound hs)

theorem build_sound {d : Draft} {c : Link} (h : Buildable.build ctx v d = .ok c) :
    Sound v (.link c) := by
  simp only [Buildable.build, make, bind_ok, within_ok] at h
  obtain ⟨_, -, s, hs, _, -, h⟩ := h
  exact checked_sound h (SecurityAttributes.commitAs_sound hs)

end Link

namespace RelatedResource

theorem checked_sound {c d : RelatedResource} (h : checked c = .ok d)
    (hs : Sound c.version (.attributes c.security)) (hl : AllSound c.version (c.links.map .link)) :
    Sound c.version (.relatedResource d) := by
  simp only [checked, bind_ok, check_ok, pure_ok, exists_unit] at h
  obtain ⟨-, rfl⟩ := h
  exact .of trivial (.cons hs hl)

theorem ofElement_sound {c : RelatedResource} (h : ofElement ctx v e = .ok c) :
    Sound v (.relatedResource c) := by
  simp only [ofElement, bind_ok, within_ok] at h
  obtain ⟨links, hl, s, hs, h⟩ := h
  refine checked_sound h (SecurityAttributes.ofElement_sound hs) ?_
  split at hl
  · rw [withinHolder_ok] at hl
    exact readAll_sound Link.ofElement_sound hl
  · cases hl
    exact .nil

theorem build_sound {d : Draft} {c : RelatedResource} (h : Buildable.build ctx v d = .ok c) :
    Sound v (.relatedResource c) := by
  simp only [Buildable.build, make, bind_ok, within_ok] at h
  obtain ⟨links, hl, s, hs, _, -, h⟩ := h
  exact checked_sound h (SecurityAttributes.commitAs_sound hs) (commitAll_sound Link.build_sound hl)

end RelatedResource

end Relations

section Management

namespace ManagedText

theorem checked_sound {c d : ManagedText} (h : checked c = .ok d)
    (hs : Sound c.version (.attributes c.security)) : Sound c.version (.managedText d) := by
  simp only [checked, rules, bind_ok, check_ok, pure_ok, exists_unit, requireVersion_ok] at h
  obtain ⟨⟨-, -, hv⟩, rfl⟩ := h
  exact .of hv (.cons hs .nil)

theorem ofElement_sound {c : ManagedText} (h : ofElement ctx v e = .ok c) :
    Sound v (.managedText c) := by
  unfold ofElement at h
  cases hk : Kind.ofName? e.localName with
  | none => simp only [hk, within_ok, error_ok] at h
  | some kind =>
    simp only [hk, bind_ok, within_ok] at h
    obtain ⟨s, hs, h⟩ := h
    exact checked_sound h (SecurityAttributes.ofElement_sound hs)

theorem build_sound {d : Draft} {c : ManagedText} (h : Buildable.build ctx v d = .ok c) :
    Sound v (.managedText c) := by
  simp only [Buildable.build, make, bind_ok, within_ok] at h
  obtain ⟨s, hs, _, -, h⟩ := h
  exact checked_sound h (SecurityAttributes.commitAs_sound hs)

end ManagedText

namespace ProcessingInfo

theorem checked_sound {c d : ProcessingInfo} (h : checked c = .ok d)
    (hs : Sound c.version (.attributes c.security)) : Sound c.version (.processingInfo d) := by
  simp only [checked, rules, bind_ok, check_ok, pure_ok, exists_unit, requireVersion_ok] at h
  obtain ⟨⟨-, -, _, -, -, hv⟩, rfl⟩ := h
  exact .of hv (.cons hs .nil)

theorem ofElement_sound {c : ProcessingInfo} (h : ofElement ctx v e = .ok c) :
    Sound v (.processingInfo c) := by
  simp only [ofElement, bind_ok, within_ok] at h
  obtain ⟨s, hs, h⟩ := h
  exact checked_sound h (SecurityAttributes.ofElement_sound hs)

theorem build_sound {d : Draft} {c : ProcessingInfo} (h : Buildable.build ctx v d = .ok c) :
    Sound v (.processingInfo c) := by
  simp only [Buildable.build, make, bind_ok, within_ok] at h
  obtain ⟨s, hs, _, -, h⟩ := h
  exact checked_sound h (SecurityAttributes.commitAs_sound hs)

end ProcessingInfo

namespace RecordKeeper

theorem checked_sound {c d : RecordKeeper} (h : checked c = .ok d)
    (hc : AllSound c.version (c.organization.map .organization).toList) :
    Sound c.version (.recordKeeper d) := by
  simp only [checked, bind_ok, check_ok, pure_ok, exists_unit] at h
  obtain ⟨hr, rfl⟩ := h
  refine .of ?_ hc
  unfold rules at hr
  cases ho : c.organization with
  | none => simp only [ho, bind_ok, throw_ok, and_false, exists_false, false_and] at hr
  | some o =>
    simp only [ho, bind_ok, exists_unit, requireVersion_ok] at hr
    exact hr.2.2.2

theorem ofElement_sound {c : RecordKeeper} (h : ofElement ctx v e = .ok c) :
    Sound v (.recordKeeper c) := by
  simp only [ofElement, bind_ok, within_ok] at h
  obtain ⟨o, ho, h⟩ := h
  exact checked_sound h (readOption_sound Organization.ofElement_sound ho)

theorem build_sound {d : Draft} {c : RecordKeeper} (h : Buildable.build ctx v d = .ok c) :
    Sound v (.recordKeeper c) := by
  simp only [Buildable.build, bind_ok] at h
  obtain ⟨o, ho, h⟩ := h
  cases o with
  | none => simp only [within_ok, error_ok] at h
  | some o => exact checked_sound h (commitAs_sound Organization.build_sound ho)

end RecordKeeper

namespace RecordsInfo

theorem checked_sound {c d : RecordsInfo} (h : checked c = .ok d)
    (hc : AllSound c.version (Part.recordsInfo c).children) :
    Sound c.version (.recordsInfo d) := by
  simp only [checked, rules, bind_ok, check_ok, pure_ok, exists_unit, requireVersion_ok] at h
  obtain ⟨⟨-, -, -, -, -, -, hv⟩, rfl⟩ := h
  exact .of hv hc

theorem ofElement_sound {c : RecordsInfo} (h : ofElement ctx v e = .ok c) :
    Sound v (.recordsInfo c) := by
  simp only [ofElement, bind_ok, within_ok, pure_ok] at h
  obtain ⟨_, ⟨k, hk, s, hs, _, -, rfl⟩, h⟩ := h
  exact checked_sound h (.append (readOption_sound RecordKeeper.ofElement_sound hk)
    (readOption_sound ManagedText.ofElement_sound hs))

theorem build_sound {d : Draft} {c : RecordsInfo} (h : Buildable.build ctx v d = .ok c) :
    Sound v (.recordsInfo c) := by
  simp only [Buildable.build, make, bind_ok] at h
  obtain ⟨k, hk, s, hs, h⟩ := h
  exact checked_sound h (.append (commitAs_sound RecordKeeper.build_sound hk)
    (commitAs_sound ManagedText.build_sound hs))

end RecordsInfo

namespace RevisionRecall

theorem checked_sound {c d : RevisionRecall} (h : checked c = .ok d)
    (hc : AllSound c.version (Part.revisionRecall c).children) :
    Sound c.version (.revisionRecall d) := by
  simp only [checked, rules, bind_ok, check_ok, pure_ok, exists_unit, requireVersion_ok] at h
  obtain ⟨⟨-, -, -, -, -, -, -, -, -, hv⟩, rfl⟩ := h
  exact .of hv hc

theorem ofElement_sound {c : RevisionRecall} (h : ofElement ctx v e = .ok c) :
    Sound v (.revisionRecall c) := by
  simp only [ofElement, bind_ok, within_ok] at h
  obtain ⟨ls, hl, ds, hd, _, -, _, -, s, hs, h⟩ := h
  refine checked_sound h (.append (.cons (SecurityAttributes.ofElement_sound hs) ?_) ?_)
  · exact readAll_sound Link.ofElement_sound hl
  · exact readAll_sound ManagedText.ofElement_sound hd

theorem build_sound {d : Draft} {c : RevisionRecall} (h : Buildable.build ctx v d = .ok c) :
    Sound v (.revisionRecall c) := by
  simp only [Buildable.build] at h
  cases hi : d.revisionId with
  | none => simp only [hi, within_ok, error_ok] at h
  | some id =>
    simp only [hi, make, bind_ok, within_ok] at h
    obtain ⟨_, -, s, hs, ls, hl, ds, hd, _, -, h⟩ := h
    refine checked_sound h (.append (.cons (SecurityAttributes.commitAs_sound hs) ?_) ?_)
    · exact commitAll_sound Link.build_sound hl
    · exact commitAll_sound ManagedText.build_sound hd

end RevisionRecall

namespace TaskId

theorem ofElement_sound {c : TaskId} (h : ofElement ctx v e = .ok c) : Sound v (.taskId c) := by
  simp only [ofElement, rules, bind_ok, within_ok, check_ok, pure_ok, exists_unit, demand_ok,
    requireVersion_ok, Bool.or_eq_true, Bool.not_eq_true', String.isEmpty_iff] at h
  obtain ⟨_, -, ⟨-, -, -, -, ho, hv⟩, rfl⟩ := h
  refine .of ⟨hv, fun hn h5 => ?_⟩ .nil
  exact hn (ho.resolve_left (by simp [h5]))

theorem build_sound {d : Draft} {c : TaskId} (h : Buildable.build ctx v d = .ok c) :
    Sound v (.taskId c) := by
  simp only [Buildable.build, make, bind_ok] at h
  obtain ⟨_, -, h⟩ := h
  exact ofElement_sound h

end TaskId

namespace TaskingInfo

theorem checked_sound {c d : TaskingInfo} (h : checked c = .ok d)
    (hc : AllSound c.version (Part.taskingInfo c).children) :
    Sound c.version (.taskingInfo d) := by
  simp only [checked, rules, bind_ok, check_ok, pure_ok, exists_unit, requireVersion_ok] at h
  obtain ⟨⟨-, -, -, -, -, hv⟩, rfl⟩ := h
  exact .of hv hc

theorem ofElement_sound {c : TaskingInfo} (h : ofElement ctx v e = .ok c) :
    Sound v (.taskingInfo c) := by
  simp only [ofElement, bind_ok, within_ok] at h
  obtain ⟨rs, hr, as, ha, d, hd, t, ht, s, hs, h⟩ := h
  refine checked_sound h (.append (.append (.append (.cons ?_ ?_) ?_) ?_) ?_)
  · exact SecurityAttributes.ofElement_sound hs
  · exact readAll_sound TaskingRole.ofElement_sound hr
  · exact readAll_sound TaskingRole.ofElement_sound ha
  · exact readOption_sound Caption.ofElement_sound hd
  · exact readOption_sound TaskId.ofElement_sound ht

theorem build_sound {d : Draft} {c : TaskingInfo} (h : Buildable.build ctx v d = .ok c) :
    Sound v (.taskingInfo c) := by
  simp only [Buildable.build, bind_ok] at h
  obtain ⟨rs, hr, as, ha, t, ht, h⟩ := h
  cases t with
  | none => simp only [within_ok, error_ok] at h
  | some t =>
    simp only [make, bind_ok, within_ok] at h
    obtain ⟨o, ho, s, hs, _, -, h⟩ := h
    refine checked_sound h (.append (.append (.append (.cons ?_ ?_) ?_) ?_) ?_)
    · exact SecurityAttributes.commitAs_sound hs
    · exact commitAll_sound TaskingRole.build_sound hr
    · exact commitAll_sound TaskingRole.build_sound ha
    · exact commitAs_sound Caption.build_sound ho
    · exact commitAs_sound TaskId.build_sound ht

end TaskingInfo

namespace Management

theorem checked_sound {c d : Management} (h : checked c = .ok d)
    (hc : AllSound c.version (Part.management c).children) : Sound c.version (.management d) := by
  simp only [checked, rules, bind_ok, check_ok, pure_ok, exists_unit, requireVersion_ok] at h
  obtain ⟨⟨-, -, -, -, hv⟩, rfl⟩ := h
  exact .of hv hc

theorem ofElement_sound {c : Management} (h : ofElement ctx v e = .ok c) :
    Sound v (.management c) := by
  simp only [ofElement, bind_ok, within_ok, pure_ok] at h
  obtain ⟨_, ⟨ri, hri, rr, hrr, ts, ht, ps, hp, s, hs, rfl⟩, h⟩ := h
  refine checked_sound h (.append (.append (.append (.cons ?_ ?_) ?_) ?_) ?_)
  · exact SecurityAttributes.ofElement_sound hs
  · exact readOption_sound RecordsInfo.ofElement_sound hri
  · exact readOption_sound RevisionRecall.ofElement_sound hrr
  · exact readAll_sound TaskingInfo.ofElement_sound ht
  · exact readAll_sound ProcessingInfo.ofElement_sound hp

theorem build_sound {d : Draft} {c : Management} (h : Buildable.build ctx v d = .ok c) :
    Sound v (.management c) := by
  simp only [Buildable.build, make, bind_ok, within_ok] at h
  obtain ⟨ri, hri, rr, hrr, ts, ht, ps, hp, s, hs, _, -, h⟩ := h
  refine checked_sound h (.append (.append (.append (.cons ?_ ?_) ?_) ?_) ?_)
  · exact SecurityAttributes.commitAs_sound hs
  · exact commitAs_sound RecordsInfo.build_sound hri
  · exact commitAs_sound RevisionRecall.build_sound hrr
  · exact commitAll_sound TaskingInfo.build_sound ht
  · exact commitAll_sound ProcessingInfo.build_sound hp

end Management

end Management

section Notices

namespace NoticeText

theorem checked_sound {c d : NoticeText} (h : checked ctx c = .ok d)
    (hs : Sound c.version (.attributes c.security)) : Sound c.version (.noticeText d) := by
  simp only [checked, rules, bind_ok, check_ok, pure_ok, exists_unit, requireVersion_ok] at h
  obtain ⟨_, ⟨-, hv, -⟩, rfl⟩ := h
  exact .of hv (.cons hs .nil)

theorem ofElement_sound {c : NoticeText} (h : ofElement ctx v e = .ok c) :
    Sound v (.noticeText c) := by
  simp only [ofElement, bind_ok, within_ok] at h
  obtain ⟨s, hs, h⟩ := h
  exact checked_sound h (SecurityAttributes.ofElement_sound hs)

theorem build_sound {d : Draft} {c : NoticeText} (h : Buildable.build ctx v d = .ok c) :
    Sound v (.noticeText c) := by
  simp only [Buildable.build, make, bind_ok, within_ok] at h
  obtain ⟨s, hs, _, -, _, -, h⟩ := h
  exact checked_sound h (SecurityAttributes.commitAs_sound hs)

end NoticeText

namespace Notice

theorem checked_sound {c d : Notice} (h : checked c = .ok d)
    (hc : AllSound c.version (Part.notice c).children) : Sound c.version (.notice d) := by
  simp only [checked, rules, bind_ok, check_ok, pure_ok, exists_unit, requireVersion_ok] at h
  obtain ⟨⟨-, -, hv, -⟩, rfl⟩ := h
  exact .of hv hc

theorem ofElement_sound {c : Notice} (h : ofElement ctx v e = .ok c) : Sound v (.notice c) := by
  simp only [ofElement, bind_ok, within_ok] at h
  obtain ⟨ts, ht, s, hs, n, hn, h⟩ := h
  refine checked_sound h (.cons (SecurityAttributes.ofElement_sound hs) (.cons ?_ ?_))
  · exact NoticeAttributes.ofElement_sound hn
  · exact readAll_sound NoticeText.ofElement_sound ht

theorem build_sound {d : Draft} {c : Notice} (h : Buildable.build ctx v d = .ok c) :
    Sound v (.notice c) := by
  simp only [Buildable.build, make, bind_ok, within_ok] at h
  obtain ⟨n, hn, ts, ht, s, hs, _, -, _, -, h⟩ := h
  refine checked_sound h (.cons (SecurityAttributes.commitAs_sound hs) (.cons ?_ ?_))
  · exact NoticeAttributes.ofValues_sound hn
  · exact commitAll_sound NoticeText.build_sound ht

end Notice

namespace NoticeList

theorem checked_sound {c d : NoticeList} (h : checked c = .ok d)
    (hc : AllSound c.version (Part.noticeList c).children) : Sound c.version (.noticeList d) := by
  simp only [checked, rules, bind_ok, check_ok, pure_ok, exists_unit, requireVersion_ok] at h
  obtain ⟨⟨-, -, -, hv, -⟩, rfl⟩ := h
  exact .of hv hc

theorem ofElement_sound {c : NoticeList} (h : ofElement ctx v e = .ok c) :
    Sound v (.noticeList c) := by
  simp only [ofElement, bind_ok, within_ok] at h
  obtain ⟨ns, hn, s, hs, h⟩ := h
  exact checked_sound h (.cons (SecurityAttributes.ofElement_sound hs)
    (readAll_sound Notice.ofElement_sound hn))

theorem build_sound {d : Draft} {c : NoticeList} (h : Buildable.build ctx v d = .ok c) :
    Sound v (.noticeList c) := by
  simp only [Buildable.build, make, bind_ok, within_ok] at h
  obtain ⟨ns, hn, s, hs, _, -, h⟩ := h
  exact checked_sound h (.cons (SecurityAttributes.commitAs_sound hs)
    (commitAll_sound Notice.build_sound hn))

end NoticeList

end Notices

section NeedToKnow

namespace AccessText

theorem checked_sound {c d : AccessText} (h : checked c = .ok d)
    (hs : Sound c.version (.attributes c.security)) : Sound c.version (.accessText d) := by
  simp only [checked, bind_ok, check_ok, pure_ok, exists_unit] at h
  obtain ⟨hr, rfl⟩ := h
  simp only [rules, bind_ok, exists_unit] at hr
  exact .of (requireIn_ntk_ok hr.1) (.cons hs .nil)

theorem ofElement_sound {c : AccessText} (h : ofElement ctx v e = .ok c) :
    Sound v (.accessText c) := by
  unfold ofElement at h
  cases hk : Kind.ofName? e.localName with
  | none => simp only [hk, within_ok, error_ok] at h
  | some kind =>
    simp only [hk, bind_ok, within_ok] at h
    obtain ⟨_, -, s, hs, h⟩ := h
    exact checked_sound h (SecurityAttributes.ofElement_sound hs)

theorem build_sound {d : Draft} {c : AccessText} (h : Buildable.build ctx v d = .ok c) :
    Sound v (.accessText c) := by
  simp only [Buildable.build, make, bind_ok, within_ok] at h
  obtain ⟨s, hs, _, -, _, -, _, -, _, -, _, -, _, -, h⟩ := h
  exact checked_sound h (SecurityAttributes.commitAs_sound hs)

end AccessText

namespace AccessEntity

theorem checked_sound {c d : AccessEntity} (h : checked c = .ok d)
    (hc : AllSound c.version (Part.accessEntity c).children) :
    Sound c.version (.accessEntity d) := by
  simp only [checked, rules, bind_ok, check_ok, pure_ok, exists_unit] at h
  obtain ⟨⟨hu, -⟩, rfl⟩ := h
  exact .of (requireIn_ntk_ok hu) hc

theorem ofElement_sound {c : AccessEntity} (h : ofElement ctx v e = .ok c) :
    Sound v (.accessEntity c) := by
  unfold ofElement at h
  cases hk : Kind.ofName? e.localName with
  | none => simp only [hk, within_ok, error_ok] at h
  | some kind =>
    simp only [hk, bind_ok, within_ok] at h
    obtain ⟨_, -, y, hy, vs, hv, s, hs, h⟩ := h
    refine checked_sound h (.append (.cons (SecurityAttributes.ofElement_sound hs) ?_) ?_)
    · exact readOption_sound AccessText.ofElement_sound hy
    · exact readAll_sound AccessText.ofElement_sound hv

theorem build_sound {d : Draft} {c : AccessEntity} (h : Buildable.build ctx v d = .ok c) :
    Sound v (.accessEntity c) := by
  simp only [Buildable.build, make, bind_ok, within_ok] at h
  obtain ⟨y, hy, vs, hv, s, hs, _, -, _, -, h⟩ := h
  refine checked_sound h (.append (.cons (SecurityAttributes.commitAs_sound hs) ?_) ?_)
  · exact commitAs_sound AccessText.build_sound hy
  · exact commitAll_sound AccessText.build_sound hv

end AccessEntity

namespace ProfileList

theorem checked_sound {c d : ProfileList} (h : checked c = .ok d)
    (hc : AllSound c.version (Part.profileList c).children) :
    Sound c.version (.profileList d) := by
  simp only [checked, rules, bind_ok, check_ok, pure_ok, exists_unit] at h
  obtain ⟨⟨hu, -⟩, rfl⟩ := h
  exact .of (requireIn_ntk_ok hu) hc

theorem ofElement_sound {c : ProfileList} (h : ofElement ctx v e = .ok c) :
    Sound v (.profileList c) := by
  simp only [ofElement, bind_ok, within_ok] at h
  obtain ⟨_, -, ps, hp, s, hs, h⟩ := h
  exact checked_sound h (.cons (SecurityAttributes.ofElement_sound hs)
    (readAll_sound AccessEntity.ofElement_sound hp))

theorem build_sound {d : Draft} {c : ProfileList} (h : Buildable.build ctx v d = .ok c) :
    Sound v (.profileList c) := by
  simp only [Buildable.build, make, bind_ok, within_ok] at h
  obtain ⟨ps, hp, s, hs, _, -, _, -, h⟩ := h
  exact checked_sound h (.cons (SecurityAttributes.commitAs_sound hs)
    (commitAll_sound AccessEntity.build_sound hp))

end ProfileList

namespace Access

theorem checked_sound {c d : Access} (h : checked c = .ok d)
    (hc : AllSound c.version (Part.access c).children) : Sound c.version (.access d) := by
  simp only [checked, rules, bind_ok, check_ok, pure_ok, exists_unit] at h
  obtain ⟨⟨hu, -⟩, rfl⟩ := h
  exact .of (requireIn_ntk_ok hu) hc

theorem entriesOf_sound {list : Option Element} {entries : List AccessEntity}
    (h : entriesOf ctx v list = .ok entries) : AllSound v (entries.map .accessEntity) := by
  cases list with
  | none =>
    cases h
    exact .nil
  | some list =>
    simp only [entriesOf, within_ok] at h
    exact readAll_sound AccessEntity.ofElement_sound h

theorem ofElement_sound {c : Access} (h : ofElement ctx v e = .ok c) : Sound v (.access c) := by
  simp only [ofElement, bind_ok, within_ok] at h
  obtain ⟨_, -, is, hi, gs, hg, p, hp, s, hs, h⟩ := h
  refine checked_sound h (.append (.append (.cons ?_ ?_) ?_) ?_)
  · exact SecurityAttributes.ofElement_sound hs
  · exact entriesOf_sound hi
  · exact entriesOf_sound hg
  · exact readOption_sound ProfileList.ofElement_sound hp

theorem build_sound {d : Draft} {c : Access} (h : Buildable.build ctx v d = .ok c) :
    Sound v (.access c) := by
  simp only [Buildable.build, make, bind_ok, within_ok] at h
  obtain ⟨is, hi, gs, hg, p, hp, s, hs, _, -, _, -, _, -, _, -, h⟩ := h
  refine checked_sound h (.append (.append (.cons ?_ ?_) ?_) ?_)
  · exact SecurityAttributes.commitAs_sound hs
  · exact commitAll_sound AccessEntity.build_sound hi
  · exact commitAll_sound AccessEntity.build_sound hg
  · exact commitAs_sound ProfileList.build_sound hp

end Access

end NeedToKnow

namespace Security

theorem checked_sound {c d : Security} (h : checked c = .ok d)
    (hc : AllSound c.version (Part.security c).children) : Sound c.version (.security d) := by
  simp only [checked, rules, bind_ok, check_ok, pure_ok, exists_unit] at h
  obtain ⟨⟨-, -, -, hx, -⟩, rfl⟩ := h
  refine .of ?_ hc
  intro hn
  unfold checkRollup at hx
  by_cases hv : c.version.atLeast .v3_0 = true
  · exact hv
  · rw [if_neg hv, demand_ok, Option.isNone_iff_eq_none] at hx
    exact absurd hx hn

theorem ofElement_sound {c : Security} (h : ofElement ctx v e = .ok c) : Sound v (.security c) := by
  simp only [ofElement, bind_ok, within_ok] at h
  obtain ⟨n, hn, a, ha, s, hs, h⟩ := h
  refine checked_sound h (.append (.cons (SecurityAttributes.ofElement_sound hs) ?_) ?_)
  · exact readOption_sound NoticeList.ofElement_sound hn
  · exact readOption_sound Access.ofElement_sound ha

theorem build_sound {d : Draft} {c : Security} (h : Buildable.build ctx v d = .ok c) :
    Sound v (.security c) := by
  simp only [Buildable.build, make, bind_ok, within_ok] at h
  obtain ⟨n, hn, a, ha, s, hs, _, -, h⟩ := h
  refine checked_sound h (.append (.cons (SecurityAttributes.commitAs_sound hs) ?_) ?_)
  · exact commitAs_sound NoticeList.build_sound hn
  · exact commitAs_sound Access.build_sound ha

end Security

end DiscoveryMetadata
