import DiscoveryMetadata.Proofs.Warnings.Records
/-
  What is recorded at relations, at what is managed, at notices, at need-to-know rules and at the
  security of a resource is what their checks find.
-/
namespace DiscoveryMetadata

open Xml (Element)
open DiscoveryMetadata.Part (Told AllTold)

variable {ctx : Context} {v : Version} {e : Element}

section Relations

namespace Link

theorem checked_told {c d : Link} (h : checked c = .ok d)
    (hs : Told ctx (.attributes c.security)) : Told ctx (.link d) :=
  .checked (f := .link) h rfl (.cons hs .nil)

theorem ofElement_told {c : Link} (h : ofElement ctx v e = .ok c) : Told ctx (.link c) := by
  simp only [ofElement, bind_ok, within_ok] at h
  obtain ⟨_, -, s, hs, h⟩ := h
  exact checked_told h (SecurityAttributes.ofElement_told hs)

theorem build_told {d : Draft} {c : Link} (h : Buildable.build ctx v d = .ok c) :
    Told ctx (.link c) := by
  simp only [Buildable.build, make, bind_ok, within_ok] at h
  obtain ⟨_, -, s, hs, _, -, h⟩ := h
  exact checked_told h (SecurityAttributes.commitAs_told hs)

end Link

namespace RelatedResource

theorem checked_told {c d : RelatedResource} (h : checked c = .ok d)
    (hs : Told ctx (.attributes c.security))
    (hl : AllTold ctx (c.links.map .link)) : Told ctx (.relatedResource d) :=
  .checked (f := .relatedResource) h rfl (.cons hs hl)

theorem ofElement_told {c : RelatedResource} (h : ofElement ctx v e = .ok c) :
    Told ctx (.relatedResource c) := by
  simp only [ofElement, bind_ok, within_ok] at h
  obtain ⟨links, hl, s, hs, h⟩ := h
  refine checked_told h (SecurityAttributes.ofElement_told hs) ?_
  split at hl
  · rw [withinHolder_ok] at hl
    exact readAll_told Link.ofElement_told hl
  · cases hl
    exact .nil

theorem build_told {d : Draft} {c : RelatedResource} (h : Buildable.build ctx v d = .ok c) :
    Told ctx (.relatedResource c) := by
  simp only [Buildable.build, make, bind_ok, within_ok] at h
  obtain ⟨links, hl, s, hs, _, -, h⟩ := h
  exact checked_told h (SecurityAttributes.commitAs_told hs) (commitAll_told Link.build_told hl)

end RelatedResource

end Relations

section Management

namespace ManagedText

theorem checked_told {c d : ManagedText} (h : checked c = .ok d)
    (hs : Told ctx (.attributes c.security)) : Told ctx (.managedText d) :=
  .checked (f := .managedText) h rfl (.cons hs .nil)

theorem ofElement_told {c : ManagedText} (h : ofElement ctx v e = .ok c) :
    Told ctx (.managedText c) := by
  unfold ofElement at h
  cases hk : Kind.ofName? e.localName with
  | none => simp only [hk, within_ok, error_ok] at h
  | some kind =>
    simp only [hk, bind_ok, within_ok] at h
    obtain ⟨s, hs, h⟩ := h
    exact checked_told h (SecurityAttributes.ofElement_told hs)

theorem build_told {d : Draft} {c : ManagedText} (h : Buildable.build ctx v d = .ok c) :
    Told ctx (.managedText c) := by
  simp only [Buildable.build, make, bind_ok, within_ok] at h
  obtain ⟨s, hs, _, -, h⟩ := h
  exact checked_told h (SecurityAttributes.commitAs_told hs)

end ManagedText

namespace ProcessingInfo

theorem checked_told {c d : ProcessingInfo} (h : checked c = .ok d)
    (hs : Told ctx (.attributes c.security)) : Told ctx (.processingInfo d) :=
  .checked (f := .processingInfo) h rfl (.cons hs .nil)

theorem ofElement_told {c : ProcessingInfo} (h : ofElement ctx v e = .ok c) :
    Told ctx (.processingInfo c) := by
  simp only [ofElement, bind_ok, within_ok] at h
  obtain ⟨s, hs, h⟩ := h
  exact checked_told h (SecurityAttributes.ofElement_told hs)

theorem build_told {d : Draft} {c : ProcessingInfo} (h : Buildable.build ctx v d = .ok c) :
    Told ctx (.processingInfo c) := by
  simp only [Buildable.build, make, bind_ok, within_ok] at h
  obtain ⟨s, hs, _, -, h⟩ := h
  exact checked_told h (SecurityAttributes.commitAs_told hs)

end ProcessingInfo

namespace RecordKeeper

theorem checked_told {c d : RecordKeeper} (h : checked c = .ok d)
    (hc : AllTold ctx (c.organization.map .organization).toList) : Told ctx (.recordKeeper d) :=
  .checked (f := .recordKeeper) h rfl hc

theorem ofElement_told {c : RecordKeeper} (h : ofElement ctx v e = .ok c) :
    Told ctx (.recordKeeper c) := by
  simp only [ofElement, bind_ok, within_ok] at h
  obtain ⟨o, ho, h⟩ := h
  exact checked_told h (readOption_told Organization.ofElement_told ho)

theorem build_told {d : Draft} {c : RecordKeeper} (h : Buildable.build ctx v d = .ok c) :
    Told ctx (.recordKeeper c) := by
  simp only [Buildable.build, bind_ok] at h
  obtain ⟨o, ho, h⟩ := h
  cases o with
  | none => simp only [within_ok, error_ok] at h
  | some o => exact checked_told h (commitAs_told Organization.build_told ho)

end RecordKeeper

namespace RecordsInfo

theorem checked_told {c d : RecordsInfo} (h : checked c = .ok d)
    (hc : AllTold ctx (Part.recordsInfo c).children) : Told ctx (.recordsInfo d) :=
  .checked (f := .recordsInfo) h rfl hc

theorem ofElement_told {c : RecordsInfo} (h : ofElement ctx v e = .ok c) :
    Told ctx (.recordsInfo c) := by
  simp only [ofElement, bind_ok, within_ok, pure_ok] at h
  obtain ⟨_, ⟨k, hk, s, hs, _, -, rfl⟩, h⟩ := h
  exact checked_told h (.append (readOption_told RecordKeeper.ofElement_told hk)
    (readOption_told ManagedText.ofElement_told hs))

theorem build_told {d : Draft} {c : RecordsInfo} (h : Buildable.build ctx v d = .ok c) :
    Told ctx (.recordsInfo c) := by
  simp only [Buildable.build, make, bind_ok] at h
  obtain ⟨k, hk, s, hs, h⟩ := h
  exact checked_told h (.append (commitAs_told RecordKeeper.build_told hk)
    (commitAs_told ManagedText.build_told hs))

end RecordsInfo

namespace RevisionRecall

theorem checked_told {c d : RevisionRecall} (h : checked c = .ok d)
    (hc : AllTold ctx (Part.revisionRecall c).children) : Told ctx (.revisionRecall d) :=
  .checked (f := .revisionRecall) h rfl hc

theorem ofElement_told {c : RevisionRecall} (h : ofElement ctx v e = .ok c) :
    Told ctx (.revisionRecall c) := by
  simp only [ofElement, bind_ok, within_ok] at h
  obtain ⟨ls, hl, ds, hd, _, -, _, -, s, hs, h⟩ := h
  refine checked_told h (.append (.cons (SecurityAttributes.ofElement_told hs) ?_) ?_)
  · exact readAll_told Link.ofElement_told hl
  · exact readAll_told ManagedText.ofElement_told hd

theorem build_told {d : Draft} {c : RevisionRecall} (h : Buildable.build ctx v d = .ok c) :
    Told ctx (.revisionRecall c) := by
  simp only [Buildable.build] at h
  cases hi : d.revisionId with
  | none => simp only [hi, within_ok, error_ok] at h
  | some id =>
    simp only [hi, make, bind_ok, within_ok] at h
    obtain ⟨_, -, s, hs, ls, hl, ds, hd, _, -, h⟩ := h
    refine checked_told h (.append (.cons (SecurityAttributes.commitAs_told hs) ?_) ?_)
    · exact commitAll_told Link.build_told hl
    · exact commitAll_told ManagedText.build_told hd

end RevisionRecall

namespace TaskId

theorem ofElement_told {c : TaskId} (h : ofElement ctx v e = .ok c) : Told ctx (.taskId c) := by
  obtain ⟨_, -, h⟩ := bind_ok.1 h
  exact .checked (f := .taskId) h rfl .nil

theorem build_told {d : Draft} {c : TaskId} (h : Buildable.build ctx v d = .ok c) :
    Told ctx (.taskId c) := by
  simp only [Buildable.build, make, bind_ok] at h
  obtain ⟨_, -, h⟩ := h
  exact ofElement_told h

end TaskId

namespace TaskingInfo

theorem checked_told {c d : TaskingInfo} (h : checked c = .ok d)
    (hc : AllTold ctx (Part.taskingInfo c).children) : Told ctx (.taskingInfo d) :=
  .checked (f := .taskingInfo) h rfl hc

theorem ofElement_told {c : TaskingInfo} (h : ofElement ctx v e = .ok c) :
    Told ctx (.taskingInfo c) := by
  simp only [ofElement, bind_ok, within_ok] at h
  obtain ⟨rs, hr, as, ha, d, hd, t, ht, s, hs, h⟩ := h
  refine checked_told h (.append (.append (.append (.cons ?_ ?_) ?_) ?_) ?_)
  · exact SecurityAttributes.ofElement_told hs
  · exact readAll_told TaskingRole.ofElement_told hr
  · exact readAll_told TaskingRole.ofElement_told ha
  · exact readOption_told Caption.ofElement_told hd
  · exact readOption_told TaskId.ofElement_told ht

theorem build_told {d : Draft} {c : TaskingInfo} (h : Buildable.build ctx v d = .ok c) :
    Told ctx (.taskingInfo c) := by
  simp only [Buildable.build, bind_ok] at h
  obtain ⟨rs, hr, as, ha, t, ht, h⟩ := h
  cases t with
  | none => simp only [within_ok, error_ok] at h
  | some t =>
    simp only [make, bind_ok, within_ok] at h
    obtain ⟨o, ho, s, hs, _, -, h⟩ := h
    refine checked_told h (.append (.append (.append (.cons ?_ ?_) ?_) ?_) ?_)
    · exact SecurityAttributes.commitAs_told hs
    · exact commitAll_told TaskingRole.build_told hr
    · exact commitAll_told TaskingRole.build_told ha
    · exact commitAs_told Caption.build_told ho
    · exact commitAs_told TaskId.build_told ht

end TaskingInfo

namespace Management

theorem checked_told {c d : Management} (h : checked c = .ok d)
    (hc : AllTold ctx (Part.management c).children) : Told ctx (.management d) :=
  .checked (f := .management) h rfl hc

theorem ofElement_told {c : Management} (h : ofElement ctx v e = .ok c) :
    Told ctx (.management c) := by
  simp only [ofElement, bind_ok, within_ok, pure_ok] at h
  obtain ⟨_, ⟨ri, hri, rr, hrr, ts, ht, ps, hp, s, hs, rfl⟩, h⟩ := h
  refine checked_told h (.append (.append (.append (.cons ?_ ?_) ?_) ?_) ?_)
  · exact SecurityAttributes.ofElement_told hs
  · exact readOption_told RecordsInfo.ofElement_told hri
  · exact readOption_told RevisionRecall.ofElement_told hrr
  · exact readAll_told TaskingInfo.ofElement_told ht
  · exact readAll_told ProcessingInfo.ofElement_told hp

theorem build_told {d : Draft} {c : Management} (h : Buildable.build ctx v d = .ok c) :
    Told ctx (.management c) := by
  simp only [Buildable.build, make, bind_ok, within_ok] at h
  obtain ⟨ri, hri, rr, hrr, ts, ht, ps, hp, s, hs, _, -, h⟩ := h
  refine checked_told h (.append (.append (.append (.cons ?_ ?_) ?_) ?_) ?_)
  · exact SecurityAttributes.commitAs_told hs
  · exact commitAs_told RecordsInfo.build_told hri
  · exact commitAs_told RevisionRecall.build_told hrr
  · exact commitAll_told TaskingInfo.build_told ht
  · exact commitAll_told ProcessingInfo.build_told hp

end Management

end Management

section Notices

namespace NoticeText

theorem checked_told {c d : NoticeText} (h : checked ctx c = .ok d)
    (hs : Told ctx (.attributes c.security)) : Told ctx (.noticeText d) := by
  simp only [checked, bind_ok, check_ok, pure_ok] at h
  obtain ⟨ws, hr, rfl⟩ := h
  exact .of ⟨ws, hr, rfl⟩ (.cons hs .nil)

theorem ofElement_told {c : NoticeText} (h : ofElement ctx v e = .ok c) :
    Told ctx (.noticeText c) := by
  simp only [ofElement, bind_ok, within_ok] at h
  obtain ⟨s, hs, h⟩ := h
  exact checked_told h (SecurityAttributes.ofElement_told hs)

theorem build_told {d : Draft} {c : NoticeText} (h : Buildable.build ctx v d = .ok c) :
    Told ctx (.noticeText c) := by
  simp only [Buildable.build, make, bind_ok, within_ok] at h
  obtain ⟨s, hs, _, -, _, -, h⟩ := h
  exact checked_told h (SecurityAttributes.commitAs_told hs)

end NoticeText

namespace Notice

theorem checked_told {c d : Notice} (h : checked c = .ok d)
    (hc : AllTold ctx (Part.notice c).children) : Told ctx (.notice d) :=
  .checked (f := .notice) h rfl hc

theorem ofElement_told {c : Notice} (h : ofElement ctx v e = .ok c) : Told ctx (.notice c) := by
  simp only [ofElement, bind_ok, within_ok] at h
  obtain ⟨ts, ht, s, hs, n, hn, h⟩ := h
  refine checked_told h (.cons (SecurityAttributes.ofElement_told hs) (.cons ?_ ?_))
  · exact NoticeAttributes.ofElement_told hn
  · exact readAll_told NoticeText.ofElement_told ht

theorem build_told {d : Draft} {c : Notice} (h : Buildable.build ctx v d = .ok c) :
    Told ctx (.notice c) := by
  simp only [Buildable.build, make, bind_ok, within_ok] at h
  obtain ⟨n, hn, ts, ht, s, hs, _, -, _, -, h⟩ := h
  refine checked_told h (.cons (SecurityAttributes.commitAs_told hs) (.cons ?_ ?_))
  · exact NoticeAttributes.ofValues_told hn
  · exact commitAll_told NoticeText.build_told ht

end Notice

namespace NoticeList

theorem checked_told {c d : NoticeList} (h : checked c = .ok d)
    (hc : AllTold ctx (Part.noticeList c).children) : Told ctx (.noticeList d) :=
  .checked (f := .noticeList) h rfl hc

theorem ofElement_told {c : NoticeList} (h : ofElement ctx v e = .ok c) :
    Told ctx (.noticeList c) := by
  simp only [ofElement, bind_ok, within_ok] at h
  obtain ⟨ns, hn, s, hs, h⟩ := h
  exact checked_told h (.cons (SecurityAttributes.ofElement_told hs)
    (readAll_told Notice.ofElement_told hn))

theorem build_told {d : Draft} {c : NoticeList} (h : Buildable.build ctx v d = .ok c) :
    Told ctx (.noticeList c) := by
  simp only [Buildable.build, make, bind_ok, within_ok] at h
  obtain ⟨ns, hn, s, hs, _, -, h⟩ := h
  exact checked_told h (.cons (SecurityAttributes.commitAs_told hs)
    (commitAll_told Notice.build_told hn))

end NoticeList

end Notices

section NeedToKnow

namespace AccessText

theorem checked_told {c d : AccessText} (h : checked c = .ok d)
    (hs : Told ctx (.attributes c.security)) : Told ctx (.accessText d) :=
  .checked (f := .accessText) h rfl (.cons hs .nil)

theorem ofElement_told {c : AccessText} (h : ofElement ctx v e = .ok c) :
    Told ctx (.accessText c) := by
  unfold ofElement at h
  cases hk : Kind.ofName? e.localName with
  | none => simp only [hk, within_ok, error_ok] at h
  | some kind =>
    simp only [hk, bind_ok, within_ok] at h
    obtain ⟨_, -, s, hs, h⟩ := h
    exact checked_told h (SecurityAttributes.ofElement_told hs)

theorem build_told {d : Draft} {c : AccessText} (h : Buildable.build ctx v d = .ok c) :
    Told ctx (.accessText c) := by
  simp only [Buildable.build, make, bind_ok, within_ok] at h
  obtain ⟨s, hs, _, -, _, -, _, -, _, -, _, -, _, -, h⟩ := h
  exact checked_told h (SecurityAttributes.commitAs_told hs)

end AccessText

namespace AccessEntity

theorem checked_told {c d : AccessEntity} (h : checked c = .ok d)
    (hc : AllTold ctx (Part.accessEntity c).children) : Told ctx (.accessEntity d) :=
  .checked (f := .accessEntity) h rfl hc

theorem ofElement_told {c : AccessEntity} (h : ofElement ctx v e = .ok c) :
    Told ctx (.accessEntity c) := by
  unfold ofElement at h
  cases hk : Kind.ofName? e.localName with
  | none => simp only [hk, within_ok, error_ok] at h
  | some kind =>
    simp only [hk, bind_ok, within_ok] at h
    obtain ⟨_, -, y, hy, vs, hv, s, hs, h⟩ := h
    refine checked_told h (.append (.cons (SecurityAttributes.ofElement_told hs) ?_) ?_)
    · exact readOption_told AccessText.ofElement_told hy
    · exact readAll_told AccessText.ofElement_told hv

theorem build_told {d : Draft} {c : AccessEntity} (h : Buildable.build ctx v d = .ok c) :
    Told ctx (.accessEntity c) := by
  simp only [Buildable.build, make, bind_ok, within_ok] at h
  obtain ⟨y, hy, vs, hv, s, hs, _, -, _, -, h⟩ := h
  refine checked_told h (.append (.cons (SecurityAttributes.commitAs_told hs) ?_) ?_)
  · exact commitAs_told AccessText.build_told hy
  · exact commitAll_told AccessText.build_told hv

end AccessEntity

namespace ProfileList

theorem checked_told {c d : ProfileList} (h : checked c = .ok d)
    (hc : AllTold ctx (Part.profileList c).children) : Told ctx (.profileList d) :=
  .checked (f := .profileList) h rfl hc

theorem ofElement_told {c : ProfileList} (h : ofElement ctx v e = .ok c) :
    Told ctx (.profileList c) := by
  simp only [ofElement, bind_ok, within_ok] at h
  obtain ⟨_, -, ps, hp, s, hs, h⟩ := h
  exact checked_told h (.cons (SecurityAttributes.ofElement_told hs)
    (readAll_told AccessEntity.ofElement_told hp))

theorem build_told {d : Draft} {c : ProfileList} (h : Buildable.build ctx v d = .ok c) :
    Told ctx (.profileList c) := by
  simp only [Buildable.build, make, bind_ok, within_ok] at h
  obtain ⟨ps, hp, s, hs, _, -, _, -, h⟩ := h
  exact checked_told h (.cons (SecurityAttributes.commitAs_told hs)
    (commitAll_told AccessEntity.build_told hp))

end ProfileList

namespace Access

theorem checked_told {c d : Access} (h : checked c = .ok d)
    (hc : AllTold ctx (Part.access c).children) : Told ctx (.access d) :=
  .checked (f := .access) h rfl hc

theorem entriesOf_told {list : Option Element} {entries : List AccessEntity}
    (h : entriesOf ctx v list = .ok entries) : AllTold ctx (entries.map .accessEntity) := by
  cases list with
  | none =>
    cases h
    exact .nil
  | some list =>
    simp only [entriesOf, within_ok] at h
    exact readAll_told AccessEntity.ofElement_told h

theorem ofElement_told {c : Access} (h : ofElement ctx v e = .ok c) : Told ctx (.access c) := by
  simp only [ofElement, bind_ok, within_ok] at h
  obtain ⟨_, -, is, hi, gs, hg, p, hp, s, hs, h⟩ := h
  refine checked_told h (.append (.append (.cons ?_ ?_) ?_) ?_)
  · exact SecurityAttributes.ofElement_told hs
  · exact entriesOf_told hi
  · exact entriesOf_told hg
  · exact readOption_told ProfileList.ofElement_told hp

theorem build_told {d : Draft} {c : Access} (h : Buildable.build ctx v d = .ok c) :
    Told ctx (.access c) := by
  simp only [Buildable.build, make, bind_ok, within_ok] at h
  obtain ⟨is, hi, gs, hg, p, hp, s, hs, _, -, _, -, _, -, _, -, h⟩ := h
  refine checked_told h (.append (.append (.cons ?_ ?_) ?_) ?_)
  · exact SecurityAttributes.commitAs_told hs
  · exact commitAll_told AccessEntity.build_told hi
  · exact commitAll_told AccessEntity.build_told hg
  · exact commitAs_told ProfileList.build_told hp

end Access

end NeedToKnow

namespace Security

theorem checked_told {c d : Security} (h : checked c = .ok d)
    (hc : AllTold ctx (Part.security c).children) : Told ctx (.security d) :=
  .checked (f := .security) h rfl hc

theorem ofElement_told {c : Security} (h : ofElement ctx v e = .ok c) : Told ctx (.security c) := by
  simp only [ofElement, bind_ok, within_ok] at h
  obtain ⟨n, hn, a, ha, s, hs, h⟩ := h
  refine checked_told h (.append (.cons (SecurityAttributes.ofElement_told hs) ?_) ?_)
  · exact readOption_told NoticeList.ofElement_told hn
  · exact readOption_told Access.ofElement_told ha

theorem build_told {d : Draft} {c : Security} (h : Buildable.build ctx v d = .ok c) :
    Told ctx (.security c) := by
  simp only [Buildable.build, make, bind_ok, within_ok] at h
  obtain ⟨n, hn, a, ha, s, hs, _, -, h⟩ := h
  refine checked_told h (.append (.cons (SecurityAttributes.commitAs_told hs) ?_) ?_)
  · exact commitAs_told NoticeList.build_told hn
  · exact commitAs_told Access.build_told ha

end Security

end DiscoveryMetadata
