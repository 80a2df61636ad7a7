import DiscoveryMetadata.Proofs.Rules
import DiscoveryMetadata.Proofs.Versions.Basic
/-
  Components have one version with their parts: relations, management, the security of a resource,
  and the resource itself.
-/
namespace DiscoveryMetadata

open Xml (Element)
open DiscoveryMetadata.Part (Fits)

variable {ctx : Context} {v : Version} {e : Element}

section Relations

namespace Link

theorem checked_fits {c d : Link} (h : checked c = .ok d)
    (hs : c.security.version = c.version) : Fits (.link d) := by
  simp only [checked, bind_ok, check_ok, pure_ok, exists_unit] at h
  obtain ⟨-, rfl⟩ := h
  exact .marked rfl rfl rfl hs

theorem ofElement_fits {c : Link} (h : ofElement ctx v e = .ok c) : Fits (.link c) := by
  simp only [ofElement, bind_ok, within_ok] at h
  obtain ⟨_, -, s, hs, h⟩ := h
  exact checked_fits h (SecurityAttributes.version_ofElement hs)

theorem make_fits {link : LinkAttributes} {s : SecurityAttributes} {c : Link}
    (h : make ctx v link s = .ok c) : Fits (.link c) := by
  simp only [make, bind_ok, within_ok] at h
  obtain ⟨_, hs, h⟩ := h
  exact checked_fits h (SecurityAttributes.version_addTo hs)

end Link

namespace RelatedResource

theorem checked_fits {c d : RelatedResource} (h : checked c = .ok d)
    (hs : c.security.version = c.version) : Fits (.relatedResource d) := by
  simp only [checked, rules, checkLink, bind_ok, check_ok, pure_ok, exists_unit, forM_ok,
    Base.requireSameVersion_ok] at h
  obtain ⟨⟨-, -, -, -, -, -, -, -, hc⟩, rfl⟩ := h
  have hlinks : ∀ x ∈ c.links.map (·.toBase), x.version = c.version :=
    List.forall_mem_map.2 fun l hl => (hc l hl).1
  exact .of rfl rfl (.cons (Part.agree_attributes hs) (.map hlinks fun _ => rfl))

theorem ofElement_fits {c : RelatedResource} (h : ofElement ctx v e = .ok c) :
    Fits (.relatedResource c) := by
  simp only [ofElement, bind_ok, within_ok] at h
  obtain ⟨_, -, s, hs, h⟩ := h
  exact checked_fits h (SecurityAttributes.version_ofElement hs)

theorem make_fits {links : List Link} {relationship direction qualifier value : String}
    {s : SecurityAttributes} {c : RelatedResource}
    (h : make ctx v links relationship direction qualifier value s = .ok c) :
    Fits (.relatedResource c) := by
  simp only [make, bind_ok, within_ok] at h
  obtain ⟨_, hs, h⟩ := h
  exact checked_fits h (SecurityAttributes.version_addTo hs)

end RelatedResource

end Relations

section Management

namespace ManagedText

theorem checked_fits {c d : ManagedText} (h : checked c = .ok d)
    (hs : c.security.version = c.version) : Fits (.managedText d) := by
  simp only [checked, bind_ok, check_ok, pure_ok, exists_unit] at h
  obtain ⟨-, rfl⟩ := h
  exact .marked rfl rfl rfl hs

theorem ofElement_fits {c : ManagedText} (h : ofElement ctx v e = .ok c) :
    Fits (.managedText c) := by
  unfold ofElement at h
  cases hk : Kind.ofName? e.localName with
  | none => simp only [hk, within_ok, error_ok] at h
  | some kind =>
    simp only [hk, bind_ok, within_ok] at h
    obtain ⟨s, hs, h⟩ := h
    exact checked_fits h (SecurityAttributes.version_ofElement hs)

theorem make_fits {kind : Kind} {value : String} {s : SecurityAttributes} {c : ManagedText}
    (h : make ctx v kind value s = .ok c) : Fits (.managedText c) := by
  simp only [make, bind_ok, within_ok] at h
  obtain ⟨_, hs, h⟩ := h
  exact checked_fits h (SecurityAttributes.version_addTo hs)

end ManagedText

namespace ProcessingInfo

theorem checked_fits {c d : ProcessingInfo} (h : checked c = .ok d)
    (hs : c.security.version = c.version) : Fits (.processingInfo d) := by
  simp only [checked, bind_ok, check_ok, pure_ok, exists_unit] at h
  obtain ⟨-, rfl⟩ := h
  exact .marked rfl rfl rfl hs

theorem ofElement_fits {c : ProcessingInfo} (h : ofElement ctx v e = .ok c) :
    Fits (.processingInfo c) := by
  simp only [ofElement, bind_ok, within_ok] at h
  obtain ⟨s, hs, h⟩ := h
  exact checked_fits h (SecurityAttributes.version_ofElement hs)

theorem make_fits {value dateProcessed : String} {s : SecurityAttributes} {c : ProcessingInfo}
    (h : make ctx v value dateProcessed s = .ok c) : Fits (.processingInfo c) := by
  simp only [make, bind_ok, within_ok] at h
  obtain ⟨_, hs, h⟩ := h
  exact checked_fits h (SecurityAttributes.version_addTo hs)

end ProcessingInfo

namespace RecordKeeper

theorem checked_fits {c d : RecordKeeper} (h : checked c = .ok d) : Fits (.recordKeeper d) := by
  simp only [checked, bind_ok, check_ok, pure_ok, exists_unit] at h
  obtain ⟨hr, rfl⟩ := h
  have hc : ∀ x ∈ (c.organization.map (·.toBase)).toList, x.version = c.version := by
    unfold rules at hr
    cases ho : c.organization with
    | none => simp only [ho, bind_ok, throw_ok, false_and, exists_false, and_false] at hr
    | some organization =>
      simp only [ho, bind_ok, exists_unit, Base.requireSameVersion_ok] at hr
      obtain ⟨-, -, hv, -⟩ := hr
      simpa using hv
  exact .of rfl rfl (.option hc fun _ => rfl)

theorem ofElement_fits {c : RecordKeeper} (h : ofElement ctx v e = .ok c) :
    Fits (.recordKeeper c) := by
  simp only [ofElement, bind_ok, within_ok] at h
  obtain ⟨_, -, h⟩ := h
  exact checked_fits h

end RecordKeeper

namespace RecordsInfo

theorem checked_fits {c d : RecordsInfo} (h : checked c = .ok d) : Fits (.recordsInfo d) := by
  simp only [checked, rules, bind_ok, check_ok, pure_ok, exists_unit,
    Base.requireSameVersions_ok] at h
  obtain ⟨⟨-, -, -, hkeeper, -, hsoftware, -⟩, rfl⟩ := h
  exact .of rfl rfl (.append (.option hkeeper fun _ => rfl) (.option hsoftware fun _ => rfl))

theorem ofElement_fits {c : RecordsInfo} (h : ofElement ctx v e = .ok c) :
    Fits (.recordsInfo c) := by
  simp only [ofElement, bind_ok, within_ok] at h
  obtain ⟨_, -, h⟩ := h
  exact checked_fits h

end RecordsInfo

namespace RevisionRecall

theorem checked_fits {c d : RevisionRecall} (h : checked c = .ok d)
    (hs : c.security.version = c.version) : Fits (.revisionRecall d) := by
  simp only [checked, rules, checkLink, bind_ok, check_ok, pure_ok, exists_unit, forM_ok,
    Base.requireSameVersion_ok, Base.requireSameVersions_ok] at h
  obtain ⟨⟨-, -, hc, hdetails, -⟩, rfl⟩ := h
  have hlinks : ∀ x ∈ c.links.map (·.toBase), x.version = c.version :=
    List.forall_mem_map.2 fun l hl => (hc l hl).1
  exact .of rfl rfl (.append (.cons (Part.agree_attributes hs) (.map hlinks fun _ => rfl))
    (.map hdetails fun _ => rfl))

theorem ofElement_fits {c : RevisionRecall} (h : ofElement ctx v e = .ok c) :
    Fits (.revisionRecall c) := by
  simp only [ofElement, bind_ok, within_ok] at h
  obtain ⟨_, -, _, -, _, -, _, -, s, hs, h⟩ := h
  exact checked_fits h (SecurityAttributes.version_ofElement hs)

theorem make_fits {value revisionType network otherNetwork : String} {links : List Link}
    {details : List ManagedText} {revisionId : Int} {link : LinkAttributes} {s : SecurityAttributes}
    {c : RevisionRecall} (h : make ctx v value links details revisionId revisionType network
      otherNetwork link s = .ok c) : Fits (.revisionRecall c) := by
  simp only [make, bind_ok, within_ok] at h
  obtain ⟨_, hs, h⟩ := h
  exact checked_fits h (SecurityAttributes.version_addTo hs)

end RevisionRecall

namespace TaskingInfo

theorem checked_fits {c d : TaskingInfo} (h : checked c = .ok d)
    (hs : c.security.version = c.version) : Fits (.taskingInfo d) := by
  simp only [checked, rules, bind_ok, check_ok, pure_ok, exists_unit,
    Base.requireSameVersions_ok, parts, List.forall_mem_append] at h
  obtain ⟨⟨-, -, -, ⟨⟨⟨hrequesters, haddressees⟩, hdescription⟩, htask⟩, -⟩, rfl⟩ := h
  exact .of rfl rfl (.append (.append (.append (.cons (Part.agree_attributes hs)
    (.map hrequesters fun _ => rfl)) (.map haddressees fun _ => rfl))
    (.option hdescription fun _ => rfl)) (.option htask fun _ => rfl))

theorem ofElement_fits {c : TaskingInfo} (h : ofElement ctx v e = .ok c) :
    Fits (.taskingInfo c) := by
  simp only [ofElement, bind_ok, within_ok] at h
  obtain ⟨_, -, _, -, _, -, _, -, s, hs, h⟩ := h
  exact checked_fits h (SecurityAttributes.version_ofElement hs)

theorem make_fits {requesters addressees : List TaskingRole} {description : Option Caption}
    {taskId : TaskId} {s : SecurityAttributes} {c : TaskingInfo}
    (h : make ctx v requesters addressees description taskId s = .ok c) :
    Fits (.taskingInfo c) := by
  simp only [make, bind_ok, within_ok] at h
  obtain ⟨_, hs, h⟩ := h
  exact checked_fits h (SecurityAttributes.version_addTo hs)

end TaskingInfo

namespace Management

theorem checked_fits {c d : Management} (h : checked c = .ok d)
    (hs : c.security.version = c.version) : Fits (.management d) := by
  simp only [checked, rules, bind_ok, check_ok, pure_ok, exists_unit,
    Base.requireSameVersions_ok, parts, List.forall_mem_append] at h
  obtain ⟨⟨-, -, -, ⟨⟨⟨hrecords, hrevision⟩, htaskings⟩, hprocessings⟩, -⟩, rfl⟩ := h
  exact .of rfl rfl (.append (.append (.append (.cons (Part.agree_attributes hs)
    (.option hrecords fun _ => rfl)) (.option hrevision fun _ => rfl))
    (.map htaskings fun _ => rfl)) (.map hprocessings fun _ => rfl))

theorem ofElement_fits {c : Management} (h : ofElement ctx v e = .ok c) :
    Fits (.management c) := by
  simp only [ofElement, bind_ok, within_ok, pure_ok] at h
  obtain ⟨_, ⟨_, -, _, -, _, -, _, -, s, hs, rfl⟩, h⟩ := h
  exact checked_fits h (SecurityAttributes.version_ofElement hs)

theorem make_fits {recordsInfo : Option RecordsInfo} {revisionRecall : Option RevisionRecall}
    {taskingInfos : List TaskingInfo} {processingInfos : List ProcessingInfo}
    {s : SecurityAttributes} {c : Management}
    (h : make ctx v recordsInfo revisionRecall taskingInfos processingInfos s = .ok c) :
    Fits (.management c) := by
  simp only [make, bind_ok, within_ok] at h
  obtain ⟨_, hs, h⟩ := h
  exact checked_fits h (SecurityAttributes.version_addTo hs)

end Management

end Management

section Notices

namespace NoticeText

theorem checked_fits {c d : NoticeText} (h : checked ctx c = .ok d)
    (hs : c.security.version = c.version) : Fits (.noticeText d) := by
  simp only [checked, bind_ok, check_ok, pure_ok] at h
  obtain ⟨_, -, rfl⟩ := h
  exact .marked rfl rfl rfl hs

theorem ofElement_fits {c : NoticeText} (h : ofElement ctx v e = .ok c) : Fits (.noticeText c) := by
  simp only [ofElement, bind_ok, within_ok] at h
  obtain ⟨s, hs, h⟩ := h
  exact checked_fits h (SecurityAttributes.version_ofElement hs)

theorem make_fits {value : String} {pocTypes : List String} {s : SecurityAttributes}
    {c : NoticeText} (h : make ctx v value pocTypes s = .ok c) : Fits (.noticeText c) := by
  simp only [make, bind_ok, within_ok] at h
  obtain ⟨_, -, _, hs, h⟩ := h
  exact checked_fits h (SecurityAttributes.version_addTo hs)

end NoticeText

namespace Notice

theorem checked_fits {c d : Notice} (h : checked c = .ok d) (hs : c.security.version = c.version)
    (hn : ∀ w ∈ (Part.noticeAttributes c.notice).version?, w = c.version) :
    Fits (.notice d) := by
  simp only [checked, rules, bind_ok, check_ok, pure_ok, exists_unit,
    Base.requireSameVersions_ok] at h
  obtain ⟨⟨-, -, -, -, hc⟩, rfl⟩ := h
  exact .of rfl rfl (.cons (Part.agree_attributes hs) (.cons hn (.map hc fun _ => rfl)))

theorem ofElement_fits {c : Notice} (h : ofElement ctx v e = .ok c) : Fits (.notice c) := by
  simp only [ofElement, bind_ok, within_ok] at h
  obtain ⟨_, -, s, hs, n, hn, h⟩ := h
  exact checked_fits h (SecurityAttributes.version_ofElement hs)
    (NoticeAttributes.agree_ofElement hn)

theorem make_fits {texts : List NoticeText} {s : SecurityAttributes} {n : NoticeAttributes}
    {c : Notice} (h : make ctx v texts s n = .ok c) : Fits (.notice c) := by
  simp only [make, bind_ok, within_ok] at h
  obtain ⟨_, -, _, ⟨_, hs, hn⟩, h⟩ := h
  exact checked_fits h (SecurityAttributes.version_addTo hs) (NoticeAttributes.agree_addTo hn)

end Notice

namespace NoticeList

theorem checked_fits {c d : NoticeList} (h : checked c = .ok d)
    (hs : c.security.version = c.version) : Fits (.noticeList d) := by
  simp only [checked, rules, bind_ok, check_ok, pure_ok, exists_unit,
    Base.requireSameVersions_ok] at h
  obtain ⟨⟨-, -, -, -, hc⟩, rfl⟩ := h
  exact .of rfl rfl (.cons (Part.agree_attributes hs) (.map hc fun _ => rfl))

theorem ofElement_fits {c : NoticeList} (h : ofElement ctx v e = .ok c) : Fits (.noticeList c) := by
  simp only [ofElement, bind_ok, within_ok] at h
  obtain ⟨_, -, s, hs, h⟩ := h
  exact checked_fits h (SecurityAttributes.version_ofElement hs)

theorem make_fits {notices : List Notice} {s : SecurityAttributes} {c : NoticeList}
    (h : make ctx v notices s = .ok c) : Fits (.noticeList c) := by
  simp only [make, bind_ok, within_ok] at h
  obtain ⟨_, hs, h⟩ := h
  exact checked_fits h (SecurityAttributes.version_addTo hs)

end NoticeList

end Notices

section Accesses

namespace AccessText

theorem checked_fits {c d : AccessText} (h : checked c = .ok d)
    (hs : c.security.version = c.version) : Fits (.accessText d) := by
  simp only [checked, bind_ok, check_ok, pure_ok, exists_unit] at h
  obtain ⟨-, rfl⟩ := h
  exact .marked rfl rfl rfl hs

theorem ofElement_fits {c : AccessText} (h : ofElement ctx v e = .ok c) : Fits (.accessText c) := by
  unfold ofElement at h
  cases hk : Kind.ofName? e.localName with
  | none => simp only [hk, within_ok, error_ok] at h
  | some kind =>
    simp only [hk, bind_ok, within_ok] at h
    obtain ⟨_, -, s, hs, h⟩ := h
    exact checked_fits h (SecurityAttributes.version_ofElement hs)

theorem make_fits {kind : Kind} {value vocabulary id idReference qualifier : String}
    {s : SecurityAttributes} {c : AccessText}
    (h : make ctx v kind value vocabulary id idReference qualifier s = .ok c) :
    Fits (.accessText c) := by
  simp only [make, bind_ok, within_ok] at h
  obtain ⟨_, -, _, -, _, -, _, -, _, -, _, hs, h⟩ := h
  exact checked_fits h (SecurityAttributes.version_addTo hs)

end AccessText

namespace AccessEntity

theorem checked_fits {c d : AccessEntity} (h : checked c = .ok d)
    (hs : c.security.version = c.version) : Fits (.accessEntity d) := by
  simp only [checked, rules, bind_ok, check_ok, pure_ok, exists_unit, forM_ok, checkValue,
    Base.requireSameVersion_ok] at h
  obtain ⟨⟨-, hsystem, -, hc, -⟩, rfl⟩ := h
  have hname : ∀ x ∈ (c.systemName.map (·.toBase)).toList, x.version = c.version := by
    unfold checkSystemName at hsystem
    cases ho : c.systemName with
    | none => simp only [ho, error_ok] at hsystem
    | some system =>
      simp only [ho, bind_ok, exists_unit, Base.requireSameVersion_ok] at hsystem
      simpa using hsystem.2
  have hvalues : ∀ x ∈ c.values.map (·.toBase), x.version = c.version :=
    List.forall_mem_map.2 fun value hvalue => (hc value hvalue).2
  exact .of rfl rfl (.append (.cons (Part.agree_attributes hs) (.option hname fun _ => rfl))
    (.map hvalues fun _ => rfl))

theorem ofElement_fits {c : AccessEntity} (h : ofElement ctx v e = .ok c) :
    Fits (.accessEntity c) := by
  unfold ofElement at h
  cases hk : Kind.ofName? e.localName with
  | none => simp only [hk, within_ok, error_ok] at h
  | some kind =>
    simp only [hk, bind_ok, within_ok] at h
    obtain ⟨_, -, _, -, _, -, s, hs, h⟩ := h
    exact checked_fits h (SecurityAttributes.version_ofElement hs)

theorem make_fits {kind : Kind} {systemName : Option AccessText} {values : List AccessText}
    {s : SecurityAttributes} {c : AccessEntity} (h : make ctx v kind systemName values s = .ok c) :
    Fits (.accessEntity c) := by
  simp only [make, bind_ok, within_ok] at h
  obtain ⟨_, -, _, hs, h⟩ := h
  exact checked_fits h (SecurityAttributes.version_addTo hs)

end AccessEntity

namespace ProfileList

theorem checked_fits {c d : ProfileList} (h : checked c = .ok d)
    (hs : c.security.version = c.version) : Fits (.profileList d) := by
  simp only [checked, rules, bind_ok, check_ok, pure_ok, exists_unit, forM_ok, checkProfile,
    Base.requireSameVersion_ok] at h
  obtain ⟨⟨-, -, hc, -⟩, rfl⟩ := h
  have hprofiles : ∀ x ∈ c.profiles.map (·.toBase), x.version = c.version :=
    List.forall_mem_map.2 fun profile hprofile => (hc profile hprofile).2
  exact .of rfl rfl (.cons (Part.agree_attributes hs) (.map hprofiles fun _ => rfl))

theorem ofElement_fits {c : ProfileList} (h : ofElement ctx v e = .ok c) :
    Fits (.profileList c) := by
  simp only [ofElement, bind_ok, within_ok] at h
  obtain ⟨_, -, _, -, s, hs, h⟩ := h
  exact checked_fits h (SecurityAttributes.version_ofElement hs)

theorem make_fits {profiles : List AccessEntity} {s : SecurityAttributes} {c : ProfileList}
    (h : make ctx v profiles s = .ok c) : Fits (.profileList c) := by
  simp only [make, bind_ok, within_ok] at h
  obtain ⟨_, -, _, hs, h⟩ := h
  exact checked_fits h (SecurityAttributes.version_addTo hs)

end ProfileList

namespace Access

theorem checked_fits {c d : Access} (h : checked c = .ok d)
    (hs : c.security.version = c.version) : Fits (.access d) := by
  simp only [checked, rules, bind_ok, check_ok, pure_ok, exists_unit, forM_ok, checkEntry,
    Base.requireSameVersion_ok, Base.requireSameVersions_ok] at h
  obtain ⟨⟨-, hi, hg, hprofiles, -⟩, rfl⟩ := h
  have hindividuals : ∀ x ∈ c.individuals.map (·.toBase), x.version = c.version :=
    List.forall_mem_map.2 fun entity hentity => (hi entity hentity).2
  have hgroups : ∀ x ∈ c.groups.map (·.toBase), x.version = c.version :=
    List.forall_mem_map.2 fun entity hentity => (hg entity hentity).2
  exact .of rfl rfl (.append (.append (.cons (Part.agree_attributes hs)
    (.map hindividuals fun _ => rfl)) (.map hgroups fun _ => rfl)) (.option hprofiles fun _ => rfl))

theorem ofElement_fits {c : Access} (h : ofElement ctx v e = .ok c) : Fits (.access c) := by
  simp only [ofElement, bind_ok, within_ok] at h
  obtain ⟨_, -, _, -, _, -, _, -, s, hs, h⟩ := h
  exact checked_fits h (SecurityAttributes.version_ofElement hs)

theorem make_fits {individuals groups : List AccessEntity} {profileList : Option ProfileList}
    {s : SecurityAttributes} {c : Access}
    (h : make ctx v individuals groups profileList s = .ok c) : Fits (.access c) := by
  simp only [make, bind_ok, within_ok] at h
  obtain ⟨_, -, _, -, _, -, _, hs, h⟩ := h
  exact checked_fits h (SecurityAttributes.version_addTo hs)

end Access

end Accesses

namespace Security

theorem checked_fits {c d : Security} (h : checked c = .ok d)
    (hs : c.security.version = c.version) : Fits (.security d) := by
  simp only [checked, rules, bind_ok, check_ok, pure_ok, exists_unit,
    Base.requireSameVersions_ok, parts, List.forall_mem_append] at h
  obtain ⟨⟨-, -, -, -, ⟨hnotices, haccess⟩, -⟩, rfl⟩ := h
  exact .of rfl rfl (.append (.cons (Part.agree_attributes hs) (.option hnotices fun _ => rfl))
    (.option haccess fun _ => rfl))

theorem ofElement_fits {c : Security} (h : ofElement ctx v e = .ok c) : Fits (.security c) := by
  simp only [ofElement, bind_ok, within_ok] at h
  obtain ⟨_, -, _, -, s, hs, h⟩ := h
  exact checked_fits h (SecurityAttributes.version_ofElement hs)

theorem make_fits {noticeList : Option NoticeList} {access : Option Access} {s : SecurityAttributes}
    {c : Security} (h : make ctx v noticeList access s = .ok c) : Fits (.security c) := by
  simp only [make, bind_ok, within_ok] at h
  obtain ⟨_, hs, h⟩ := h
  exact checked_fits h (SecurityAttributes.version_addTo hs)

end Security

theorem Part.version_ofTopLevel {t : TopLevel} {w : Version} (h : w ∈ (ofTopLevel t).version?) :
    w = t.base.version := by
  cases t <;> cases h
  all_goals rfl

namespace Resource

theorem checked_fits {c d : Resource} (h : checked c = .ok d)
    (hs : c.security.version = c.version)
    (hn : ∀ w ∈ (Part.noticeAttributes c.notice).version?, w = c.version)
    (hx : c.extensible.isEmpty = false → c.extensible.version = c.version) :
    Fits (.resource d) := by
  simp only [checked, bind_ok, check_ok, pure_ok, exists_unit] at h
  obtain ⟨hr, rfl⟩ := h
  have hc := version_of_rules hr
  have hparts : Part.Agree c.version (c.components.map Part.ofTopLevel) :=
    List.forall_mem_map.2 fun t ht w hw => by
      have hddms : ∀ x, t ≠ .extensible x := by
        rintro x rfl
        cases hw
      exact (Part.version_ofTopLevel hw).trans (hc t (mem_ddmsComponents ht hddms))
  exact .of_extensible rfl rfl hx
    (.append (.cons (fun _ hw => by cases hw) (.cons (Part.agree_attributes hs) (.cons hn .nil)))
      hparts)

theorem ofElement_fits {r : Resource} (h : ofElement ctx v e = .ok r) : Fits (.resource r) := by
  simp only [ofElement, bind_ok, within_ok] at h
  obtain ⟨_, -, _, -, s, hs, n, hn, h⟩ := h
  exact checked_fits h (SecurityAttributes.version_ofElement hs)
    (NoticeAttributes.agree_ofElement hn) fun _ => rfl

theorem make_fits {ts : List TopLevel} {m : Markings} {s : SecurityAttributes}
    {n : NoticeAttributes} {x : ExtensibleAttributes} {r : Resource}
    (h : make ctx v ts m s n x = .ok r) : Fits (.resource r) := by
  simp only [make, bind_ok, within_ok] at h
  obtain ⟨_, ⟨_, -, _, hs, _, hn, hx⟩, h⟩ := h
  exact checked_fits h (SecurityAttributes.version_addTo hs) (NoticeAttributes.agree_addTo hn)
    (ExtensibleAttributes.version_addTo hx)

end Resource

end DiscoveryMetadata
