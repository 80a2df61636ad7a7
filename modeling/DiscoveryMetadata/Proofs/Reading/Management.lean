import DiscoveryMetadata.Management
import DiscoveryMetadata.Proofs.Reading.Roles
import DiscoveryMetadata.Proofs.Reading.Subjects
/-
  The management of a resource from alike elements.
-/
namespace DiscoveryMetadata

open Xml (Element)

variable {p : Option String → Option String} {e e' : Element} {ctx : Context} {v : Version}

namespace ManagedText

instance : Restyled ManagedText where
  restyle p c := { c with toBase := c.toBase.restyle p }
  lines_restyle p c stem index := by simp [Component.lines]

theorem beq_restyle (a b : ManagedText) : (restyle p a == restyle p b) = (a == b) := by
  cases a
  cases b
  exact congrArg (· && _) (Base.beq_restyle p _ _)

theorem rules_steady : Steady (restyle p) rules := by
  intro c r
  simp only [rules, restyle, Base.element_restyle, requireDdms_restyle]
  exact Iff.rfl

theorem ofElement_alike (h : e.restyle p = e'.restyle p) :
    Alike (restyle p) (ofElement ctx v e) (ofElement ctx v e') := by
  rw [ofElement, ofElement, Element.localName_congr h]
  cases Kind.ofName? e'.localName with
  | none => exact (Alike.error _ _).within _ _
  | some kind =>
    refine (SecurityAttributes.ofElement_alike h _ _).bind ?_
    rintro a _ rfl
    refine Alike.checked (k := fun (c : ManagedText) _ => { c with warnings := c.findings })
      rules_steady (fun _ _ => rfl) ?_ _ _
    simp only [restyle, Base.restyle, h, Element.content_congr h, id]

end ManagedText

namespace ProcessingInfo

instance : Restyled ProcessingInfo where
  restyle p c := { c with toBase := c.toBase.restyle p }
  lines_restyle p c stem index := by simp [Component.lines]

theorem beq_restyle (a b : ProcessingInfo) : (restyle p a == restyle p b) = (a == b) := by
  cases a
  cases b
  exact congrArg (· && _) (Base.beq_restyle p _ _)

theorem rules_steady : Steady (restyle p) rules := by
  intro c r
  simp [rules, restyle]

theorem ofElement_alike (h : e.restyle p = e'.restyle p) :
    Alike (restyle p) (ofElement ctx v e) (ofElement ctx v e') := by
  refine (SecurityAttributes.ofElement_alike h _ _).bind ?_
  rintro a _ rfl
  refine Alike.checked (k := fun (c : ProcessingInfo) _ => { c with warnings := c.findings })
    rules_steady (fun _ _ => rfl) ?_ _ _
  simp only [restyle, Base.restyle, h, Element.own_congr h, Element.content_congr h, id]

end ProcessingInfo

namespace RecordKeeper

instance : Restyled RecordKeeper where
  restyle p c := { c with
    toBase := c.toBase.restyle p, organization := c.organization.map (restyle p) }
  lines_restyle p c stem index := by simp [Component.lines]

theorem beq_restyle (a b : RecordKeeper) : (restyle p a == restyle p b) = (a == b) := by
  obtain ⟨b1, i1, o1⟩ := a
  obtain ⟨b2, i2, o2⟩ := b
  change (_ == _ && (_ == _ && _ == _)) = (_ == _ && (_ == _ && _ == _))
  rw [Base.beq_restyle, beq_optionMap Organization.beq_restyle]

theorem rules_steady : Steady (restyle p) rules := by
  intro c r
  cases hc : c.organization with
  | none => simp [rules, restyle, hc]
  | some o => simp [rules, restyle, hc]

theorem ofElement_alike (h : e.restyle p = e'.restyle p) :
    Alike (restyle p) (ofElement ctx v e) (ofElement ctx v e') := by
  refine ((Alike.readOption (Element.child?_congr h _ _) fun _ _ =>
    Organization.ofElement_alike).within _ _).bind fun o1 o2 ho => ?_
  refine Alike.checked (k := fun (c : RecordKeeper) _ => { c with warnings := c.findings })
    rules_steady (fun _ _ => rfl) ?_ _ _
  change RecordKeeper.mk ⟨_, _, _⟩ _ _ = RecordKeeper.mk ⟨_, _, _⟩ _ _
  simp only [h, ho, Element.ownText_congr h]

end RecordKeeper

namespace RecordsInfo

instance : Restyled RecordsInfo where
  restyle p c := { c with
    toBase := c.toBase.restyle p
    recordKeeper := c.recordKeeper.map (restyle p)
    applicationSoftware := c.applicationSoftware.map (restyle p) }
  lines_restyle p c stem index := by simp [Component.lines]

theorem beq_restyle (a b : RecordsInfo) : (restyle p a == restyle p b) = (a == b) := by
  obtain ⟨b1, k1, s1, v1⟩ := a
  obtain ⟨b2, k2, s2, v2⟩ := b
  change (_ == _ && (_ == _ && (_ == _ && _ == _))) = (_ == _ && (_ == _ && (_ == _ && _ == _)))
  rw [Base.beq_restyle, beq_optionMap RecordKeeper.beq_restyle,
    beq_optionMap ManagedText.beq_restyle]

theorem rules_steady : Steady (restyle p) rules := by
  intro c r
  cases hk : c.recordKeeper <;> cases hs : c.applicationSoftware <;>
    simp [rules, restyle, hk, hs]

theorem ofElement_alike (h : e.restyle p = e'.restyle p) :
    Alike (restyle p) (ofElement ctx v e) (ofElement ctx v e') := by
  rw [ofElement, ofElement, Element.attribute?_congr h]
  refine Alike.bind (f := restyle p) (Alike.within ?_ _ _) fun a b hab =>
    Alike.checked (k := fun (c : RecordsInfo) _ => { c with warnings := c.findings })
      rules_steady (fun _ _ => rfl) hab _ _
  refine (Alike.readOption (Element.child?_congr h _ _) fun _ _ =>
    RecordKeeper.ofElement_alike).bind fun k1 k2 hk => ?_
  refine (Alike.readOption (Element.child?_congr h _ _) fun _ _ =>
    ManagedText.ofElement_alike).bind fun s1 s2 hs => ?_
  refine (Alike.of_eq (f := id) rfl).bind ?_
  rintro n _ rfl
  refine .ok ?_
  change RecordsInfo.mk ⟨_, _, _⟩ _ _ _ = RecordsInfo.mk ⟨_, _, _⟩ _ _ _
  simp only [h, hk, hs, id]

end RecordsInfo

namespace RevisionRecall

instance : Restyled RevisionRecall where
  restyle p c := { c with
    toBase := c.toBase.restyle p
    links := c.links.map (restyle p)
    details := c.details.map (restyle p) }
  lines_restyle p c stem index := by
    simp [Component.lines, hasNested]

theorem beq_restyle (a b : RevisionRecall) : (restyle p a == restyle p b) = (a == b) := by
  obtain ⟨b1, v1, i1, t1, n1, o1, l1, d1, x1, s1⟩ := a
  obtain ⟨b2, v2, i2, t2, n2, o2, l2, d2, x2, s2⟩ := b
  change (_ == _ && (_ == _ && (_ == _ && (_ == _ && (_ == _ && (_ == _ && (_ == _ &&
      (_ == _ && _)))))))) =
    (_ == _ && (_ == _ && (_ == _ && (_ == _ && (_ == _ && (_ == _ && (_ == _ &&
      (_ == _ && _))))))))
  rw [Base.beq_restyle, beq_map Link.beq_restyle, beq_map ManagedText.beq_restyle]

theorem checkLink_restyle (b : Base) (l : Link) {u : Unit} :
    checkLink (b.restyle p) (restyle p l) = .ok u ↔ checkLink b l = .ok u := by
  simp [checkLink, restyle]

theorem rules_steady : Steady (restyle p) rules := by
  intro c r
  have hb : (restyle p c).toBase = c.toBase.restyle p := rfl
  have hl : (restyle p c).links = c.links.map (restyle p) := rfl
  have hd : (restyle p c).details.map (·.toBase) = (c.details.map (·.toBase)).map (·.restyle p) := by
    simp [restyle, Function.comp_def]
  have hn : (restyle p c).hasNested = c.hasNested := by simp [hasNested, restyle]
  simp only [rules, hb, hl, hd, hn, bind_ok, forM_ok, List.mem_map, forall_exists_index, and_imp,
    forall_apply_eq_imp_iff₂, checkLink_restyle, Base.element_restyle, requireDdms_restyle,
    Base.version_restyle, Base.requireSameVersions_restyle]
  exact Iff.rfl

theorem ofElement_alike (h : e.restyle p = e'.restyle p) :
    Alike (restyle p) (ofElement ctx v e) (ofElement ctx v e') := by
  rw [ofElement, ofElement, Element.attribute?_congr h]
  refine ((Alike.readAll (Element.childrenNamed_congr h _ _) fun _ _ =>
    Link.ofElement_alike).within _ _).bind fun l1 l2 hl => ?_
  refine ((Alike.readAll (Element.childrenNamed_congr h _ _) fun _ _ =>
    ManagedText.ofElement_alike).within _ _).bind fun d1 d2 hd => ?_
  refine ((Alike.of_eq (f := id) rfl).within _ _).bind ?_
  rintro n _ rfl
  refine (LinkAttributes.ofElement_alike h _ _).bind ?_
  rintro x _ rfl
  refine (SecurityAttributes.ofElement_alike h _ _).bind ?_
  rintro a _ rfl
  refine Alike.checked (k := fun (c : RevisionRecall) _ => { c with warnings := c.findings })
    rules_steady (fun _ _ => rfl) ?_ _ _
  change RevisionRecall.mk ⟨_, _, _⟩ _ _ _ _ _ _ _ _ _ = RevisionRecall.mk ⟨_, _, _⟩ _ _ _ _ _ _ _ _ _
  simp only [h, hl, hd, Element.own_congr h, Element.content_congr h, id]

end RevisionRecall

namespace TaskId

instance : Restyled TaskId where
  restyle p c := { c with toBase := c.toBase.restyle p }
  lines_restyle p c stem index := by simp [Component.lines]

theorem beq_restyle (a b : TaskId) : (restyle p a == restyle p b) = (a == b) := by
  cases a
  cases b
  exact congrArg (· && _) (Base.beq_restyle p _ _)

theorem rules_steady : Steady (restyle p) rules := by
  intro c r
  simp [rules, restyle]

theorem ofElement_alike (h : e.restyle p = e'.restyle p) :
    Alike (restyle p) (ofElement ctx v e) (ofElement ctx v e') := by
  refine (LinkAttributes.ofElement_alike h _ _).bind ?_
  rintro x _ rfl
  refine Alike.checked (k := fun (c : TaskId) _ => c) rules_steady (fun _ _ => rfl) ?_ _ _
  simp only [restyle, Base.restyle, h, Element.own_congr h, Element.content_congr h,
    Element.attribute?_congr h, id]

end TaskId

namespace TaskingInfo

instance : Restyled TaskingInfo where
  restyle p c := { c with
    toBase := c.toBase.restyle p
    requesters := c.requesters.map (restyle p)
    addressees := c.addressees.map (restyle p)
    description := c.description.map (restyle p)
    taskId := c.taskId.map (restyle p) }
  lines_restyle p c stem index := by simp [Component.lines]

theorem beq_restyle (a b : TaskingInfo) : (restyle p a == restyle p b) = (a == b) := by
  obtain ⟨b1, r1, a1, d1, t1, s1⟩ := a
  obtain ⟨b2, r2, a2, d2, t2, s2⟩ := b
  change (_ == _ && (_ == _ && (_ == _ && (_ == _ && (_ == _ && _ == _))))) =
    (_ == _ && (_ == _ && (_ == _ && (_ == _ && (_ == _ && _ == _)))))
  rw [Base.beq_restyle, beq_map TaskingRole.beq_restyle, beq_map TaskingRole.beq_restyle,
    beq_optionMap Caption.beq_restyle, beq_optionMap TaskId.beq_restyle]

theorem parts_restyle (c : TaskingInfo) : (restyle p c).parts = c.parts.map (·.restyle p) := by
  simp [parts, restyle, Function.comp_def, ← Option.toList_map]

theorem rules_steady : Steady (restyle p) rules := by
  intro c r
  simp only [rules, parts_restyle]
  simp [restyle]

theorem ofElement_alike (h : e.restyle p = e'.restyle p) :
    Alike (restyle p) (ofElement ctx v e) (ofElement ctx v e') := by
  refine ((Alike.readAll (Element.childrenNamed_congr h _ _) fun _ _ =>
    TaskingRole.ofElement_alike).within _ _).bind fun r1 r2 hr => ?_
  refine ((Alike.readAll (Element.childrenNamed_congr h _ _) fun _ _ =>
    TaskingRole.ofElement_alike).within _ _).bind fun a1 a2 ha => ?_
  refine ((Alike.readOption (Element.child?_congr h _ _) fun _ _ =>
    Caption.ofElement_alike).within _ _).bind fun d1 d2 hd => ?_
  refine ((Alike.readOption (Element.child?_congr h _ _) fun _ _ =>
    TaskId.ofElement_alike).within _ _).bind fun t1 t2 ht => ?_
  refine (SecurityAttributes.ofElement_alike h _ _).bind ?_
  rintro a _ rfl
  refine Alike.checked (k := fun (c : TaskingInfo) _ => { c with warnings := c.findings })
    rules_steady (fun _ _ => rfl) ?_ _ _
  change TaskingInfo.mk ⟨_, _, _⟩ _ _ _ _ _ = TaskingInfo.mk ⟨_, _, _⟩ _ _ _ _ _
  simp only [h, hr, ha, hd, ht, id]

end TaskingInfo

namespace Management

instance : Restyled Management where
  restyle p c := { c with
    toBase := c.toBase.restyle p
    recordsInfo := c.recordsInfo.map (restyle p)
    revisionRecall := c.revisionRecall.map (restyle p)
    taskingInfos := c.taskingInfos.map (restyle p)
    processingInfos := c.processingInfos.map (restyle p) }
  lines_restyle p c stem index := by simp [Component.lines]

theorem beq_restyle (a b : Management) : (restyle p a == restyle p b) = (a == b) := by
  obtain ⟨b1, r1, a1, d1, t1, s1⟩ := a
  obtain ⟨b2, r2, a2, d2, t2, s2⟩ := b
  change (_ == _ && (_ == _ && (_ == _ && (_ == _ && (_ == _ && _ == _))))) =
    (_ == _ && (_ == _ && (_ == _ && (_ == _ && (_ == _ && _ == _)))))
  rw [Base.beq_restyle, beq_optionMap RecordsInfo.beq_restyle,
    beq_optionMap RevisionRecall.beq_restyle, beq_map TaskingInfo.beq_restyle,
    beq_map ProcessingInfo.beq_restyle]

theorem parts_restyle (c : Management) : (restyle p c).parts = c.parts.map (·.restyle p) := by
  simp [parts, restyle, Function.comp_def, ← Option.toList_map]

theorem rules_steady : Steady (restyle p) rules := by
  intro c r
  simp only [rules, parts_restyle]
  simp [restyle]

theorem ofElement_alike (h : e.restyle p = e'.restyle p) :
    Alike (restyle p) (ofElement ctx v e) (ofElement ctx v e') := by
  refine Alike.bind (f := restyle p) (Alike.within ?_ _ _) fun a b hab =>
    Alike.checked (k := fun (c : Management) _ => { c with warnings := c.findings })
      rules_steady (fun _ _ => rfl) hab _ _
  refine (Alike.readOption (Element.child?_congr h _ _) fun _ _ =>
    RecordsInfo.ofElement_alike).bind fun r1 r2 hr => ?_
  refine (Alike.readOption (Element.child?_congr h _ _) fun _ _ =>
    RevisionRecall.ofElement_alike).bind fun c1 c2 hc => ?_
  refine (Alike.readAll (Element.childrenNamed_congr h _ _) fun _ _ =>
    TaskingInfo.ofElement_alike).bind fun t1 t2 ht => ?_
  refine (Alike.readAll (Element.childrenNamed_congr h _ _) fun _ _ =>
    ProcessingInfo.ofElement_alike).bind fun q1 q2 hq => ?_
  refine (Alike.of_eq (f := id) (SecurityAttributes.ofElement_congr h)).bind ?_
  rintro a _ rfl
  refine .ok ?_
  change Management.mk ⟨_, _, _⟩ _ _ _ _ _ = Management.mk ⟨_, _, _⟩ _ _ _ _ _
  simp only [h, hr, hc, ht, hq, id]

end Management

end DiscoveryMetadata
