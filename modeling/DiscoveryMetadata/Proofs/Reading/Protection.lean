import DiscoveryMetadata.Proofs.Reading.Alike
import DiscoveryMetadata.Protection.Security
/-
  The security of a resource from alike elements.
-/
namespace DiscoveryMetadata

open Xml (Element)

variable {p : Option String → Option String} {e e' : Element} {ctx : Context} {v : Version}

namespace AccessText

instance : Restyled AccessText where
  restyle p c := { c with toBase := c.toBase.restyle p }
  lines_restyle p c stem index := by simp [Component.lines]

theorem beq_restyle (a b : AccessText) : (restyle p a == restyle p b) = (a == b) := by
  cases a
  cases b
  exact congrArg (· && _) (Base.beq_restyle p _ _)

theorem rules_steady : Steady (restyle p) rules := by
  intro c r
  simp only [rules, restyle, Base.element_restyle, requireIn_restyle]
  exact Iff.rfl

theorem ofElement_alike (h : e.restyle p = e'.restyle p) :
    Alike (restyle p) (ofElement ctx v e) (ofElement ctx v e') := by
  rw [ofElement, ofElement, Element.localName_congr h]
  cases Kind.ofName? e'.localName with
  | none => exact (Alike.error _ _).within _ _
  | some kind =>
    refine ((Alike.of_eq (f := fun u => u) rfl).within _ _).bind ?_
    rintro u _ rfl
    refine (SecurityAttributes.ofElement_alike h _ _).bind ?_
    rintro a _ rfl
    refine Alike.checked (k := fun (c : AccessText) _ => { c with warnings := c.findings })
      rules_steady (fun _ _ => rfl) ?_ _ _
    simp only [restyle, Base.restyle, h, Element.content_congr h, Element.attributeText_congr h]
    rfl

end AccessText

namespace AccessEntity

instance : Restyled AccessEntity where
  restyle p c := { c with
    toBase := c.toBase.restyle p
    systemName := c.systemName.map (restyle p)
    values := c.values.map (restyle p) }
  lines_restyle p c stem index := by simp [Component.lines]

theorem beq_restyle (a b : AccessEntity) : (restyle p a == restyle p b) = (a == b) := by
  obtain ⟨b1, k1, n1, v1, s1⟩ := a
  obtain ⟨b2, k2, n2, v2, s2⟩ := b
  change (_ == _ && (_ == _ && (_ == _ && (_ == _ && _ == _)))) =
    (_ == _ && (_ == _ && (_ == _ && (_ == _ && _ == _))))
  rw [Base.beq_restyle, beq_optionMap AccessText.beq_restyle, beq_map AccessText.beq_restyle]

theorem checkSystemName_restyle (c : AccessEntity) {u : Unit} :
    (restyle p c).checkSystemName = .ok u ↔ c.checkSystemName = .ok u := by
  obtain ⟨b, k, _ | n, vs, s⟩ := c
  · rfl
  · simp [checkSystemName, restyle]

theorem checkValue_restyle (c : AccessEntity) (x : AccessText) {u : Unit} :
    (restyle p c).checkValue (restyle p x) = .ok u ↔ c.checkValue x = .ok u := by
  simp [checkValue, restyle]

theorem rules_steady : Steady (restyle p) rules := by
  intro c r
  have hb : (restyle p c).toBase = c.toBase.restyle p := rfl
  have hv : (restyle p c).values = c.values.map (restyle p) := rfl
  simp only [rules, hb, hv, bind_ok, forM_ok, List.mem_map, forall_exists_index, and_imp,
    forall_apply_eq_imp_iff₂, checkSystemName_restyle, checkValue_restyle, Base.element_restyle,
    requireIn_restyle, Base.version_restyle, List.isEmpty_map]
  exact Iff.rfl

theorem ofElement_alike (h : e.restyle p = e'.restyle p) :
    Alike (restyle p) (ofElement ctx v e) (ofElement ctx v e') := by
  rw [ofElement, ofElement, Element.localName_congr h]
  cases Kind.ofName? e'.localName with
  | none => exact (Alike.error _ _).within _ _
  | some kind =>
    refine ((Alike.of_eq (f := id) rfl).within _ _).bind ?_
    rintro u _ rfl
    refine ((Alike.readOption (Element.child?_congr h _ _) fun _ _ =>
      AccessText.ofElement_alike).within _ _).bind fun n1 n2 hn => ?_
    refine ((Alike.readAll (Element.childrenNamed_congr h _ _) fun _ _ =>
      AccessText.ofElement_alike).within _ _).bind fun v1 v2 hv => ?_
    refine (SecurityAttributes.ofElement_alike h _ _).bind ?_
    rintro a _ rfl
    refine Alike.checked (k := fun (c : AccessEntity) _ => { c with warnings := c.findings })
      rules_steady (fun _ _ => rfl) ?_ _ _
    change AccessEntity.mk ⟨_, _, _⟩ _ _ _ _ = AccessEntity.mk ⟨_, _, _⟩ _ _ _ _
    simp only [h, hn, hv, id]

end AccessEntity

namespace ProfileList

instance : Restyled ProfileList where
  restyle p c := { c with toBase := c.toBase.restyle p, profiles := c.profiles.map (restyle p) }
  lines_restyle p c stem index := by simp [Component.lines]

theorem beq_restyle (a b : ProfileList) : (restyle p a == restyle p b) = (a == b) := by
  obtain ⟨b1, p1, s1⟩ := a
  obtain ⟨b2, p2, s2⟩ := b
  change (_ == _ && (_ == _ && _ == _)) = (_ == _ && (_ == _ && _ == _))
  rw [Base.beq_restyle, beq_map AccessEntity.beq_restyle]

theorem checkProfile_restyle (b : Base) (x : AccessEntity) {u : Unit} :
    checkProfile (b.restyle p) (restyle p x) = .ok u ↔ checkProfile b x = .ok u := by
  simp [checkProfile, restyle]

theorem rules_steady : Steady (restyle p) rules := by
  intro c r
  have hb : (restyle p c).toBase = c.toBase.restyle p := rfl
  have hp : (restyle p c).profiles = c.profiles.map (restyle p) := rfl
  simp only [rules, hb, hp, bind_ok, forM_ok, List.mem_map, forall_exists_index, and_imp,
    forall_apply_eq_imp_iff₂, checkProfile_restyle, Base.element_restyle, requireIn_restyle,
    Base.version_restyle, List.isEmpty_map]
  exact Iff.rfl

theorem ofElement_alike (h : e.restyle p = e'.restyle p) :
    Alike (restyle p) (ofElement ctx v e) (ofElement ctx v e') := by
  refine ((Alike.of_eq (f := id) rfl).within _ _).bind ?_
  rintro u _ rfl
  refine ((Alike.readAll (Element.childrenNamed_congr h _ _) fun _ _ =>
    AccessEntity.ofElement_alike).within _ _).bind fun p1 p2 hp => ?_
  refine (SecurityAttributes.ofElement_alike h _ _).bind ?_
  rintro a _ rfl
  refine Alike.checked (k := fun (c : ProfileList) _ => { c with warnings := c.findings })
    rules_steady (fun _ _ => rfl) ?_ _ _
  change ProfileList.mk ⟨_, _, _⟩ _ _ = ProfileList.mk ⟨_, _, _⟩ _ _
  simp only [h, hp, id]

end ProfileList

namespace Access

instance : Restyled Access where
  restyle p c := { c with
    toBase := c.toBase.restyle p
    individuals := c.individuals.map (restyle p)
    groups := c.groups.map (restyle p)
    profileList := c.profileList.map (restyle p) }
  lines_restyle p c stem index := by simp [Component.lines]

theorem beq_restyle (a b : Access) : (restyle p a == restyle p b) = (a == b) := by
  obtain ⟨b1, i1, g1, p1, s1⟩ := a
  obtain ⟨b2, i2, g2, p2, s2⟩ := b
  change (_ == _ && (_ == _ && (_ == _ && (_ == _ && _ == _)))) =
    (_ == _ && (_ == _ && (_ == _ && (_ == _ && _ == _))))
  rw [Base.beq_restyle, beq_map AccessEntity.beq_restyle, beq_map AccessEntity.beq_restyle,
    beq_optionMap ProfileList.beq_restyle]

theorem checkEntry_restyle (b : Base) (kind : AccessEntity.Kind) (x : AccessEntity) {u : Unit} :
    checkEntry (b.restyle p) kind (restyle p x) = .ok u ↔ checkEntry b kind x = .ok u := by
  simp [checkEntry, restyle]

theorem rules_steady : Steady (restyle p) rules := by
  intro c r
  have hb : (restyle p c).toBase = c.toBase.restyle p := rfl
  have hi : (restyle p c).individuals = c.individuals.map (restyle p) := rfl
  have hg : (restyle p c).groups = c.groups.map (restyle p) := rfl
  have hp : ((restyle p c).profileList.map (·.toBase)).toList =
      (c.profileList.map (·.toBase)).toList.map (·.restyle p) := by
    simp [restyle, Function.comp_def, ← Option.toList_map]
  simp only [rules, hb, hi, hg, hp, bind_ok, forM_ok, List.mem_map, forall_exists_index, and_imp,
    forall_apply_eq_imp_iff₂, checkEntry_restyle, Base.element_restyle, requireIn_restyle,
    Base.version_restyle, Base.requireSameVersions_restyle]
  exact Iff.rfl

theorem entriesOf_alike {o o' : Option Element}
    (h : o.map (·.restyle p) = o'.map (·.restyle p)) :
    Alike (List.map (restyle p)) (entriesOf ctx v o) (entriesOf ctx v o') := by
  cases o with
  | none =>
    obtain rfl := Option.map_eq_none_iff.1 h.symm
    exact .of_eq rfl
  | some x =>
    obtain ⟨y, rfl, hxy⟩ := Option.map_eq_some_iff.1 h.symm
    exact (Alike.readAll (Element.children_congr hxy.symm) fun _ _ =>
      AccessEntity.ofElement_alike).within _ _

theorem ofElement_alike (h : e.restyle p = e'.restyle p) :
    Alike (restyle p) (ofElement ctx v e) (ofElement ctx v e') := by
  refine ((Alike.of_eq (f := id) rfl).within _ _).bind ?_
  rintro u _ rfl
  refine ((entriesOf_alike (Element.child?_congr h _ _)).within _ _).bind fun i1 i2 hi => ?_
  refine ((entriesOf_alike (Element.child?_congr h _ _)).within _ _).bind fun g1 g2 hg => ?_
  refine ((Alike.readOption (Element.child?_congr h _ _) fun _ _ =>
    ProfileList.ofElement_alike).within _ _).bind fun p1 p2 hp => ?_
  refine (SecurityAttributes.ofElement_alike h _ _).bind ?_
  rintro a _ rfl
  refine Alike.checked (k := fun (c : Access) _ => { c with warnings := c.findings })
    rules_steady (fun _ _ => rfl) ?_ _ _
  change Access.mk ⟨_, _, _⟩ _ _ _ _ = Access.mk ⟨_, _, _⟩ _ _ _ _
  simp only [h, hi, hg, hp, id]

end Access

namespace NoticeText

instance : Restyled NoticeText where
  restyle p c := { c with toBase := c.toBase.restyle p }
  lines_restyle p c stem index := by simp [Component.lines]

theorem beq_restyle (a b : NoticeText) : (restyle p a == restyle p b) = (a == b) := by
  cases a
  cases b
  exact congrArg (· && _) (Base.beq_restyle p _ _)

theorem rules_steady : Steady (restyle p) (rules ctx) := by
  intro c r
  simp [rules, restyle]

theorem ofElement_alike (h : e.restyle p = e'.restyle p) :
    Alike (restyle p) (ofElement ctx v e) (ofElement ctx v e') := by
  refine (SecurityAttributes.ofElement_alike h _ _).bind ?_
  rintro a _ rfl
  refine Alike.checked (k := fun (c : NoticeText) r => { c with warnings := c.findings r })
    rules_steady (fun _ _ => rfl) ?_ _ _
  simp only [restyle, Base.restyle, h, Element.content_congr h, Element.attributeText_congr h, id]

end NoticeText

namespace Notice

instance : Restyled Notice where
  restyle p c := { c with toBase := c.toBase.restyle p, texts := c.texts.map (restyle p) }
  lines_restyle p c stem index := by simp [Component.lines]

theorem beq_restyle (a b : Notice) : (restyle p a == restyle p b) = (a == b) := by
  obtain ⟨b1, t1, s1, n1⟩ := a
  obtain ⟨b2, t2, s2, n2⟩ := b
  change (_ == _ && (_ == _ && (_ == _ && _))) = (_ == _ && (_ == _ && (_ == _ && _)))
  rw [Base.beq_restyle, beq_map NoticeText.beq_restyle]

theorem rules_steady : Steady (restyle p) rules := by
  intro c r
  simp [rules, restyle]

theorem ofElement_alike (h : e.restyle p = e'.restyle p) :
    Alike (restyle p) (ofElement ctx v e) (ofElement ctx v e') := by
  refine ((Alike.readAll (Element.childrenNamed_congr h _ _) fun _ _ =>
    NoticeText.ofElement_alike).within _ _).bind fun t1 t2 ht => ?_
  refine (SecurityAttributes.ofElement_alike h _ _).bind ?_
  rintro a _ rfl
  refine (NoticeAttributes.ofElement_alike h _ _).bind ?_
  rintro n _ rfl
  refine Alike.checked (k := fun (c : Notice) _ => { c with warnings := c.findings })
    rules_steady (fun _ _ => rfl) ?_ _ _
  change Notice.mk ⟨_, _, _⟩ _ _ _ = Notice.mk ⟨_, _, _⟩ _ _ _
  simp only [h, ht, id]

end Notice

namespace NoticeList

instance : Restyled NoticeList where
  restyle p c := { c with toBase := c.toBase.restyle p, notices := c.notices.map (restyle p) }
  lines_restyle p c stem index := by simp [Component.lines]

theorem beq_restyle (a b : NoticeList) : (restyle p a == restyle p b) = (a == b) := by
  obtain ⟨b1, n1, s1⟩ := a
  obtain ⟨b2, n2, s2⟩ := b
  change (_ == _ && (_ == _ && _ == _)) = (_ == _ && (_ == _ && _ == _))
  rw [Base.beq_restyle, beq_map Notice.beq_restyle]

theorem rules_steady : Steady (restyle p) rules := by
  intro c r
  simp [rules, restyle]

theorem ofElement_alike (h : e.restyle p = e'.restyle p) :
    Alike (restyle p) (ofElement ctx v e) (ofElement ctx v e') := by
  refine ((Alike.readAll (Element.childrenNamed_congr h _ _) fun _ _ =>
    Notice.ofElement_alike).within _ _).bind fun n1 n2 hn => ?_
  refine (SecurityAttributes.ofElement_alike h _ _).bind ?_
  rintro a _ rfl
  refine Alike.checked (k := fun (c : NoticeList) _ => { c with warnings := c.findings })
    rules_steady (fun _ _ => rfl) ?_ _ _
  change NoticeList.mk ⟨_, _, _⟩ _ _ = NoticeList.mk ⟨_, _, _⟩ _ _
  simp only [h, hn, id]

end NoticeList

namespace Security

instance : Restyled Security where
  restyle p c := { c with
    toBase := c.toBase.restyle p
    noticeList := c.noticeList.map (restyle p)
    access := c.access.map (restyle p) }
  lines_restyle p c stem index := by simp [Component.lines]

theorem beq_restyle (a b : Security) : (restyle p a == restyle p b) = (a == b) := by
  obtain ⟨b1, x1, n1, c1, s1⟩ := a
  obtain ⟨b2, x2, n2, c2, s2⟩ := b
  change (_ == _ && (_ == _ && (_ == _ && (_ == _ && _ == _)))) =
    (_ == _ && (_ == _ && (_ == _ && (_ == _ && _ == _))))
  rw [Base.beq_restyle, beq_optionMap NoticeList.beq_restyle, beq_optionMap Access.beq_restyle]

theorem parts_restyle (c : Security) : (restyle p c).parts = c.parts.map (·.restyle p) := by
  simp [parts, restyle, Function.comp_def, ← Option.toList_map]

@[simp]
theorem accessElements_restyle (e : Element) :
    accessElements v (e.restyle p) = (accessElements v e).map (·.restyle p) := by
  unfold accessElements
  cases v.uriOf .ntk with
  | error s => rfl
  | ok u => exact Element.childrenNamed_restyle p e u Access.name

theorem rules_steady : Steady (restyle p) rules := by
  intro c r
  have hroll : (restyle p c).checkRollup = c.checkRollup := rfl
  simp only [rules, parts_restyle, hroll]
  simp [restyle]

theorem ofElement_alike (h : e.restyle p = e'.restyle p) :
    Alike (restyle p) (ofElement ctx v e) (ofElement ctx v e') := by
  have hhead : (accessElements v e).head?.map (·.restyle p) =
      (accessElements v e').head?.map (·.restyle p) := by
    rw [← List.head?_map, ← List.head?_map, ← accessElements_restyle, h, accessElements_restyle]
  refine ((Alike.readOption (Element.child?_congr h _ _) fun _ _ =>
    NoticeList.ofElement_alike).within _ _).bind fun n1 n2 hn => ?_
  refine ((Alike.readOption hhead fun _ _ => Access.ofElement_alike).within _ _).bind
    fun c1 c2 hc => ?_
  refine (SecurityAttributes.ofElement_alike h _ _).bind ?_
  rintro a _ rfl
  refine Alike.checked (k := fun (c : Security) _ => { c with warnings := c.findings })
    rules_steady (fun _ _ => rfl) ?_ _ _
  change Security.mk ⟨_, _, _⟩ _ _ _ _ = Security.mk ⟨_, _, _⟩ _ _ _ _
  simp only [h, hn, hc, Element.attribute?_congr h, id]

end Security

end DiscoveryMetadata
