import DiscoveryMetadata.Proofs.Reading.Alike
import DiscoveryMetadata.Role.Tasking
/-
  Entities and their roles from alike elements.

  What an entity is read as depends on its local name, and so two alike elements are read as
  entities of one kind.
-/
namespace DiscoveryMetadata

open Xml (Element)

variable {p : Option String → Option String} {e e' : Element} {ctx : Context} {v : Version}

theorem Contact.ofElement_congr (h : e.restyle p = e'.restyle p) : ofElement e = ofElement e' := by
  refine Element.congr_of_restyle h (f := ofElement) fun e => ?_
  simp [ofElement, Function.comp_def]

theorem Entity.isElement_congr (h : e.restyle p = e'.restyle p) :
    isElement e v = isElement e' v := by
  refine Element.congr_of_restyle h (f := fun e => isElement e v) fun e => ?_
  simp [isElement]

namespace NamedEntity

instance : Restyled NamedEntity where
  restyle p c := { c with toBase := c.toBase.restyle p }
  lines_restyle p c stem index := by simp [Component.lines]

theorem beq_restyle (a b : NamedEntity) : (restyle p a == restyle p b) = (a == b) := by
  cases a
  cases b
  exact congrArg (· && _) (Base.beq_restyle p _ _)

theorem rules_steady : Steady (restyle p) rules := by
  intro c r
  simp only [rules, restyle, Base.element_restyle, requireDdms_restyle]
  exact Iff.rfl

theorem ofElement_alike (h : e.restyle p = e'.restyle p) :
    Alike (restyle p) (ofElement ctx v e) (ofElement ctx v e') := by
  refine Alike.checked (k := fun (c : NamedEntity) _ => { c with warnings := c.findings })
    rules_steady (fun _ _ => rfl) ?_ _ _
  simp only [restyle, Base.restyle, h, Element.localName_congr h, Contact.ofElement_congr h]

end NamedEntity

namespace SubOrganization

instance : Restyled SubOrganization where
  restyle p c := { c with toBase := c.toBase.restyle p }
  lines_restyle p c stem index := by simp [Component.lines]

theorem beq_restyle (a b : SubOrganization) : (restyle p a == restyle p b) = (a == b) := by
  cases a
  cases b
  exact congrArg (· && _) (Base.beq_restyle p _ _)

theorem rules_steady : Steady (restyle p) rules := by
  intro c r
  simp [rules, restyle]

theorem ofElement_alike (h : e.restyle p = e'.restyle p) :
    Alike (restyle p) (ofElement ctx v e) (ofElement ctx v e') := by
  refine (SecurityAttributes.ofElement_alike h _ _).bind ?_
  rintro a _ rfl
  refine Alike.checked (k := fun (c : SubOrganization) _ => { c with warnings := c.findings })
    rules_steady (fun _ _ => rfl) ?_ _ _
  simp only [restyle, Base.restyle, h, Element.content_congr h, id]

end SubOrganization

namespace Organization

instance : Restyled Organization where
  restyle p c := { c with
    toBase := c.toBase.restyle p, subOrganizations := c.subOrganizations.map (restyle p) }
  lines_restyle p c stem index := by simp [Component.lines]

theorem beq_restyle (a b : Organization) : (restyle p a == restyle p b) = (a == b) := by
  obtain ⟨b1, c1, s1, a1⟩ := a
  obtain ⟨b2, c2, s2, a2⟩ := b
  change (_ == _ && (_ == _ && (_ == _ && _ == _))) = (_ == _ && (_ == _ && (_ == _ && _ == _)))
  rw [Base.beq_restyle, beq_map SubOrganization.beq_restyle]

theorem rules_steady : Steady (restyle p) rules := by
  intro c r
  simp [rules, restyle]

theorem ofElement_alike (h : e.restyle p = e'.restyle p) :
    Alike (restyle p) (ofElement ctx v e) (ofElement ctx v e') := by
  refine ((Alike.readAll (e.ownChildren_congr h "subOrganization") fun _ _ =>
    SubOrganization.ofElement_alike).within _ _).bind ?_
  intro as bs has
  refine Alike.checked (k := fun (c : Organization) _ => { c with warnings := c.findings })
    rules_steady (fun _ _ => rfl) ?_ _ _
  change Organization.mk ⟨_, _, _⟩ _ _ _ = Organization.mk ⟨_, _, _⟩ _ _ _
  simp only [h, has, Element.own_congr h, Contact.ofElement_congr h]

end Organization

namespace Person

instance : Restyled Person where
  restyle p c := { c with toBase := c.toBase.restyle p }
  lines_restyle p c stem index := by simp [Component.lines]

theorem beq_restyle (a b : Person) : (restyle p a == restyle p b) = (a == b) := by
  cases a
  cases b
  exact congrArg (· && _) (Base.beq_restyle p _ _)

theorem rules_steady : Steady (restyle p) rules := by
  intro c r
  simp [rules, restyle]

theorem ofElement_alike (h : e.restyle p = e'.restyle p) :
    Alike (restyle p) (ofElement ctx v e) (ofElement ctx v e') := by
  refine Alike.checked (k := fun (c : Person) _ => { c with warnings := c.findings })
    rules_steady (fun _ _ => rfl) ?_ _ _
  simp only [restyle, Base.restyle, h, Element.ownText_congr h, Contact.ofElement_congr h]

end Person

namespace Producer

/-- The entity with the prefixes of its elements changed. -/
def restyle (p : Option String → Option String) : Producer → Producer
  | organization o => organization (Restyled.restyle p o)
  | person q => person (Restyled.restyle p q)
  | named n => named (Restyled.restyle p n)

@[simp]
theorem base_restyle (q : Producer) : (q.restyle p).base = q.base.restyle p := by cases q <;> rfl

@[simp]
theorem lines_restyle (q : Producer) (stem : String) : (q.restyle p).lines stem = q.lines stem := by
  cases q <;> exact Restyled.lines_restyle p _ _ _

theorem beq_restyle (a b : Producer) : (a.restyle p == b.restyle p) = (a == b) := by
  cases a <;> cases b <;>
    first | rfl | exact Organization.beq_restyle _ _ | exact Person.beq_restyle _ _
          | exact NamedEntity.beq_restyle _ _

theorem ofElement_alike (h : e.restyle p = e'.restyle p) :
    Alike (restyle p) (ofElement ctx v e) (ofElement ctx v e') := by
  simp only [ofElement, Element.localName_congr h]
  split
  · exact (Organization.ofElement_alike h).map fun a b hab => congrArg organization hab
  · split
    · exact (Person.ofElement_alike h).map fun a b hab => congrArg person hab
    · split
      · exact (NamedEntity.ofElement_alike h).map fun a b hab => congrArg named hab
      · exact .error _ _

end Producer

namespace ProducerRole

instance : Restyled ProducerRole where
  restyle p c := { c with toBase := c.toBase.restyle p, entity := c.entity.map (·.restyle p) }
  lines_restyle p c stem index := by
    simp [Component.lines, Function.comp_def]

theorem beq_restyle (a b : ProducerRole) : (restyle p a == restyle p b) = (a == b) := by
  obtain ⟨b1, k1, e1, p1, s1⟩ := a
  obtain ⟨b2, k2, e2, p2, s2⟩ := b
  change (_ == _ && (_ == _ && (_ == _ && _))) = (_ == _ && (_ == _ && (_ == _ && _)))
  rw [Base.beq_restyle, beq_optionMap Producer.beq_restyle]

theorem rules_steady : Steady (restyle p) (rules ctx) := by
  intro c r
  cases hc : c.entity with
  | none => simp [rules, restyle, hc]
  | some entity => simp [rules, restyle, hc]

theorem entityOf_alike (h : e.restyle p = e'.restyle p) :
    Alike (Option.map (·.restyle p)) (entityOf ctx v e) (entityOf ctx v e') := by
  unfold entityOf
  obtain ⟨he, he'⟩ | ⟨c, r, c', r', he, he', hc⟩ := Element.firstChild_congr h
  · rw [he, he']
    exact .of_eq rfl
  · rw [he, he']
    simp only [Entity.isElement_congr hc]
    split
    · exact (Producer.ofElement_alike hc).map fun a b hab => congrArg some hab
    · exact .of_eq rfl

theorem ofElement_alike (h : e.restyle p = e'.restyle p) :
    Alike (restyle p) (ofElement ctx v e) (ofElement ctx v e') := by
  rw [ofElement, ofElement, Element.localName_congr h]
  cases Kind.ofName? e'.localName with
  | none => exact (Alike.error _ _).within _ _
  | some kind =>
    refine ((entityOf_alike h).within _ _).bind fun x y hxy => ?_
    refine (SecurityAttributes.ofElement_alike h _ _).bind ?_
    rintro a _ rfl
    refine Alike.checked (k := fun (c : ProducerRole) r => { c with warnings := c.findings r })
      rules_steady (fun _ _ => rfl) ?_ _ _
    change ProducerRole.mk ⟨_, _, _⟩ _ _ _ _ = ProducerRole.mk ⟨_, _, _⟩ _ _ _ _
    simp only [h, hxy, pocTypesOf, Element.attributeText_congr h, id]

end ProducerRole

namespace TaskingEntity

/-- The entity with the prefixes of its elements changed. -/
def restyle (p : Option String → Option String) : TaskingEntity → TaskingEntity
  | organization o => organization (Restyled.restyle p o)
  | person q => person (Restyled.restyle p q)

@[simp]
theorem base_restyle (t : TaskingEntity) : (t.restyle p).base = t.base.restyle p := by
  cases t <;> rfl

@[simp]
theorem lines_restyle (t : TaskingEntity) (stem : String) :
    (t.restyle p).lines stem = t.lines stem := by
  cases t <;> exact Restyled.lines_restyle p _ _ _

theorem beq_restyle (a b : TaskingEntity) : (a.restyle p == b.restyle p) = (a == b) := by
  cases a <;> cases b <;>
    first | rfl | exact Organization.beq_restyle _ _ | exact Person.beq_restyle _ _

theorem ofElement_alike (h : e.restyle p = e'.restyle p) :
    Alike (restyle p) (ofElement ctx v e) (ofElement ctx v e') := by
  simp only [ofElement, Element.localName_congr h]
  split
  · exact (Organization.ofElement_alike h).map fun a b hab => congrArg organization hab
  · split
    · exact (Person.ofElement_alike h).map fun a b hab => congrArg person hab
    · exact .error _ _

end TaskingEntity

namespace TaskingRole

instance : Restyled TaskingRole where
  restyle p c := { c with toBase := c.toBase.restyle p, entity := c.entity.map (·.restyle p) }
  lines_restyle p c stem index := by
    simp [Component.lines, Function.comp_def]

theorem beq_restyle (a b : TaskingRole) : (restyle p a == restyle p b) = (a == b) := by
  obtain ⟨b1, k1, e1, s1⟩ := a
  obtain ⟨b2, k2, e2, s2⟩ := b
  change (_ == _ && (_ == _ && (_ == _ && _))) = (_ == _ && (_ == _ && (_ == _ && _)))
  rw [Base.beq_restyle, beq_optionMap TaskingEntity.beq_restyle]

theorem rules_steady : Steady (restyle p) rules := by
  intro c r
  cases hc : c.entity with
  | none => simp [rules, restyle, hc]
  | some entity => simp [rules, restyle, hc]

theorem entityOf_alike (h : e.restyle p = e'.restyle p) :
    Alike (Option.map (·.restyle p)) (entityOf ctx v e) (entityOf ctx v e') := by
  unfold entityOf
  obtain ⟨he, he'⟩ | ⟨c, r, c', r', he, he', hc⟩ := Element.firstChild_congr h
  · rw [he, he']
    exact .of_eq rfl
  · rw [he, he']
    simp only [Entity.isElement_congr hc]
    split
    · exact (TaskingEntity.ofElement_alike hc).map fun a b hab => congrArg some hab
    · exact .of_eq rfl

theorem ofElement_alike (h : e.restyle p = e'.restyle p) :
    Alike (restyle p) (ofElement ctx v e) (ofElement ctx v e') := by
  rw [ofElement, ofElement, Element.localName_congr h]
  cases Kind.ofName? e'.localName with
  | none => exact (Alike.error _ _).within _ _
  | some kind =>
    refine ((entityOf_alike h).within _ _).bind fun x y hxy => ?_
    refine (SecurityAttributes.ofElement_alike h _ _).bind ?_
    rintro a _ rfl
    refine Alike.checked (k := fun (c : TaskingRole) _ => { c with warnings := c.findings })
      rules_steady (fun _ _ => rfl) ?_ _ _
    change TaskingRole.mk ⟨_, _, _⟩ _ _ _ = TaskingRole.mk ⟨_, _, _⟩ _ _ _
    simp only [h, hxy, id]

end TaskingRole

end DiscoveryMetadata
