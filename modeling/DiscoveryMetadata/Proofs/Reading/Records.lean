import DiscoveryMetadata.Proofs.Reading.Alike
import DiscoveryMetadata.Record.Dates
import DiscoveryMetadata.Record.Format
import DiscoveryMetadata.Record.Plain
/-
  Records of a resource from alike elements.
-/
namespace DiscoveryMetadata

open Xml (Element)

variable {p : Option String → Option String} {e e' : Element} {ctx : Context} {v : Version}

namespace Identifier

instance : Restyled Identifier where
  restyle p c := { c with toBase := c.toBase.restyle p }
  lines_restyle p c stem index := by simp [Component.lines]

theorem beq_restyle (a b : Identifier) : (restyle p a == restyle p b) = (a == b) := by
  cases a
  cases b
  exact congrArg (· && _) (Base.beq_restyle p _ _)

theorem rules_steady : Steady (restyle p) rules := by
  intro c r
  simp [rules, restyle]

theorem ofElement_alike (h : e.restyle p = e'.restyle p) :
    Alike (restyle p) (ofElement ctx v e) (ofElement ctx v e') := by
  refine Alike.checked (k := fun (c : Identifier) _ => c) rules_steady (fun _ _ => rfl) ?_ _ _
  simp only [restyle, Base.restyle, h, Element.own_congr h]

end Identifier

namespace Caption

instance : Restyled Caption where
  restyle p c := { c with toBase := c.toBase.restyle p }
  lines_restyle p c stem index := by simp [Component.lines]

theorem beq_restyle (a b : Caption) : (restyle p a == restyle p b) = (a == b) := by
  cases a
  cases b
  exact congrArg (· && _) (Base.beq_restyle p _ _)

theorem rules_steady : Steady (restyle p) rules := by
  intro c r
  simp only [rules, restyle, Base.element_restyle, requireDdms_restyle]
  exact Iff.rfl

theorem ofElement_alike (h : e.restyle p = e'.restyle p) :
    Alike (restyle p) (ofElement ctx v e) (ofElement ctx v e') := by
  rw [ofElement, ofElement, Element.localName_congr h]
  cases Kind.ofName? e'.localName with
  | none => exact (Alike.error _ _).within _ _
  | some kind =>
    refine (SecurityAttributes.ofElement_alike h _ _).bind ?_
    rintro a _ rfl
    refine Alike.checked (k := fun (c : Caption) _ => { c with warnings := c.findings })
      rules_steady (fun _ _ => rfl) ?_ _ _
    simp only [restyle, Base.restyle, h, Element.content_congr h, id]

end Caption

namespace ApproximableDate

instance : Restyled ApproximableDate where
  restyle p c := { c with toBase := c.toBase.restyle p }
  lines_restyle p c stem index := by simp [Component.lines, description]

theorem beq_restyle (a b : ApproximableDate) : (restyle p a == restyle p b) = (a == b) := by
  cases a
  cases b
  exact congrArg (· && _) (Base.beq_restyle p _ _)

theorem rules_steady : Steady (restyle p) rules := by
  intro c r
  simp [rules, restyle]

theorem ofElement_alike (h : e.restyle p = e'.restyle p) :
    Alike (restyle p) (ofElement ctx v e) (ofElement ctx v e') := by
  refine Alike.checked (k := fun (c : ApproximableDate) _ => { c with warnings := c.findings })
    rules_steady (fun _ _ => rfl) ?_ _ _
  have hwords := Element.map_ownChild?_congr h (Element.content_restyle p)
  have hclose := Element.map_ownChild?_congr h (f := (·.own "approximation")) fun c =>
    c.own_restyle p _
  have hstart := Element.map_ownChild?_congr h (f := (·.ownText "start")) fun c =>
    c.ownText_restyle p _
  have hend := Element.map_ownChild?_congr h (f := (·.ownText "end")) fun c =>
    c.ownText_restyle p _
  simp only [restyle, Base.restyle, h, hwords, hclose, hstart, hend]

end ApproximableDate

namespace Dates

instance : Restyled Dates where
  restyle p c := { c with
    toBase := c.toBase.restyle p, acquiredOns := c.acquiredOns.map (restyle p) }
  lines_restyle p c stem index := by simp [Component.lines]

theorem beq_restyle (a b : Dates) : (restyle p a == restyle p b) = (a == b) := by
  obtain ⟨b1, d1, v1⟩ := a
  obtain ⟨b2, d2, v2⟩ := b
  change (_ == _ && (_ == _ && _ == _)) = (_ == _ && (_ == _ && _ == _))
  rw [Base.beq_restyle, beq_map ApproximableDate.beq_restyle]

theorem rules_steady : Steady (restyle p) rules := by
  intro c r
  simp [rules, restyle]

theorem ofElement_alike (h : e.restyle p = e'.restyle p) :
    Alike (restyle p) (ofElement ctx v e) (ofElement ctx v e') := by
  refine ((Alike.readAll (e.ownChildren_congr h "acquiredOn") fun _ _ =>
    ApproximableDate.ofElement_alike).within _ _).bind ?_
  intro as bs has
  refine Alike.checked (k := fun (c : Dates) _ => { c with warnings := c.findings })
    rules_steady (fun _ _ => rfl) ?_ _ _
  change Dates.mk ⟨_, _, _⟩ _ _ = Dates.mk ⟨_, _, _⟩ _ _
  simp only [h, has, Element.own_congr h]

end Dates

namespace Rights

instance : Restyled Rights where
  restyle p c := { c with toBase := c.toBase.restyle p }
  lines_restyle p c stem index := by simp [Component.lines]

theorem beq_restyle (a b : Rights) : (restyle p a == restyle p b) = (a == b) := by
  cases a
  cases b
  exact congrArg (· && _) (Base.beq_restyle p _ _)

theorem ofElement_alike (h : e.restyle p = e'.restyle p) :
    Alike (restyle p) (ofElement ctx v e) (ofElement ctx v e') := by
  have hflag : ∀ name, flag e name = flag e' name := by
    intro name
    rw [flag, flag, Element.own_congr h]
  have hname : requireDdms e v "rights" = requireDdms e' v "rights" :=
    Element.congr_of_restyle h (f := fun e => requireDdms e v "rights") fun e =>
      requireDdms_restyle p e "rights"
  rw [ofElement, ofElement]
  refine Alike.within ?_ _ _
  simp only [hflag, hname]
  refine (Alike.of_eq (f := id) rfl).bind ?_
  rintro a _ rfl
  refine (Alike.of_eq (f := id) rfl).bind ?_
  rintro b _ rfl
  refine (Alike.of_eq (f := id) rfl).bind ?_
  rintro c _ rfl
  refine (Alike.of_eq (f := id) rfl).bind ?_
  rintro _ _ -
  exact Alike.ok (by simp only [restyle, Base.restyle, h, id])

end Rights

namespace Language

instance : Restyled Language where
  restyle p c := { c with toBase := c.toBase.restyle p }
  lines_restyle p c stem index := by simp [Component.lines]

theorem beq_restyle (a b : Language) : (restyle p a == restyle p b) = (a == b) := by
  cases a
  cases b
  exact congrArg (· && _) (Base.beq_restyle p _ _)

theorem rules_steady : Steady (restyle p) rules := by
  intro c r
  simp [rules, restyle]

theorem ofElement_alike (h : e.restyle p = e'.restyle p) :
    Alike (restyle p) (ofElement ctx v e) (ofElement ctx v e') := by
  refine Alike.checked (k := fun (c : Language) _ => { c with warnings := c.findings })
    rules_steady (fun _ _ => rfl) ?_ _ _
  simp only [restyle, Base.restyle, h, Element.own_congr h]

end Language

namespace Source

instance : Restyled Source where
  restyle p c := { c with toBase := c.toBase.restyle p }
  lines_restyle p c stem index := by simp [Component.lines, fields]

theorem beq_restyle (a b : Source) : (restyle p a == restyle p b) = (a == b) := by
  cases a
  cases b
  exact congrArg (· && _) (Base.beq_restyle p _ _)

theorem rules_steady : Steady (restyle p) rules := by
  intro c r
  simp [rules, restyle]

theorem ofElement_alike (h : e.restyle p = e'.restyle p) :
    Alike (restyle p) (ofElement ctx v e) (ofElement ctx v e') := by
  refine (SecurityAttributes.ofElement_alike h _ _).bind ?_
  rintro a _ rfl
  refine Alike.checked (k := fun (c : Source) _ => { c with warnings := c.findings })
    rules_steady (fun _ _ => rfl) ?_ _ _
  simp only [restyle, Base.restyle, h, Element.own_congr h, id]

end Source

namespace ResourceType

instance : Restyled ResourceType where
  restyle p c := { c with toBase := c.toBase.restyle p }
  lines_restyle p c stem index := by simp [Component.lines]

theorem beq_restyle (a b : ResourceType) : (restyle p a == restyle p b) = (a == b) := by
  cases a
  cases b
  exact congrArg (· && _) (Base.beq_restyle p _ _)

theorem rules_steady : Steady (restyle p) rules := by
  intro c r
  simp only [rules, restyle, Base.element_restyle, requireDdms_restyle]
  exact Iff.rfl

theorem ofElement_alike (h : e.restyle p = e'.restyle p) :
    Alike (restyle p) (ofElement ctx v e) (ofElement ctx v e') := by
  refine (SecurityAttributes.ofElement_alike h _ _).bind ?_
  rintro a _ rfl
  refine Alike.checked (k := fun (c : ResourceType) _ => { c with warnings := c.findings })
    rules_steady (fun _ _ => rfl) ?_ _ _
  simp only [restyle, Base.restyle, h, Element.own_congr h, Element.content_congr h, id]

end ResourceType

namespace Extent

instance : Restyled Extent where
  restyle p c := { c with toBase := c.toBase.restyle p }
  lines_restyle p c stem index := by simp [Component.lines]

theorem beq_restyle (a b : Extent) : (restyle p a == restyle p b) = (a == b) := by
  cases a
  cases b
  exact congrArg (· && _) (Base.beq_restyle p _ _)

theorem rules_steady : Steady (restyle p) rules := by
  intro c r
  simp [rules, restyle]

theorem ofElement_alike (h : e.restyle p = e'.restyle p) :
    Alike (restyle p) (ofElement ctx v e) (ofElement ctx v e') := by
  refine Alike.checked (k := fun (c : Extent) _ => { c with warnings := c.findings })
    rules_steady (fun _ _ => rfl) ?_ _ _
  simp only [restyle, Base.restyle, h, Element.own_congr h]

end Extent

namespace Format

instance : Restyled Format where
  restyle p c := { c with toBase := c.toBase.restyle p, extent := c.extent.map (restyle p) }
  lines_restyle p c stem index := by simp [Component.lines]

theorem beq_restyle (a b : Format) : (restyle p a == restyle p b) = (a == b) := by
  obtain ⟨b1, m1, x1, n1⟩ := a
  obtain ⟨b2, m2, x2, n2⟩ := b
  change (_ == _ && (_ == _ && (_ == _ && _ == _))) = (_ == _ && (_ == _ && (_ == _ && _ == _)))
  rw [Base.beq_restyle, beq_optionMap Extent.beq_restyle]

theorem rules_steady : Steady (restyle p) rules := by
  intro c r
  cases hm : c.element.holder? c.version wrapper with
  | none => simp [rules, restyle, hm]
  | some media => simp [rules, restyle, hm]

theorem ofElement_alike (h : e.restyle p = e'.restyle p) :
    Alike (restyle p) (ofElement ctx v e) (ofElement ctx v e') := by
  have hm : (holder ⟨e, v, []⟩).restyle p = (holder ⟨e', v, []⟩).restyle p :=
    e.holder?_getD_congr h v wrapper
  refine (((Alike.readOption (Element.ownChild?_congr hm "extent") fun _ _ =>
    Extent.ofElement_alike).withinHolder _ _ _).within _ _).bind ?_
  intro a b hab
  refine Alike.checked (k := fun (c : Format) _ => { c with warnings := c.findings })
    rules_steady (fun _ _ => rfl) ?_ _ _
  change Format.mk ⟨_, _, _⟩ _ _ _ = Format.mk ⟨_, _, _⟩ _ _ _
  simp only [h, hab, Element.ownText_congr hm]

end Format

end DiscoveryMetadata
