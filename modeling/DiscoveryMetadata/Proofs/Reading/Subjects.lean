import DiscoveryMetadata.Coverage.Subject
import DiscoveryMetadata.Coverage.Temporal
import DiscoveryMetadata.Coverage.Virtual
import DiscoveryMetadata.Proofs.Reading.Records
import DiscoveryMetadata.Relation
/-
  Relations, subjects, times and virtual spaces from alike elements.

  Keywords and categories carry their extensible attributes with the prefixes that these were
  written with, and these count in comparisons. So the comparison of two of them says the same
  after a change of prefixes only where the change leaves the extensible attributes as they are.
-/
namespace DiscoveryMetadata

open Xml (Element)

variable {p : Option String → Option String} {e e' : Element} {ctx : Context} {v : Version}

namespace Link

instance : Restyled Link where
  restyle p c := { c with toBase := c.toBase.restyle p }
  lines_restyle p c stem index := by simp [Component.lines]

theorem beq_restyle (a b : Link) : (restyle p a == restyle p b) = (a == b) := by
  cases a
  cases b
  exact congrArg (· && _) (Base.beq_restyle p _ _)

theorem rules_steady : Steady (restyle p) rules := by
  intro c r
  simp [rules, restyle]

theorem ofElement_alike (h : e.restyle p = e'.restyle p) :
    Alike (restyle p) (ofElement ctx v e) (ofElement ctx v e') := by
  refine (LinkAttributes.ofElement_alike h _ _).bind ?_
  rintro l _ rfl
  refine (SecurityAttributes.ofElement_alike h _ _).bind ?_
  rintro a _ rfl
  refine Alike.checked (k := fun (c : Link) _ => { c with warnings := c.findings })
    rules_steady (fun _ _ => rfl) ?_ _ _
  simp only [restyle, Base.restyle, h, id]

end Link

namespace RelatedResource

instance : Restyled RelatedResource where
  restyle p c := { c with toBase := c.toBase.restyle p, links := c.links.map (restyle p) }
  lines_restyle p c stem index := by
    simp [Component.lines]
    rfl

theorem beq_restyle (a b : RelatedResource) : (restyle p a == restyle p b) = (a == b) := by
  obtain ⟨b1, r1, d1, q1, v1, l1, s1⟩ := a
  obtain ⟨b2, r2, d2, q2, v2, l2, s2⟩ := b
  change (_ == _ && (_ == _ && (_ == _ && (_ == _ && (_ == _ && (_ == _ && _)))))) =
    (_ == _ && (_ == _ && (_ == _ && (_ == _ && (_ == _ && (_ == _ && _))))))
  rw [Base.beq_restyle, beq_map Link.beq_restyle]

theorem checkLink_restyle (b : Base) (l : Link) {u : Unit} :
    checkLink (b.restyle p) (restyle p l) = .ok u ↔ checkLink b l = .ok u := by
  simp [checkLink, restyle]

theorem rules_steady : Steady (restyle p) rules := by
  intro c r
  have hrestyle : restyle p c =
      { c with toBase := c.toBase.restyle p, links := c.links.map (restyle p) } := rfl
  simp only [rules, hrestyle, bind_ok, forM_ok, List.mem_map, forall_exists_index, and_imp,
    forall_apply_eq_imp_iff₂, checkLink_restyle, Base.element_restyle, requireDdms_restyle,
    Base.version_restyle, List.isEmpty_map]

theorem ofElement_alike (h : e.restyle p = e'.restyle p) :
    Alike (restyle p) (ofElement ctx v e) (ofElement ctx v e') := by
  rw [ofElement, ofElement]
  have htext : ∀ name, (e.holder? v wrapper).map (·.own name) =
      (e'.holder? v wrapper).map (·.own name) := by
    intro name
    obtain ⟨hn, hn'⟩ | ⟨c, c', hc, hc', hcc⟩ := Element.holder?_cases h v wrapper
    · rw [hn, hn']
    · rw [hc, hc', Option.map_some, Option.map_some, Element.own_congr hcc]
  apply (Alike.within (f := List.map (restyle p)) ?links _ _).bind
  case links =>
    -- both elements have a place for the links, or neither has
    obtain ⟨hn, hn'⟩ | ⟨c, c', hc, hc', hcc⟩ := Element.holder?_cases h v wrapper
    · rw [hn, hn']
      exact .of_eq rfl
    · rw [hc, hc']
      exact (Alike.readAll (Element.ownChildren_congr hcc "link") fun _ _ =>
        Link.ofElement_alike).withinHolder _ _ _
  intro as bs has
  refine (SecurityAttributes.ofElement_alike h _ _).bind ?_
  rintro a _ rfl
  refine Alike.checked (k := fun (c : RelatedResource) _ => { c with warnings := c.findings })
    rules_steady (fun _ _ => rfl) ?_ _ _
  change RelatedResource.mk ⟨_, _, _⟩ _ _ _ _ _ _ = RelatedResource.mk ⟨_, _, _⟩ _ _ _ _ _ _
  simp only [h, has, htext, Element.own_congr h, id]

end RelatedResource

/-- The attributes are the same after a change of prefixes. -/
def ExtensibleAttributes.IsFixed (p : Option String → Option String)
    (a : ExtensibleAttributes) : Prop := a.restyle p = a

namespace Keyword

instance : Restyled Keyword where
  restyle p c := { c with toBase := c.toBase.restyle p, extensible := c.extensible.restyle p }
  lines_restyle p c stem index := by simp [Component.lines]

theorem beq_restyle {a b : Keyword} (ha : a.extensible.IsFixed p) (hb : b.extensible.IsFixed p) :
    (restyle p a == restyle p b) = (a == b) := by
  obtain ⟨b1, v1, s1, x1⟩ := a
  obtain ⟨b2, v2, s2, x2⟩ := b
  change (_ == _ && (_ == _ && (_ == _ && x1.restyle p == x2.restyle p))) =
    (_ == _ && (_ == _ && (_ == _ && _ == _)))
  rw [Base.beq_restyle, show x1.restyle p = x1 from ha, show x2.restyle p = x2 from hb]

theorem rules_steady : Steady (restyle p) rules := by
  intro c r
  simp [rules, restyle, requireExtensibleSince]

theorem ofElement_alike (h : e.restyle p = e'.restyle p) :
    Alike (restyle p) (ofElement ctx v e) (ofElement ctx v e') := by
  refine (SecurityAttributes.ofElement_alike h _ _).bind ?_
  rintro a _ rfl
  refine Alike.checked (k := fun (c : Keyword) _ => { c with warnings := c.findings })
    rules_steady (fun _ _ => rfl) ?_ _ _
  simp only [restyle, Base.restyle, h, Element.own_congr h, id,
    ExtensibleAttributes.ofElement_congr h]

end Keyword

namespace Category

instance : Restyled Category where
  restyle p c := { c with toBase := c.toBase.restyle p, extensible := c.extensible.restyle p }
  lines_restyle p c stem index := by simp [Component.lines]

theorem beq_restyle {a b : Category} (ha : a.extensible.IsFixed p) (hb : b.extensible.IsFixed p) :
    (restyle p a == restyle p b) = (a == b) := by
  obtain ⟨b1, q1, c1, l1, s1, x1⟩ := a
  obtain ⟨b2, q2, c2, l2, s2, x2⟩ := b
  change (_ == _ && (_ == _ && (_ == _ && (_ == _ && (_ == _ && x1.restyle p == x2.restyle p))))) =
    (_ == _ && (_ == _ && (_ == _ && (_ == _ && (_ == _ && _ == _)))))
  rw [Base.beq_restyle, show x1.restyle p = x1 from ha, show x2.restyle p = x2 from hb]

theorem rules_steady : Steady (restyle p) rules := by
  intro c r
  simp [rules, restyle, requireExtensibleSince]

theorem ofElement_alike (h : e.restyle p = e'.restyle p) :
    Alike (restyle p) (ofElement ctx v e) (ofElement ctx v e') := by
  refine (SecurityAttributes.ofElement_alike h _ _).bind ?_
  rintro a _ rfl
  refine Alike.checked (k := fun (c : Category) _ => { c with warnings := c.findings })
    rules_steady (fun _ _ => rfl) ?_ _ _
  simp only [restyle, Base.restyle, h, Element.own_congr h, id,
    ExtensibleAttributes.ofElement_congr h]

end Category

namespace ProductionMetric

instance : Restyled ProductionMetric where
  restyle p c := { c with toBase := c.toBase.restyle p }
  lines_restyle p c stem index := by simp [Component.lines]

theorem beq_restyle (a b : ProductionMetric) : (restyle p a == restyle p b) = (a == b) := by
  cases a
  cases b
  exact congrArg (· && _) (Base.beq_restyle p _ _)

theorem rules_steady : Steady (restyle p) rules := by
  intro c r
  simp [rules, restyle]

theorem ofElement_alike (h : e.restyle p = e'.restyle p) :
    Alike (restyle p) (ofElement ctx v e) (ofElement ctx v e') := by
  refine (SecurityAttributes.ofElement_alike h _ _).bind ?_
  rintro a _ rfl
  refine Alike.checked (k := fun (c : ProductionMetric) _ => { c with warnings := c.findings })
    rules_steady (fun _ _ => rfl) ?_ _ _
  simp only [restyle, Base.restyle, h, Element.own_congr h, id]

end ProductionMetric

namespace NonStateActor

instance : Restyled NonStateActor where
  restyle p c := { c with toBase := c.toBase.restyle p }
  lines_restyle p c stem index := by simp [Component.lines]

theorem beq_restyle (a b : NonStateActor) : (restyle p a == restyle p b) = (a == b) := by
  cases a
  cases b
  exact congrArg (· && _) (Base.beq_restyle p _ _)

theorem rules_steady : Steady (restyle p) rules := by
  intro c r
  simp [rules, restyle]

theorem ofElement_alike (h : e.restyle p = e'.restyle p) :
    Alike (restyle p) (ofElement ctx v e) (ofElement ctx v e') := by
  rw [ofElement, ofElement, Element.own_congr h]
  refine ((Alike.of_eq (f := id) rfl).within _ _).bind ?_
  rintro n _ rfl
  refine (SecurityAttributes.ofElement_alike h _ _).bind ?_
  rintro a _ rfl
  refine Alike.checked (k := fun (c : NonStateActor) _ => { c with warnings := c.findings })
    rules_steady (fun _ _ => rfl) ?_ _ _
  simp only [restyle, Base.restyle, h, Element.content_congr h, id]

end NonStateActor

namespace SubjectCoverage

instance : Restyled SubjectCoverage where
  restyle p c := { c with
    toBase := c.toBase.restyle p
    keywords := c.keywords.map (restyle p)
    categories := c.categories.map (restyle p)
    productionMetrics := c.productionMetrics.map (restyle p)
    nonStateActors := c.nonStateActors.map (restyle p) }
  lines_restyle p c stem index := by
    simp [Component.lines]
    rfl

/-- The extensible attributes of the terms are the same after a change of prefixes. -/
structure IsFixed (p : Option String → Option String) (c : SubjectCoverage) : Prop where
  keywords : ∀ k ∈ c.keywords, k.extensible.IsFixed p
  categories : ∀ k ∈ c.categories, k.extensible.IsFixed p

theorem beq_restyle {a b : SubjectCoverage} (ha : a.IsFixed p) (hb : b.IsFixed p) :
    (restyle p a == restyle p b) = (a == b) := by
  obtain ⟨b1, k1, c1, m1, n1, s1⟩ := a
  obtain ⟨b2, k2, c2, m2, n2, s2⟩ := b
  change (_ == _ && (_ == _ && (_ == _ && (_ == _ && (_ == _ && _ == _))))) =
    (_ == _ && (_ == _ && (_ == _ && (_ == _ && (_ == _ && _ == _)))))
  rw [Base.beq_restyle,
    beq_map_of_mem fun x hx y hy => Keyword.beq_restyle (ha.keywords x hx) (hb.keywords y hy),
    beq_map_of_mem fun x hx y hy => Category.beq_restyle (ha.categories x hx) (hb.categories y hy),
    beq_map ProductionMetric.beq_restyle, beq_map NonStateActor.beq_restyle]

theorem parts_restyle (c : SubjectCoverage) :
    (restyle p c).parts = c.parts.map (·.restyle p) := by
  simp [parts, restyle, Function.comp_def]

theorem rules_steady : Steady (restyle p) rules := by
  intro c r
  simp only [rules, parts_restyle]
  simp [restyle]

theorem ofElement_alike (h : e.restyle p = e'.restyle p) :
    Alike (restyle p) (ofElement ctx v e) (ofElement ctx v e') := by
  have hc := e.holder?_getD_congr h v wrapper
  refine (((Alike.readAll (Element.ownChildren_congr hc "keyword") fun _ _ =>
    Keyword.ofElement_alike).withinHolder _ _ _).within _ _).bind fun k1 k2 hk => ?_
  refine (((Alike.readAll (Element.ownChildren_congr hc "category") fun _ _ =>
    Category.ofElement_alike).withinHolder _ _ _).within _ _).bind fun c1 c2 hcat => ?_
  refine (((Alike.readAll (Element.ownChildren_congr hc "productionMetric") fun _ _ =>
    ProductionMetric.ofElement_alike).withinHolder _ _ _).within _ _).bind fun m1 m2 hm => ?_
  refine (((Alike.readAll (Element.ownChildren_congr hc "nonStateActor") fun _ _ =>
    NonStateActor.ofElement_alike).withinHolder _ _ _).within _ _).bind fun n1 n2 hn => ?_
  refine (SecurityAttributes.ofElement_alike h _ _).bind ?_
  rintro a _ rfl
  refine Alike.checked (k := fun (c : SubjectCoverage) _ => { c with warnings := c.findings })
    rules_steady (fun _ _ => rfl) ?_ _ _
  change SubjectCoverage.mk ⟨_, _, _⟩ _ _ _ _ _ = SubjectCoverage.mk ⟨_, _, _⟩ _ _ _ _ _
  simp only [h, hk, hcat, hm, hn, id]

end SubjectCoverage

namespace VirtualCoverage

instance : Restyled VirtualCoverage where
  restyle p c := { c with toBase := c.toBase.restyle p }
  lines_restyle p c stem index := by simp [Component.lines]

theorem beq_restyle (a b : VirtualCoverage) : (restyle p a == restyle p b) = (a == b) := by
  cases a
  cases b
  exact congrArg (· && _) (Base.beq_restyle p _ _)

theorem rules_steady : Steady (restyle p) rules := by
  intro c r
  simp [rules, restyle]

theorem ofElement_alike (h : e.restyle p = e'.restyle p) :
    Alike (restyle p) (ofElement ctx v e) (ofElement ctx v e') := by
  refine (SecurityAttributes.ofElement_alike h _ _).bind ?_
  rintro a _ rfl
  refine Alike.checked (k := fun (c : VirtualCoverage) _ => { c with warnings := c.findings })
    rules_steady (fun _ _ => rfl) ?_ _ _
  simp only [restyle, Base.restyle, h, Element.own_congr h, id]

end VirtualCoverage

namespace TimeBound

/-- The bound with the prefixes of its element changed. -/
def restyle (p : Option String → Option String) : TimeBound → TimeBound
  | exact value => exact value
  | approximate date => approximate (Restyled.restyle p date)

theorem beq_restyle (a b : TimeBound) : (a.restyle p == b.restyle p) = (a == b) := by
  cases a <;> cases b <;> first | rfl | exact ApproximableDate.beq_restyle _ _

end TimeBound

namespace TemporalCoverage

section Bounds

variable (o : Option TimeBound)

@[simp]
theorem exactText_restyle : exactText (o.map (·.restyle p)) = exactText o := by
  obtain _ | (_ | _) := o <;> rfl

@[simp]
theorem boundLines_restyle (stem localName : String) :
    boundLines stem localName (o.map (·.restyle p)) = boundLines stem localName o := by
  obtain _ | (_ | date) := o
  · rfl
  · rfl
  · exact Restyled.lines_restyle p date stem ""

theorem checkFit_restyle (b : Base) (t : TimeBound) {u : Unit} :
    checkFit (b.restyle p) (t.restyle p) = .ok u ↔ checkFit b t = .ok u := by
  cases t with
  | exact value => rfl
  | approximate date => simp [checkFit, TimeBound.restyle, Restyled.restyle]

end Bounds

instance : Restyled TemporalCoverage where
  restyle p c := { c with
    toBase := c.toBase.restyle p
    start := c.start.map (·.restyle p)
    finish := c.finish.map (·.restyle p) }
  lines_restyle p c stem index := by
    simp [Component.lines]
    rfl

theorem beq_restyle (a b : TemporalCoverage) : (restyle p a == restyle p b) = (a == b) := by
  obtain ⟨b1, g1, s1, f1, x1⟩ := a
  obtain ⟨b2, g2, s2, f2, x2⟩ := b
  change (_ == _ && (_ == _ && (_ == _ && (_ == _ && _ == _)))) =
    (_ == _ && (_ == _ && (_ == _ && (_ == _ && _ == _))))
  rw [Base.beq_restyle, beq_optionMap TimeBound.beq_restyle, beq_optionMap TimeBound.beq_restyle]

theorem contentRules_restyle (c : TemporalCoverage) (holder : Element) {u : Unit} :
    (restyle p c).contentRules (holder.restyle p) = .ok u ↔ c.contentRules holder = .ok u := by
  have hbounds : ([c.start.map (·.restyle p), c.finish.map (·.restyle p)].filterMap id) =
      ([c.start, c.finish].filterMap id).map (·.restyle p) := by
    cases c.start <;> cases c.finish <;> rfl
  have hrestyle : restyle p c = { c with
    toBase := c.toBase.restyle p
    start := c.start.map (·.restyle p)
    finish := c.finish.map (·.restyle p) } := rfl
  simp only [contentRules, hrestyle, hbounds, Element.ownChildren_restyle, List.length_map,
    exactText_restyle, Base.version_restyle, bind_ok]
  refine exists_congr fun _ => and_congr Iff.rfl ?_
  split <;>
    simp only [bind_ok, forM_ok, List.mem_map, forall_exists_index, and_imp,
      forall_apply_eq_imp_iff₂, checkFit_restyle]

theorem rules_steady : Steady (restyle p) rules := by
  intro c r
  cases hm : c.element.holder? c.version wrapper with
  | none => simp [rules, restyle, hm]
  | some holder =>
    have hh : (restyle p c).element.holder? (restyle p c).version wrapper =
        some (holder.restyle p) := by
      change (c.element.restyle p).holder? c.version wrapper = _
      rw [Element.holder?_restyle, hm, Option.map_some]
    simp only [rules, hm, hh, bind_ok, withinHolder_ok, contentRules_restyle]
    simp [restyle]

theorem readBoundIn_alike (h : e.restyle p = e'.restyle p) (exact approximate : String) :
    Alike (Option.map (·.restyle p)) (readBoundIn ctx v (e.holder? v wrapper) exact approximate)
      (readBoundIn ctx v (e'.holder? v wrapper) exact approximate) := by
  obtain ⟨hn, hn'⟩ | ⟨c, c', hc, hc', hcc⟩ := Element.holder?_cases h v wrapper
  · rw [hn, hn']
    exact .of_eq rfl
  · rw [hc, hc']
    refine Alike.withinHolder ?_ _ _ _
    have hx := Element.map_ownChild?_congr hcc (Element.content_restyle p) exact
    unfold readBound
    cases h1 : c.ownChild? exact with
    | some x =>
      rw [h1] at hx
      obtain ⟨y, hy, hxy⟩ := Option.map_eq_some_iff.1 hx.symm
      rw [hy]
      exact .ok (by rw [hxy])
    | none =>
      rw [h1] at hx
      rw [Option.map_eq_none_iff.1 hx.symm]
      refine (Alike.readOption (Element.ownChild?_congr hcc approximate) fun _ _ =>
        ApproximableDate.ofElement_alike).map fun a b hab => ?_
      have happ := congrArg (Option.map TimeBound.approximate) hab
      rw [Option.map_map, Option.map_map] at happ
      rw [Option.map_map, Option.map_map]
      exact happ

theorem ofElement_alike (h : e.restyle p = e'.restyle p) :
    Alike (restyle p) (ofElement ctx v e) (ofElement ctx v e') := by
  have hname : ((e.holder? v wrapper).bind (·.ownChild? "name")).map (·.content) =
      ((e'.holder? v wrapper).bind (·.ownChild? "name")).map (·.content) := by
    obtain ⟨hn, hn'⟩ | ⟨c, c', hc, hc', hcc⟩ := Element.holder?_cases h v wrapper
    · rw [hn, hn']
    · rw [hc, hc', Option.bind_some, Option.bind_some]
      exact Element.map_ownChild?_congr hcc (Element.content_restyle p) "name"
  refine ((readBoundIn_alike h _ _).within _ _).bind fun s1 s2 hs => ?_
  refine ((readBoundIn_alike h _ _).within _ _).bind fun f1 f2 hf => ?_
  refine (SecurityAttributes.ofElement_alike h _ _).bind ?_
  rintro a _ rfl
  refine Alike.checked (k := fun (c : TemporalCoverage) _ => { c with warnings := c.findings })
    rules_steady (fun _ _ => rfl) ?_ _ _
  change TemporalCoverage.mk ⟨_, _, _⟩ _ _ _ _ = TemporalCoverage.mk ⟨_, _, _⟩ _ _ _ _
  simp only [h, hname, hs, hf, id]

end TemporalCoverage

end DiscoveryMetadata
