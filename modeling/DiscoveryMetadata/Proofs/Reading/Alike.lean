import DiscoveryMetadata.Attributes.Extensible
import DiscoveryMetadata.Attributes.Link
import DiscoveryMetadata.Attributes.Notice
import DiscoveryMetadata.Attributes.Srs
import DiscoveryMetadata.Proofs.Outcome
import DiscoveryMetadata.Proofs.Xml.Restyle
/-
  Reading alike elements.

  Components keep the elements they are read from, and so a component changes when the prefixes of
  its element do; `Base.restyle` says how. `Alike f x y` relates the outcomes of two readings: both
  are refused, or both give a value and the values agree after `f`. Each step that readers are
  chained of keeps that relation, and `Alike.checked` says so of the last one, the check of the
  rules, where these do not look at prefixes (`Steady`).

  The checks of names, of children and of versions say the same of elements that differ in their
  prefixes, although they may word a fault in another way. The groups of attributes are read alike:
  all but the extensible ones are the same groups.
-/
namespace DiscoveryMetadata

open Xml (Element)

/-- What a component has, with the prefixes of its element changed and without its warnings. -/
def Base.restyle (p : Option String → Option String) (b : Base) : Base :=
  ⟨b.element.restyle p, b.version, []⟩

/-- The rules say the same of a component whether or not `f` is applied to it. -/
def Steady {α ρ : Type} (f : α → α) (rules : α → Outcome ρ) : Prop :=
  ∀ c r, rules (f c) = .ok r ↔ rules c = .ok r

/-- Both are refused, or both are values that agree after `f`. -/
def Alike {α β : Type} (f : α → β) (x y : Outcome α) : Prop := x.toOption.map f = y.toOption.map f

section Places

variable {α : Type} {x : Outcome α}

theorem toOption_within (n : String) : (within n x).toOption = x.toOption := by cases x <;> rfl

theorem toOption_withinHolder (e : Element) (w : String) :
    (withinHolder e w x).toOption = x.toOption := by
  unfold withinHolder
  split
  · exact toOption_within e.writtenName
  · rfl

end Places

namespace Alike

variable {α β γ δ : Type} {f : α → γ} {g : β → δ} {x y : Outcome α} {a b : α}

theorem ok (h : f a = f b) : Alike f (.ok a) (.ok b) := congrArg some h

theorem error (s t : Fault) : Alike f (.error s) (.error t) := rfl

theorem of_eq (h : x = y) : Alike f x y := by rw [Alike, h]

/-- The second reading gives a value if the first does. -/
theorem exists_ok (h : Alike f x y) (hx : x = .ok a) : ∃ b, y = .ok b ∧ f b = f a := by
  rw [Alike, hx] at h
  obtain ⟨b, hb, hf⟩ := Option.map_eq_some_iff.1 h.symm
  exact ⟨b, toOption_ok.1 hb, hf⟩

theorem bind {k l : α → Outcome β} (h : Alike f x y)
    (hk : ∀ a b, f a = f b → Alike g (k a) (l b)) : Alike g (x >>= k) (y >>= l) := by
  cases x with
  | error s =>
    cases y with
    | error t => exact .error s t
    | ok b => cases h
  | ok a =>
    cases y with
    | error t => cases h
    | ok b => exact hk a b (Option.some.inj h)

theorem map {k : α → β} (h : Alike f x y) (hk : ∀ a b, f a = f b → g (k a) = g (k b)) :
    Alike g (x.map k) (y.map k) := by
  cases x with
  | error s =>
    cases y with
    | error t => exact .error s t
    | ok b => cases h
  | ok a =>
    cases y with
    | error t => cases h
    | ok b => exact .ok (hk a b (Option.some.inj h))

theorem within (h : Alike f x y) (m n : String) :
    Alike f (DiscoveryMetadata.within m x) (DiscoveryMetadata.within n y) := by
  rw [Alike, toOption_within, toOption_within]
  exact h

theorem withinHolder (h : Alike f x y) (d e : Element) (w : String) :
    Alike f (DiscoveryMetadata.withinHolder d w x) (DiscoveryMetadata.withinHolder e w y) := by
  rw [Alike, toOption_withinHolder, toOption_withinHolder]
  exact h

/-- The check of rules that say the same of both components. -/
theorem checked {ρ : Type} {f : α → α} {rules : α → Outcome ρ} {k : α → ρ → α} {c c' : α}
    (hrules : Steady f rules) (hk : ∀ c r, f (k c r) = f c) (h : f c = f c') (m n : String) :
    Alike f (do let r ← DiscoveryMetadata.within m (rules c); return k c r)
      (do let r ← DiscoveryMetadata.within n (rules c'); return k c' r) := by
  have hiff : ∀ r, rules c = .ok r ↔ rules c' = .ok r := fun r => by
    rw [← hrules c, h, hrules c']
  have hsame : Alike id (rules c) (rules c') := by
    cases hc : rules c with
    | ok r =>
      rw [(hiff r).1 hc]
      exact .ok rfl
    | error s =>
      cases hc' : rules c' with
      | ok r => cases hc.symm.trans ((hiff r).2 hc')
      | error t => exact .error s t
  refine (hsame.within m n).bind ?_
  rintro r _ rfl
  exact .ok (by rw [hk, hk, h])

end Alike

section Lists

variable {α γ : Type} {f : α → γ} {read : Context → Version → Element → Outcome α}
  {ctx : Context} {v : Version} {p : Option String → Option String}

theorem Alike.readAll {es es' : List Element}
    (h : es.map (·.restyle p) = es'.map (·.restyle p))
    (hf : ∀ e e' : Element, e.restyle p = e'.restyle p → Alike f (read ctx v e) (read ctx v e')) :
    Alike (List.map f) (DiscoveryMetadata.readAll read ctx v es)
      (DiscoveryMetadata.readAll read ctx v es') := by
  induction es generalizing es' with
  | nil =>
    obtain rfl := List.map_eq_nil_iff.1 h.symm
    exact .of_eq rfl
  | cons e r ih =>
    obtain ⟨e', r', rfl, he, hr⟩ := List.map_eq_cons_iff.1 h.symm
    rw [DiscoveryMetadata.readAll, DiscoveryMetadata.readAll, List.mapM_cons, List.mapM_cons]
    refine (hf e e' he.symm).bind fun a b hab => ?_
    refine (ih hr.symm).bind fun as bs habs => ?_
    exact .ok (by rw [List.map_cons, List.map_cons, hab, habs])

theorem Alike.readOption {o o' : Option Element}
    (h : o.map (·.restyle p) = o'.map (·.restyle p))
    (hf : ∀ e e' : Element, e.restyle p = e'.restyle p → Alike f (read ctx v e) (read ctx v e')) :
    Alike (Option.map f) (DiscoveryMetadata.readOption read ctx v o)
      (DiscoveryMetadata.readOption read ctx v o') := by
  cases o with
  | none =>
    obtain rfl := Option.map_eq_none_iff.1 h.symm
    exact .of_eq rfl
  | some e =>
    obtain ⟨e', rfl, he⟩ := Option.map_eq_some_iff.1 h.symm
    exact (hf e e' he.symm).map fun a b hab => congrArg some hab

end Lists

variable {p : Option String → Option String} {e e' : Element} {ctx : Context} {v : Version}

section Checks

variable (p e) (l : String) (b : Base)

@[simp]
theorem requireDdmsUri_restyle : requireDdmsUri (e.restyle p) v = requireDdmsUri e v := by
  rw [requireDdmsUri, Element.name_restyle]
  rfl

@[simp]
theorem requireDdms_restyle : requireDdms (e.restyle p) v l = requireDdms e v l := by
  rw [requireDdms, Element.name_restyle]
  rfl

@[simp]
theorem requireIn_restyle (s : Schema) : requireIn (e.restyle p) v s l = requireIn e v s l := by
  rw [requireIn, Element.name_restyle]
  rfl

@[simp]
theorem requireChildren_restyle {low high : Nat} {u : Unit} :
    requireChildren (e.restyle p) l low high = .ok u ↔ requireChildren e l low high = .ok u := by
  rw [requireChildren_ok, requireChildren_ok, Element.ownChildren_restyle, List.length_map]

@[simp]
theorem Base.version_restyle : (b.restyle p).version = b.version := rfl

@[simp]
theorem Base.element_restyle : (b.restyle p).element = b.element.restyle p := rfl

@[simp]
theorem Base.localName_restyle : (b.restyle p).localName = b.localName :=
  Element.localName_restyle p b.element

@[simp]
theorem Base.lineName_restyle (stem index : String) :
    (b.restyle p).lineName stem index = b.lineName stem index := by
  rw [lineName, localName_restyle, lineName]

@[simp]
theorem Base.requireSameVersions_restyle (cs : List Base) {u : Unit} :
    b.requireSameVersions (cs.map (·.restyle p)) = .ok u ↔ b.requireSameVersions cs = .ok u := by
  simp

theorem Base.beq_restyle (c : Base) : (b.restyle p == c.restyle p) = (b == c) := by
  change (b.element.restyle p).name.sameExpanded (c.element.restyle p).name = _
  rw [Element.name_restyle, Element.name_restyle]
  rfl

end Checks

section Groups

theorem SecurityAttributes.ofElement_congr (h : e.restyle p = e'.restyle p) :
    ofElement ctx v e = ofElement ctx v e' := by
  rw [ofElement, ofElement, Element.attribute?_congr h]

theorem SecurityAttributes.ofElement_alike (h : e.restyle p = e'.restyle p) (m n : String) :
    Alike id (within m (ofElement ctx v e)) (within n (ofElement ctx v e')) :=
  (Alike.of_eq (ofElement_congr h)).within m n

theorem NoticeAttributes.ofElement_alike (h : e.restyle p = e'.restyle p) (m n : String) :
    Alike id (within m (ofElement ctx v e)) (within n (ofElement ctx v e')) := by
  have hsame : ofElement ctx v e = ofElement ctx v e' := by
    simp only [ofElement, readExternal, Element.attribute?_congr h, Element.attributeText_congr h]
  exact (Alike.of_eq hsame).within m n

theorem LinkAttributes.ofElement_alike (h : e.restyle p = e'.restyle p) (m n : String) :
    Alike id (within m (ofElement v e)) (within n (ofElement v e')) := by
  have hsame : ofElement v e = ofElement v e' := by
    rw [ofElement, ofElement, Element.attributeText_congr h]
  exact (Alike.of_eq hsame).within m n

theorem SrsAttributes.ofElement_alike (h : e.restyle p = e'.restyle p) (m n : String) :
    Alike id (within m (ofElement e)) (within n (ofElement e')) := by
  have hsame : ofElement e = ofElement e' := by
    simp only [ofElement, readDimension, Element.attribute?_congr h]
  exact (Alike.of_eq hsame).within m n

namespace ExtensibleAttributes

/-- The attributes with their prefixes changed. -/
def restyle (p : Option String → Option String) (a : ExtensibleAttributes) : ExtensibleAttributes :=
  ⟨a.version, a.attributes.map (·.restyle p)⟩

theorem ofElement_restyle (p : Option String → Option String) (v : Version) (e : Element) :
    (ofElement v e).restyle p = ofElement v (e.restyle p) := by
  have hout : ∀ a : Xml.Attribute, isOutside v (a.restyle p) = isOutside v a := fun _ => rfl
  rw [ofElement, ofElement, Element.attributes_restyle, List.filter_map]
  simp only [restyle, Function.comp_def, hout]

theorem ofElement_congr (h : e.restyle p = e'.restyle p) :
    (ofElement v e).restyle p = (ofElement v e').restyle p := by
  rw [ofElement_restyle, h, ofElement_restyle]

@[simp]
theorem isEmpty_restyle (a : ExtensibleAttributes) : (a.restyle p).isEmpty = a.isEmpty := by
  simp [isEmpty, restyle]

@[simp]
theorem lines_restyle (a : ExtensibleAttributes) (stem : String) :
    (a.restyle p).lines stem = a.lines stem := by
  simp [lines, restyle, List.flatMap_map]

theorem restyle_id (a : ExtensibleAttributes) : a.restyle id = a := by
  obtain ⟨version, attributes⟩ := a
  have hid : (fun a : Xml.Attribute => a.restyle id) = id := rfl
  rw [restyle, hid, List.map_id]

end ExtensibleAttributes

end Groups

/-- The kinds of components whose elements can be written with other prefixes, which does not show
in the lines. -/
class Restyled (α : Type) [Component α] where
  /-- The component with the prefixes of all its elements changed. -/
  restyle : (Option String → Option String) → α → α
  lines_restyle : ∀ p c stem index,
    Component.lines (restyle p c) stem index = Component.lines c stem index

export Restyled (restyle)

attribute [simp] Restyled.lines_restyle

section Collections

variable {α : Type} {f : α → α}

theorem beq_map_of_mem [BEq α] {as bs : List α}
    (h : ∀ a ∈ as, ∀ b ∈ bs, (f a == f b) = (a == b)) : (as.map f == bs.map f) = (as == bs) := by
  induction as generalizing bs with
  | nil => cases bs <;> rfl
  | cons a r ih =>
    cases bs with
    | nil => rfl
    | cons b s =>
      rw [List.map_cons, List.map_cons, List.cons_beq_cons, List.cons_beq_cons,
        h a (.head r) b (.head s), ih fun x hx y hy => h x (.tail a hx) y (.tail b hy)]

theorem beq_map [BEq α] (h : ∀ a b, (f a == f b) = (a == b)) (as bs : List α) :
    (as.map f == bs.map f) = (as == bs) :=
  beq_map_of_mem fun a _ b _ => h a b

theorem beq_optionMap [BEq α] (h : ∀ a b, (f a == f b) = (a == b)) (o q : Option α) :
    (o.map f == q.map f) = (o == q) := by
  cases o <;> cases q <;> first | rfl | exact h _ _

variable [Component α] [Restyled α]

@[simp]
theorem Component.linesOfAll_restyle (cs : List α) (stem : String) :
    Component.linesOfAll (cs.map (restyle p)) stem = Component.linesOfAll cs stem := by
  rw [linesOfAll, linesOfAll, List.zipIdx_map, List.flatMap_map]
  simp

@[simp]
theorem Component.linesOfOption_restyle (o : Option α) (stem : String) :
    Component.linesOfOption (o.map (restyle p)) stem = Component.linesOfOption o stem := by
  cases o with
  | none => rfl
  | some c => exact Restyled.lines_restyle p c stem ""

end Collections

end DiscoveryMetadata
