import DiscoveryMetadata.Proofs.Keeping.Management
import DiscoveryMetadata.Proofs.Keeping.Protection
import DiscoveryMetadata.Proofs.Keeping.Spaces
import DiscoveryMetadata.Resource
import Mathlib.Data.Bool.Basic
/-
  Components of a resource, made again from their drafts.

  A component of whatever kind that was read and is kept (`TopLevel.Kept`) is made again
  (`ofElement_remade`), equal to the one that was read and of the version: the two match. Components
  that match have the same rank and name, and the same classification for the roll-up. That is all
  that a resource asks of its components.
-/
namespace DiscoveryMetadata

open Buildable
open Xml (Element QName)

variable {ctx : Context} {v : Version} {e : Element}

namespace ExtensibleElement

/-- An element is kept if it is read again from its XML, and written as before. -/
def Kept (c : ExtensibleElement) : Prop :=
  ∃ e ∈ (Element.ofXml c.element.toXml).toOption,
    e.name.sameExpanded c.element.name = true ∧ e.toXml = c.element.toXml

instance (c : ExtensibleElement) : Decidable c.Kept :=
  match h : (Element.ofXml c.element.toXml).toOption with
  | none => isFalse fun ⟨_, he, _⟩ => by simp [h] at he
  | some e =>
    decidable_of_iff (e.name.sameExpanded c.element.name = true ∧ e.toXml = c.element.toXml)
      (by simp [Kept, h])

theorem renews {c : ExtensibleElement} (h : ofElement ctx v e = .ok c) (hk : c.Kept) :
    ∃ n, Renews ctx v n c.toDraft c := by
  simp only [ofElement, bind_ok, check_ok, exists_unit, pure_ok, rules, forbid_ok] at h
  obtain ⟨hr, rfl⟩ := h
  obtain ⟨e', he', hname, hxml⟩ := hk
  have huri : e'.uri = e.uri := by
    rw [QName.sameExpanded, Bool.and_eq_true, beq_iff_eq, beq_iff_eq] at hname
    rw [Element.uri, Element.uri, hname.1]
  refine ⟨_, _, bind_ok.2 ⟨e', toOption_ok.1 he', bind_ok.2 ⟨(), check_ok.2 ?rules, rfl⟩⟩, ?same,
    rfl, rfl⟩
  case rules =>
    rw [rules, forbid_ok, huri]
    exact hr
  case same =>
    change (_ && _) = true
    simp [hname, hxml]

end ExtensibleElement

namespace TopLevel

section Matching

variable {t' t : TopLevel} {ts' ts : List TopLevel}

/-- The components are equal, and the first is of the version. -/
structure Matches (v : Version) (t' t : TopLevel) : Prop where
  same : (t' == t) = true
  version : t'.base.version = v

/-- Components are equal only if they are of one kind, and their bases are equal. -/
theorem base_of_beq (h : (t' == t) = true) : (t'.base == t.base) = true := by
  cases t' <;> cases t <;> first
    | exact absurd h Bool.false_ne_true
    | exact Bool.and_elim_left h

theorem security?_of_beq (h : (t' == t) = true) : (t'.security? == t.security?) = true := by
  -- the security attributes are the last field of every kind that has them
  cases t' <;> cases t <;> first
    | exact absurd h Bool.false_ne_true
    | rfl
    | exact Bool.and_elim_right (Bool.and_elim_right (Bool.and_elim_right h))
    | exact Bool.and_elim_right (Bool.and_elim_right (Bool.and_elim_right (Bool.and_elim_right h)))
    | exact Bool.and_elim_right (Bool.and_elim_right (Bool.and_elim_right (Bool.and_elim_right
        (Bool.and_elim_right h))))
    | exact Bool.and_elim_right (Bool.and_elim_right (Bool.and_elim_right (Bool.and_elim_right
        (Bool.and_elim_right (Bool.and_elim_right h)))))

theorem classification_of_beq {a b : SecurityAttributes} (h : (a == b) = true) :
    a.classification = b.classification := by
  have hvalues : a.values = b.values := eq_of_beq h
  rw [SecurityAttributes.classification, SecurityAttributes.get, hvalues,
    SecurityAttributes.classification, SecurityAttributes.get]

theorem countedClassification?_of_beq (h : (t' == t) = true) :
    Resource.countedClassification? t' = Resource.countedClassification? t := by
  have hs := security?_of_beq h
  have hbind : (t'.security?.bind fun a =>
      if a.classification.isEmpty then none else some a.classification) =
      t.security?.bind fun a =>
        if a.classification.isEmpty then none else some a.classification := by
    cases h' : t'.security? <;> cases h : t.security? <;> simp only [h', h] at hs
    · rfl
    · cases hs
    · cases hs
    · rw [Option.bind_some, Option.bind_some, classification_of_beq hs]
  cases t' <;> cases t <;> first
    | exact absurd h Bool.false_ne_true
    | exact hbind
    | rfl

theorem Matches.isNamed (h : Matches v t' t) (u l : String) :
    t'.base.element.name.isNamed u l = t.base.element.name.isNamed u l := by
  have hname : t'.base.element.name.sameExpanded t.base.element.name = true := base_of_beq h.same
  rw [QName.sameExpanded, Bool.and_eq_true, beq_iff_eq, beq_iff_eq] at hname
  rw [QName.isNamed, QName.isNamed, hname.1, hname.2]

/-- What is said alike of components that match makes the same list. -/
theorem map_of_matches {β : Type} {f : TopLevel → β} (hf : ∀ {t' t}, Matches v t' t → f t' = f t)
    (h : List.Forall₂ (Matches v) ts' ts) : ts'.map f = ts.map f := by
  induction h with
  | nil => rfl
  | cons h _ ih => rw [List.map_cons, List.map_cons, hf h, ih]

theorem beq_of_matches (h : List.Forall₂ (Matches v) ts' ts) : (ts' == ts) = true := by
  induction h with
  | nil => rfl
  | cons h _ ih => rw [List.cons_beq_cons, h.same, ih, Bool.and_self]

theorem countP_of_matches {p : TopLevel → Bool} (hp : ∀ {t' t}, Matches v t' t → p t' = p t)
    (h : List.Forall₂ (Matches v) ts' ts) : ts'.countP p = ts.countP p := by
  have hmap := map_of_matches hp h
  have hcount : ∀ us : List TopLevel, us.countP p = (us.map p).countP id := fun us => by
    rw [List.countP_map, Function.id_comp]
  rw [hcount, hcount, hmap]

end Matching

section Remaking

/-- A draft of the component is not empty, and leads to one like it. -/
def Remakes {δ α : Type} [BEq α] [Component α] [Buildable δ α] (ctx : Context) (v : Version)
    (d : δ) (c : α) : Prop := isEmpty d = false ∧ ∃ n, Renews ctx v n d c

/-- So it is for the component of whatever kind. -/
def Remade (ctx : Context) (v : Version) : TopLevel → Prop
  | identifier c => Remakes ctx v c.toDraft c
  | caption c => Remakes ctx v c.toDraft c
  | language c => Remakes ctx v c.toDraft c
  | dates c => Remakes ctx v c.toDraft c
  | rights c => Remakes ctx v c.toDraft c
  | source c => Remakes ctx v c.toDraft c
  | resourceType c => Remakes ctx v c.toDraft c
  | producer c => Remakes ctx v c.toDraft c
  | format c => Remakes ctx v c.toDraft c
  | subject c => Remakes ctx v c.toDraft c
  | virtual c => Remakes ctx v c.toDraft c
  | temporal c => Remakes ctx v c.toDraft c
  | geospatial c => Remakes ctx v c.toDraft c
  | related c => Remakes ctx v c.toDraft c
  | management c => Remakes ctx v c.toDraft c
  | security c => Remakes ctx v c.toDraft c
  | extensible c => Remakes ctx v c.toDraft c

/-- The draft of the component is not empty, and nothing is in it that drafts do not hold. -/
def Kept : TopLevel → Prop
  | identifier c => isEmpty c.toDraft = false
  | caption c => isEmpty c.toDraft = false ∧ c.Kept
  | language c => isEmpty c.toDraft = false
  | dates c => isEmpty c.toDraft = false ∧ c.Kept
  | rights c => isEmpty c.toDraft = false
  | source c => isEmpty c.toDraft = false ∧ c.Kept
  | resourceType c => isEmpty c.toDraft = false ∧ c.Kept
  | producer c => isEmpty c.toDraft = false ∧ c.Kept
  | format c => isEmpty c.toDraft = false ∧ c.Kept
  | subject c => isEmpty c.toDraft = false ∧ c.Kept
  | virtual c => isEmpty c.toDraft = false ∧ c.Kept
  | temporal c => isEmpty c.toDraft = false ∧ c.Kept
  | geospatial c => isEmpty c.toDraft = false ∧ c.Kept
  | related c => isEmpty c.toDraft = false ∧ c.Kept
  | management c => isEmpty c.toDraft = false ∧ c.Kept
  | security c => isEmpty c.toDraft = false ∧ c.Kept
  | extensible c => isEmpty c.toDraft = false ∧ c.Kept

instance : DecidablePred Kept := fun t => by
  cases t <;> unfold Kept <;> infer_instance

theorem map_remade {α : Type} {w : α → TopLevel} {x : Outcome α} {t : TopLevel}
    (hx : ∀ c, x = .ok c → (w c).Kept → (w c).Remade ctx v) (h : x.map w = .ok t)
    (hk : t.Kept) : t.Remade ctx v := by
  obtain ⟨c, hc, rfl⟩ := map_ok.1 h
  exact hx c hc hk

theorem ofDdmsElement_remade {t : TopLevel} (h : ofDdmsElement ctx v e = .ok t) (hk : t.Kept) :
    t.Remade ctx v := by
  unfold ofDdmsElement at h
  split at h
  · exact map_remade (w := identifier) (fun _ hc hk => ⟨hk, _, Identifier.renews hc⟩) h hk
  · exact map_remade (w := language) (fun _ hc hk => ⟨hk, _, Language.renews hc⟩) h hk
  · exact map_remade (w := dates) (fun _ hc hk => ⟨hk.1, _, Dates.renews hc hk.2⟩) h hk
  · exact map_remade (w := rights) (fun _ hc hk => ⟨hk, _, Rights.renews hc⟩) h hk
  · exact map_remade (w := source) (fun _ hc hk => ⟨hk.1, _, Source.renews hc hk.2⟩) h hk
  · exact map_remade (w := resourceType)
      (fun _ hc hk => ⟨hk.1, _, ResourceType.renews hc hk.2⟩) h hk
  · exact map_remade (w := format) (fun _ hc hk => ⟨hk.1, _, Format.renews hc hk.2⟩) h hk
  · exact map_remade (w := subject) (fun _ hc hk => ⟨hk.1, _, SubjectCoverage.renews hc hk.2⟩) h hk
  · exact map_remade (w := virtual) (fun _ hc hk => ⟨hk.1, _, VirtualCoverage.renews hc hk.2⟩) h hk
  · exact map_remade (w := temporal)
      (fun _ hc hk => ⟨hk.1, _, TemporalCoverage.renews hc hk.2⟩) h hk
  · exact map_remade (w := geospatial)
      (fun _ hc hk => ⟨hk.1, _, GeospatialCoverage.renews hc hk.2⟩) h hk
  · exact map_remade (w := security) (fun _ hc hk => ⟨hk.1, _, Security.renews hc hk.2⟩) h hk
  · split_ifs at h
    · exact map_remade (w := management) (fun _ hc hk => ⟨hk.1, _, Management.renews hc hk.2⟩) h hk
    · exact map_remade (w := related)
        (fun _ hc hk => ⟨hk.1, _, RelatedResource.renews hc hk.2⟩) h hk
    · exact map_remade (w := caption) (fun _ hc hk => ⟨hk.1, _, Caption.renews hc hk.2⟩) h hk
    · exact map_remade (w := producer) (fun _ hc hk => ⟨hk.1, _, ProducerRole.renews hc hk.2⟩) h hk

/-- A component that was read and is kept is made again from its draft. -/
theorem ofElement_remade {t : TopLevel} (h : ofElement ctx v e = .ok t) (hk : t.Kept) :
    t.Remade ctx v := by
  unfold ofElement at h
  split_ifs at h
  · exact ofDdmsElement_remade h hk
  · exact map_remade (w := extensible)
      (fun _ hc hk => ⟨hk.1, ExtensibleElement.renews hc hk.2⟩) h hk

end Remaking

section Holding

/-- Whatever comes out is a component with the element. -/
def Holds {α : Type} [Component α] (e : Element) (x : Outcome α) : Prop :=
  ∀ c, x = .ok c → (Component.base c).element = e

variable {α β : Type} [Component α]

theorem Holds.bind {x : Outcome β} {f : β → Outcome α} (h : ∀ b, Holds e (f b)) :
    Holds e (x >>= f) := fun c hc =>
  have ⟨b, _, hb⟩ := bind_ok.1 hc
  h b c hb

theorem Holds.pure {c : α} (h : (Component.base c).element = e) : Holds e (.ok c) := by
  rintro _ ⟨⟩
  exact h

theorem Holds.error {f : Fault} : Holds (α := α) e (.error f) := fun _ h => (error_ok.1 h).elim

theorem Holds.within {l : String} {x : Outcome α} (h : Holds e x) : Holds e (within l x) :=
  fun c hc => h c (within_ok.1 hc)

theorem Holds.map {w : α → TopLevel} {x : Outcome α} {t : TopLevel}
    (hw : ∀ c, (w c).base = Component.base c) (hx : Holds e x) (h : x.map w = .ok t) :
    t.base.element = e := by
  obtain ⟨c, hc, rfl⟩ := map_ok.1 h
  rw [hw]
  exact hx c hc

theorem holds_caption : Holds e (Caption.ofElement ctx v e) := by
  unfold Caption.ofElement
  split
  · exact .within .error
  · exact .bind fun _ => .bind fun _ => .pure rfl

theorem holds_producer : Holds e (ProducerRole.ofElement ctx v e) := by
  unfold ProducerRole.ofElement
  split
  · exact .within .error
  · exact .bind fun _ => .bind fun _ => .bind fun _ => .pure rfl

theorem holds_management : Holds e (Management.ofElement ctx v e) := by
  intro c h
  simp only [Management.ofElement, Management.checked, bind_ok, within_ok, check_ok, exists_unit,
    pure_ok] at h
  obtain ⟨_, ⟨_, -, _, -, _, -, _, -, _, -, rfl⟩, -, rfl⟩ := h
  rfl

theorem ofDdmsElement_element {t : TopLevel} (h : ofDdmsElement ctx v e = .ok t) :
    t.base.element = e := by
  unfold ofDdmsElement at h
  split at h
  · exact Holds.map (w := identifier) (fun _ => rfl) (.bind fun _ => .pure rfl) h
  · exact Holds.map (w := language) (fun _ => rfl) (.bind fun _ => .pure rfl) h
  · exact Holds.map (w := dates) (fun _ => rfl) (.bind fun _ => .bind fun _ => .pure rfl) h
  · exact Holds.map (w := rights) (fun _ => rfl) (.within <| .bind fun _ => .bind fun _ =>
      .bind fun _ => .bind fun _ => .pure rfl) h
  · exact Holds.map (w := source) (fun _ => rfl) (.bind fun _ => .bind fun _ => .pure rfl) h
  · exact Holds.map (w := resourceType) (fun _ => rfl) (.bind fun _ => .bind fun _ => .pure rfl) h
  · exact Holds.map (w := format) (fun _ => rfl) (.bind fun _ => .bind fun _ => .pure rfl) h
  · exact Holds.map (w := subject) (fun _ => rfl) (.bind fun _ => .bind fun _ => .bind fun _ =>
      .bind fun _ => .bind fun _ => .bind fun _ => .pure rfl) h
  · exact Holds.map (w := virtual) (fun _ => rfl) (.bind fun _ => .bind fun _ => .pure rfl) h
  · exact Holds.map (w := temporal) (fun _ => rfl) (.bind fun _ => .bind fun _ => .bind fun _ =>
      .bind fun _ => .pure rfl) h
  · exact Holds.map (w := geospatial) (fun _ => rfl) (.bind fun _ => .bind fun _ =>
      .bind fun _ => .bind fun _ => .pure rfl) h
  · exact Holds.map (w := security) (fun _ => rfl) (.bind fun _ => .bind fun _ => .bind fun _ =>
      .bind fun _ => .pure rfl) h
  · split_ifs at h
    · exact Holds.map (w := management) (fun _ => rfl) holds_management h
    · exact Holds.map (w := related) (fun _ => rfl) (.bind fun _ => .bind fun _ =>
        .bind fun _ => .pure rfl) h
    · exact Holds.map (w := caption) (fun _ => rfl) holds_caption h
    · exact Holds.map (w := producer) (fun _ => rfl) holds_producer h

/-- A component holds the element that it was read from. -/
theorem ofElement_element {t : TopLevel} (h : ofElement ctx v e = .ok t) : t.base.element = e := by
  unfold ofElement at h
  split_ifs at h
  · exact ofDdmsElement_element h
  · exact Holds.map (w := extensible) (fun _ => rfl) (.bind fun _ => .pure rfl) h

theorem readAll_elements {es : List Element} {ts : List TopLevel}
    (h : readAll ofElement ctx v es = .ok ts) : ts.map (·.base.element) = es := by
  have hread := readAll_ok.1 h
  clear h
  induction hread with
  | nil => rfl
  | cons h _ ih => rw [List.map_cons, ofElement_element h, ih]

end Holding

end TopLevel

end DiscoveryMetadata
