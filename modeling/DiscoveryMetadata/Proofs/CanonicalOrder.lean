import DiscoveryMetadata.Proofs.Keeping.Resource
/-
  The canonical order, in a resource and in its element.

  The components of a resource stand in the order of their ranks, those of one rank as they were
  given (`TopLevel.Arranges`); there is one list only that stands so (`Arranges.eq_inOrder`).
  Whether the element of the resource lists them in the same order is another matter
  (`Resource.Mirrors`): an element that was made for components does, an element that was read is
  kept as it was, so it does just if it came in that order.

  Since there is one order only, what a resource is made of can come in any other that keeps the
  components of one rank as they were.

  Main statements: `Resource.canonical_order`, for both ways to a resource, and
  `Resource.make_by_ranks`.
-/
namespace DiscoveryMetadata

open Xml (Element)

variable {ctx : Context} {v : Version} {e e' : Element}

namespace TopLevel

open Resource (ofRank ranks_flatten)

variable {ts us : List TopLevel}

instance (ts : List TopLevel) : Decidable (Sorted ts) :=
  inferInstanceAs (Decidable (ts.Pairwise fun s t => s.rank ≤ t.rank))

theorem ofRank_cons (t : TopLevel) (ts : List TopLevel) (n : Nat) :
    ofRank (t :: ts) n = if t.rank = n then t :: ofRank ts n else ofRank ts n := by
  by_cases h : t.rank = n <;> simp [ofRank, h]

/-- The components `us` are the components `ts` in the order of their ranks; those of one rank
keep their order. -/
structure Arranges (ts us : List TopLevel) : Prop where
  sorted : Sorted us
  stable : ∀ n, ofRank us n = ofRank ts n

/-- A component passes only those that rank lower, so none of its own rank. -/
theorem ofRank_place (t : TopLevel) (ts : List TopLevel) (n : Nat) :
    ofRank (place t ts) n = ofRank (t :: ts) n := by
  induction ts with
  | nil => rfl
  | cons s r ih =>
    unfold place
    split
    case isTrue => rfl
    case isFalse hts =>
      rw [ofRank_cons s, ih, ofRank_cons t, ofRank_cons t, ofRank_cons s]
      by_cases hn : t.rank = n
      · -- the component that was passed is of a lower rank, so it is not counted
        have hs : s.rank ≠ n := by omega
        rw [if_neg hs, if_neg hs]
      · rw [if_neg hn, if_neg hn]

theorem inOrder_arranges (ts : List TopLevel) : Arranges ts (inOrder ts) where
  sorted := inOrder_sorted ts
  stable n := by
    induction ts with
    | nil => rfl
    | cons t r ih =>
      calc ofRank (inOrder (t :: r)) n
          = ofRank (t :: inOrder r) n := ofRank_place t _ n
        _ = ofRank (t :: r) n := by rw [ofRank_cons, ofRank_cons, ih]

/-- There is one way to arrange components. -/
theorem Arranges.eq_inOrder (h : Arranges ts us) : us = inOrder ts := by
  have hranks : ofRank us = ofRank (inOrder ts) := by
    funext n
    rw [h.stable, (inOrder_arranges ts).stable]
  rw [← ranks_flatten h.sorted, hranks]
  exact ranks_flatten (inOrder_sorted ts)

theorem inOrder_eq_self : inOrder ts = ts ↔ Sorted ts := by
  constructor
  · intro h
    rw [← h]
    exact inOrder_sorted ts
  · exact inOrder_of_sorted

/-- Two lists come to the same order just if they have the same components of each rank, in the
same order. -/
theorem inOrder_eq_inOrder : inOrder us = inOrder ts ↔ ∀ n, ofRank us n = ofRank ts n := by
  constructor
  · intro h n
    rw [← (inOrder_arranges us).stable, h, (inOrder_arranges ts).stable]
  · intro h
    have harranges : Arranges ts (inOrder us) := {
      sorted := inOrder_sorted us
      stable := fun n => ((inOrder_arranges us).stable n).trans (h n) }
    exact harranges.eq_inOrder

/-- Components that were read from the same elements are the same. -/
theorem eq_of_elements (ht : ∀ t ∈ ts, ofElement ctx v t.base.element = .ok t)
    (hu : ∀ u ∈ us, ofElement ctx v u.base.element = .ok u)
    (h : us.map (·.base.element) = ts.map (·.base.element)) : us = ts := by
  have hread : ∀ {ws : List TopLevel}, (∀ w ∈ ws, ofElement ctx v w.base.element = .ok w) →
      (ws.map (·.base.element)).map (ofElement ctx v) = ws.map Except.ok := by
    intro ws hw
    rw [List.map_map]
    exact List.map_congr_left hw
  have hinjective : Function.Injective (Except.ok : TopLevel → Outcome TopLevel) := by
    intro s t hst
    exact Except.ok.inj hst
  apply List.map_injective_iff.2 hinjective
  rw [← hread hu, h, hread ht]

end TopLevel

namespace Resource

open TopLevel (Arranges Sorted ofRank_cons)

variable {r : Resource} {ts us : List TopLevel} {m : Markings} {s : SecurityAttributes}
  {n : NoticeAttributes} {x : ExtensibleAttributes}

/-- The element of the resource, which is what is written of it, holds the elements of its
components in their order. -/
def Mirrors (r : Resource) : Prop := r.element.children = r.components.map (·.base.element)

/-- Attributes leave the children of an element alone, so a resource that is made has those of its
components. -/
theorem make_mirrors (h : make ctx v ts m s n x = .ok r) : r.Mirrors := by
  obtain ⟨e, he, helement, -, -, -⟩ := make_heading h
  have hempty : e.children = [] := by
    rw [ExtensibleAttributes.foldlM_ok (ExtensibleAttributes.addTo_ok he)]
    simp [heading, Markings.put]
  rw [Mirrors, helement, Element.children_add, hempty, List.nil_append, (make_keeps h).2.1]

/-- What is read is kept in the order of the document, so it mirrors the components just if they
stand there in order. -/
theorem ReadFrom.mirrors_iff (h : ReadFrom ctx v e r)
    (hts : readAll TopLevel.ofElement ctx v e.children = .ok ts) : r.Mirrors ↔ Sorted ts := by
  obtain ⟨us, hus, hcomponents⟩ := h.components
  obtain rfl : us = ts := Except.ok.inj (hus.symm.trans hts)
  have hown : ∀ t ∈ us, TopLevel.ofElement ctx v t.base.element = .ok t := by
    refine readAll_all (fun e t ht => ?_) hts
    rw [TopLevel.ofElement_element ht]
    exact ht
  calc r.Mirrors
      ↔ us.map (·.base.element) = (TopLevel.inOrder us).map (·.base.element) := by
        rw [Mirrors, h.element, hcomponents, TopLevel.readAll_elements hts]
    _ ↔ TopLevel.inOrder us = us := by
        constructor
        · intro hsame
          apply TopLevel.eq_of_elements hown _ hsame.symm
          intro t ht
          exact hown t (TopLevel.mem_inOrder.1 ht)
        · intro hsame
          rw [hsame]
    _ ↔ Sorted us := TopLevel.inOrder_eq_self

/-- The components of a resource are arranged, however it came about. The element of one that was
made lists them so; the element of one that was read lists them as the document does, which is the
same just if the document has them in order. -/
theorem canonical_order (ctx : Context) (v : Version) :
    (∀ ts m s n x r, make ctx v ts m s n x = .ok r → Arranges ts r.components ∧ r.Mirrors) ∧
    (∀ e r, ofElement ctx v e = .ok r →
      ∃ ts, readAll TopLevel.ofElement ctx v e.children = .ok ts ∧ Arranges ts r.components ∧
        r.element.children = ts.map (·.base.element) ∧ (r.Mirrors ↔ Sorted ts)) := by
  refine ⟨?made, ?read⟩
  case made =>
    intro ts m s n x r h
    obtain ⟨-, hcomponents, -⟩ := make_keeps h
    rw [hcomponents]
    exact ⟨TopLevel.inOrder_arranges ts, make_mirrors h⟩
  case read =>
    intro e r h
    have hread := readFrom h
    obtain ⟨ts, hts, hcomponents⟩ := hread.components
    refine ⟨ts, hts, ?_, ?_, hread.mirrors_iff hts⟩
    · rw [hcomponents]
      exact TopLevel.inOrder_arranges ts
    · rw [hread.element, TopLevel.readAll_elements hts]

/-- A resource that was read in order, and one that is made of the same components the other way
round. -/
theorem canonical_order_about :
    ∃ r r', ofElement {} .v5_0 (about []) = .ok r ∧ r.Mirrors ∧
      make {} .v5_0 r.components.reverse r.markings r.security r.notice r.extensible = .ok r' ∧
      Arranges r.components.reverse r'.components ∧ r'.Mirrors := by
  have hagain : ((ofElement {} .v5_0 (about [])).toOption.bind fun r =>
      (make {} .v5_0 r.components.reverse r.markings r.security r.notice
        r.extensible).toOption.map fun _ => ()).isSome = true := by decide +kernel
  have hsorted : (readAll TopLevel.ofElement {} .v5_0 (about []).children).toOption.map
      (fun ts => decide (Sorted ts)) = some true := by decide +kernel
  obtain ⟨hmade, hread⟩ := canonical_order {} .v5_0
  obtain ⟨_, hsome⟩ := Option.isSome_iff_exists.1 hagain
  obtain ⟨r, hr, hsome⟩ := Option.bind_eq_some_iff.1 hsome
  obtain ⟨r', hr', -⟩ := Option.map_eq_some_iff.1 hsome
  have hr := toOption_ok.1 hr
  have hr' := toOption_ok.1 hr'
  obtain ⟨ts, hts, -, -, hmirrors⟩ := hread _ r hr
  rw [toOption_ok.2 hts] at hsorted
  exact ⟨r, r', hr, hmirrors.2 (of_decide_eq_true (Option.some.inj hsorted)), hr',
    hmade _ _ _ _ _ _ hr'⟩

/-- The same element with its children the other way round. -/
def aboutReversed : Element := { about [] with children := (about []).children.reverse }

/-- A resource that is read from a document out of order keeps its element so. -/
theorem reversed_not_mirrored :
    ∃ r, ofElement {} .v5_0 aboutReversed = .ok r ∧ ¬r.Mirrors ∧
      r.components.map (·.base.element.localName) =
        ["identifier", "title", "pointOfContact", "subjectCoverage", "security"] ∧
      r.element.children.map (·.localName) =
        ["security", "subjectCoverage", "pointOfContact", "title", "identifier"] := by
  have hread : (ofElement {} .v5_0 aboutReversed).toOption.map
      (fun r => (r.components.map (·.base.element.localName), r.element.children.map (·.localName))) =
      some (["identifier", "title", "pointOfContact", "subjectCoverage", "security"],
        ["security", "subjectCoverage", "pointOfContact", "title", "identifier"]) := by
    decide +kernel
  obtain ⟨r, hr, hnames⟩ := Option.map_eq_some_iff.1 hread
  obtain ⟨hcomponents, hchildren⟩ := Prod.mk.inj hnames
  refine ⟨r, toOption_ok.1 hr, ?_, hcomponents, hchildren⟩
  intro hmirrors
  rw [hmirrors, List.map_map] at hchildren
  have hsame := hcomponents.symm.trans hchildren
  revert hsame
  decide

/-- Components are put in order before anything is asked of them, so only that order tells. -/
theorem make_inOrder (ctx : Context) (v : Version) (ts : List TopLevel) (m : Markings)
    (s : SecurityAttributes) (n : NoticeAttributes) (x : ExtensibleAttributes) :
    make ctx v (TopLevel.inOrder ts) m s n x = make ctx v ts m s n x := by
  have htwice : TopLevel.inOrder (TopLevel.inOrder ts) = TopLevel.inOrder ts :=
    TopLevel.inOrder_eq_self.2 (TopLevel.inOrder_sorted ts)
  unfold make
  rw [htwice]

/-- What is made of two lists of components is the same, be it a resource or a refusal, if they
have the same components of each rank in the same order. -/
theorem make_by_ranks (ctx : Context) (v : Version) (ts us : List TopLevel) (m : Markings)
    (s : SecurityAttributes) (n : NoticeAttributes) (x : ExtensibleAttributes)
    (h : ∀ k, ofRank us k = ofRank ts k) :
    make ctx v us m s n x = make ctx v ts m s n x :=
  calc make ctx v us m s n x
      = make ctx v (TopLevel.inOrder us) m s n x := (make_inOrder ctx v us m s n x).symm
    _ = make ctx v (TopLevel.inOrder ts) m s n x := by rw [TopLevel.inOrder_eq_inOrder.2 h]
    _ = make ctx v ts m s n x := make_inOrder ctx v ts m s n x

/-- Nothing less will do: a resource tells the components of each rank that it was made of. -/
theorem ranks_of_make (hts : make ctx v ts m s n x = .ok r) (hus : make ctx v us m s n x = .ok r)
    (k : Nat) : ofRank us k = ofRank ts k := by
  obtain ⟨-, hts, -⟩ := make_keeps hts
  obtain ⟨-, hus, -⟩ := make_keeps hus
  exact TopLevel.inOrder_eq_inOrder.1 (hus.symm.trans hts) k

/-- Another identifier. -/
def secondIdentifier : Element :=
  let ctx : Context := {}
  { name := ctx.ddmsName .v5_0 "identifier"
    attributes := [⟨ctx.ddmsName .v5_0 "qualifier", "urn:isbn"⟩,
      ⟨ctx.ddmsName .v5_0 "value", "1"⟩] }

/-- Two identifiers among the other components: these change places, the identifiers do not. -/
theorem make_by_ranks_interleaved :
    ∃ t r us, TopLevel.ofElement {} .v5_0 secondIdentifier = .ok t ∧
      ofElement {} .v5_0 (about []) = .ok r ∧
      us.map (·.rank) = [20, 0, 12, 0, 1, 14] ∧
      (t :: r.components).map (·.rank) = [0, 0, 1, 12, 14, 20] ∧
      make {} .v5_0 us r.markings r.security r.notice r.extensible =
        make {} .v5_0 (t :: r.components) r.markings r.security r.notice r.extensible ∧
      ∃ r', make {} .v5_0 us r.markings r.security r.notice r.extensible = .ok r' := by
  have hmade : ((TopLevel.ofElement {} .v5_0 secondIdentifier).toOption.bind fun t =>
      (ofElement {} .v5_0 (about [])).toOption.bind fun r =>
        (make {} .v5_0 (t :: r.components) r.markings r.security r.notice
          r.extensible).toOption.map fun _ => (t.rank, r.components.map (·.rank))) =
      some (0, [0, 1, 12, 14, 20]) := by decide +kernel
  obtain ⟨t, ht, hmade⟩ := Option.bind_eq_some_iff.1 hmade
  obtain ⟨r, hr, hmade⟩ := Option.bind_eq_some_iff.1 hmade
  obtain ⟨r', hr', hranks⟩ := Option.map_eq_some_iff.1 hmade
  obtain ⟨h0, hranks⟩ := Prod.mk.inj hranks
  simp only [List.map_eq_cons_iff, List.map_eq_nil_iff] at hranks
  obtain ⟨i, _, hcomponents, hi, c, _, rfl, hc, p, _, rfl, hp, k, _, rfl, hk, s, _, rfl, hs, rfl⟩ :=
    hranks
  have hsame : make {} .v5_0 [s, t, p, i, c, k] r.markings r.security r.notice r.extensible =
      make {} .v5_0 (t :: r.components) r.markings r.security r.notice r.extensible := by
    apply make_by_ranks
    intro n
    rw [hcomponents]
    simp only [ofRank_cons, h0, hi, hc, hp, hk, hs]
    grind [ofRank]
  refine ⟨t, r, [s, t, p, i, c, k], toOption_ok.1 ht, toOption_ok.1 hr, ?_, ?_, hsame, r', ?_⟩
  · simp [h0, hi, hc, hp, hk, hs]
  · simp [hcomponents, h0, hi, hc, hp, hk, hs]
  · rw [hsame]
    exact toOption_ok.1 hr'

end Resource

end DiscoveryMetadata
