import DiscoveryMetadata.Proofs.Multiplicity.Singles
/-
  The two forms of the bounds of a period.

  Each bound of a temporal coverage is either exact or, since version 4.1, an approximable date.
  From that version on the children of both forms are counted together. Before it only the exact
  ones are counted: an approximable date beside an exact bound is neither counted nor read, and so
  nothing asks whether the version has it.
-/
namespace DiscoveryMetadata.TemporalCoverage

open Xml (Element)

variable {ctx : Context} {v : Version} {e holder : Element} {exact approximate : String}

/-- The children that stand for a bound, in either form. -/
def formsOf (v : Version) (holder : Element) (exact approximate : String) : List Element :=
  holder.childrenNamed v.ddmsUri exact ++ holder.childrenNamed v.ddmsUri approximate

/-- A bound is there in one form, and in the approximable one only if the version has that. -/
structure OneForm (v : Version) (holder : Element) (exact approximate : String) : Prop where
  once : (formsOf v holder exact approximate).length = 1
  since : holder.childrenNamed v.ddmsUri approximate ≠ [] → v.atLeast .v4_1 = true

/-- A bound is read from the first of the children that stand for it. -/
def ReadFirst (ctx : Context) (v : Version) (holder : Element) (exact approximate : String)
    (bound : Option TimeBound) : Prop :=
  ∃ x rest b, formsOf v holder exact approximate = x :: rest ∧ bound = some b ∧
    TimeBound.Of ctx v exact approximate x b

/-- The element that holds the content is in the namespace of the version. -/
theorem uri_of_holder {l w : String} (hn : e.name.isNamed v.ddmsUri l = true)
    (hm : e.holder? v w = some holder) : holder.uri = v.ddmsUri := by
  unfold Element.holder? Element.wrapper? at hm
  split at hm
  · rw [← Option.some.inj hm]
    exact Element.uri_of_isNamed hn
  · have hfound : e.children.find? (fun c => c.name.isNamed e.uri w) = some holder := hm
    have hnamed := List.find?_some hfound
    rw [← Element.uri_of_isNamed hn]
    exact Element.uri_of_isNamed hnamed

/-- Whether both forms are counted or the exact one alone, a child stands for the bound. -/
theorem formsOf_ne_nil
    (hboth : v.atLeast .v4_1 = true → (holder.childrenNamed v.ddmsUri exact).length +
      (holder.childrenNamed v.ddmsUri approximate).length = 1)
    (hexact : v.atLeast .v4_1 = false → (holder.childrenNamed v.ddmsUri exact).length = 1) :
    formsOf v holder exact approximate ≠ [] := by
  intro hnil
  have hlength := congrArg List.length hnil
  rw [formsOf, List.length_append, List.length_nil] at hlength
  cases hv : v.atLeast .v4_1 with
  | true =>
    have := hboth hv
    omega
  | false =>
    have := hexact hv
    omega

theorem readFirst_of_rel {bound : Option TimeBound}
    (h : Option.Rel (TimeBound.Of ctx v exact approximate)
      (formsOf v holder exact approximate).head? bound)
    (hne : formsOf v holder exact approximate ≠ []) :
    ReadFirst ctx v holder exact approximate bound := by
  obtain ⟨x, rest, hforms⟩ := List.exists_cons_of_ne_nil hne
  rw [hforms, List.head?_cons] at h
  cases h with
  | some hb => exact ⟨x, rest, _, hforms, rfl, hb⟩

/-- Where the exact form is there once, the other one is not there. -/
theorem oneForm_iff (hv : v.atLeast .v4_1 = false)
    (h : (holder.childrenNamed v.ddmsUri exact).length = 1) :
    OneForm v holder exact approximate ↔ holder.childrenNamed v.ddmsUri approximate = [] := by
  constructor
  · intro hone
    by_contra hne
    have := hone.since hne
    rw [hv] at this
    cases this
  · intro hnil
    refine ⟨?_, fun hne => absurd hnil hne⟩
    rw [formsOf, hnil, List.append_nil, h]

/-- A temporal coverage that is read has both bounds, each from the first child that stands for it.
Since version 4.1 each bound is there in one form. Before, the exact form of each is there once,
and it is the only one exactly if no approximable date stands beside it. -/
theorem bounds_formed {c : TemporalCoverage} (h : ofElement ctx v e = .ok c) :
    ∃ holder, e.holder? v wrapper = some holder ∧
      ReadFirst ctx v holder "start" "approximableStart" c.start ∧
      ReadFirst ctx v holder "end" "approximableEnd" c.finish ∧
      (v.atLeast .v4_1 = true →
        OneForm v holder "start" "approximableStart" ∧ OneForm v holder "end" "approximableEnd") ∧
      (v.atLeast .v4_1 = false →
        (holder.childrenNamed v.ddmsUri "start").length = 1 ∧
        (holder.childrenNamed v.ddmsUri "end").length = 1 ∧
        (OneForm v holder "start" "approximableStart" ↔
          holder.childrenNamed v.ddmsUri "approximableStart" = []) ∧
        (OneForm v holder "end" "approximableEnd" ↔
          holder.childrenNamed v.ddmsUri "approximableEnd" = [])) := by
  obtain ⟨hname, holder, hm, hread⟩ := ofElement_content h
  have huri := uri_of_holder hname hm
  have hstart := readBound_ok hread.start
  have hfinish := readBound_ok hread.finish
  obtain ⟨-, hboth, hexact⟩ := counts_of_rules hread.rules
  simp only [Element.ownChildren, huri, hread.version] at hstart hfinish hboth hexact
  refine ⟨holder, hm, readFirst_of_rel hstart ?_, readFirst_of_rel hfinish ?_, ?_, ?_⟩
  · exact formsOf_ne_nil (fun hv => (hboth hv).1) fun hv => (hexact hv).1
  · exact formsOf_ne_nil (fun hv => (hboth hv).2) fun hv => (hexact hv).2
  · intro hv
    obtain ⟨hs, hf⟩ := hboth hv
    exact ⟨⟨List.length_append.trans hs, fun _ => hv⟩, ⟨List.length_append.trans hf, fun _ => hv⟩⟩
  · intro hv
    obtain ⟨hs, hf⟩ := hexact hv
    exact ⟨hs, hf, oneForm_iff hv hs, oneForm_iff hv hf⟩

/-- The element of a period of version 4.0.1, with some further content. -/
def period (content : List Element) : Element :=
  let ctx : Context := {}
  (ctx.ddmsElement .v4_0_1 "temporalCoverage").add
    ([ctx.textElement .v4_0_1 "start" "2003", ctx.textElement .v4_0_1 "end" "2004"] ++ content)

/-- An approximable date of the start, which version 4.0.1 does not have. -/
def springStart : Element :=
  (Context.ddmsElement {} .v4_0_1 "approximableStart").add
    [Context.textElement {} .v4_0_1 "description" "spring"]

theorem period_read : ∃ c, ofElement {} .v4_0_1 (period [springStart]) = .ok c := by
  apply isSome_toOption.1
  decide +kernel

theorem bounds_formed_period :
    ∃ c, ofElement {} .v4_0_1 (period [springStart]) = .ok c ∧
      ∃ holder, (period [springStart]).holder? .v4_0_1 wrapper = some holder ∧
        ReadFirst {} .v4_0_1 holder "start" "approximableStart" c.start := by
  obtain ⟨c, hc⟩ := period_read
  obtain ⟨holder, hm, hstart, -⟩ := bounds_formed hc
  exact ⟨c, hc, holder, hm, hstart⟩

/-- It is accepted beside an exact start, in a version that does not have it. -/
theorem period_two_starts :
    ∃ c, ofElement {} .v4_0_1 (period [springStart]) = .ok c ∧
      ∃ holder, (period [springStart]).holder? .v4_0_1 wrapper = some holder ∧
        (formsOf .v4_0_1 holder "start" "approximableStart").length = 2 ∧
        ¬OneForm .v4_0_1 holder "start" "approximableStart" := by
  obtain ⟨c, hc⟩ := period_read
  have htwo : (formsOf .v4_0_1 (period [springStart]) "start" "approximableStart").length = 2 := by
    decide +kernel
  refine ⟨c, hc, period [springStart], rfl, htwo, ?_⟩
  intro hone
  have := hone.once
  rw [htwo] at this
  cases this

end DiscoveryMetadata.TemporalCoverage
