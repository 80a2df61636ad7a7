import DiscoveryMetadata.Proofs.Gates.Resource
import DiscoveryMetadata.Proofs.Places.Basic
import DiscoveryMetadata.Proofs.Strictness.Tokens
/-
  Which element a warning is about.

  A warning is located from the element of the component outwards: each component on the way puts
  the name of its element in front. A few elements belong to no component: before version 4.0.1 the
  wrappers in a format and in a geospatial coverage, and in need-to-know rules the lists of the
  individuals and of the groups. A fault that leaves such an element takes its name along; a warning
  does not (`Folded`). The other wrappers show nowhere, because what stands in them has no warnings
  in the versions that have them (`Silent`).

  `Descends v e names` says that `names` lead from `e` down to an element below it, where the names
  of the folded elements are left out. `Located v e ws` says that the findings `ws` are located by
  such names, `Inside v e ws` that they are located by names from an element in `e` on. A reader
  `Locates` if what is recorded at the components it gives is located from their elements on: there
  is one lemma about each reader.
-/
namespace DiscoveryMetadata

open Xml (Element)

/-- The element belongs to no component, and warnings pass it by. -/
def Folded (v : Version) (w : Element) : Prop :=
  (v.atLeast .v4_0_1 = false ∧
      (w.localName = Format.wrapper ∨ w.localName = GeospatialCoverage.wrapper)) ∨
    w.localName = Access.individualList ∨ w.localName = Access.groupList

/-- The element stands in the other one, or in an element there that is passed by. -/
def Seen (v : Version) (e c : Element) : Prop :=
  c ∈ e.children ∨ ∃ w ∈ e.children, Folded v w ∧ c ∈ w.children

/-- The names lead from the element down to one below it, or stop at the element. The names of
elements that are passed by are left out. -/
inductive Descends (v : Version) : Element → List String → Prop
  | here (e : Element) : Descends v e [e.writtenName]
  | down {e c : Element} {names : List String} (hc : Seen v e c) (h : Descends v c names) :
    Descends v e (e.writtenName :: names)

/-- The findings are located by names that lead down from the element. -/
def Located (v : Version) (e : Element) (ws : List Finding) : Prop :=
  ∀ f ∈ ws, ∃ names, Descends v e names ∧ f.locator = Fault.place names

/-- The findings are located by names that lead down from an element in this one. -/
def Inside (v : Version) (e : Element) (ws : List Finding) : Prop :=
  ∀ f ∈ ws, ∃ c names, Seen v e c ∧ Descends v c names ∧ f.locator = Fault.place names

theorem Inside.nil {v : Version} {e : Element} : Inside v e [] := by simp [Inside]

/-- The findings have no place yet. -/
def Placeless (ws : List Finding) : Prop := ∀ f ∈ ws, f.locator = ""

theorem Placeless.nil : Placeless [] := by simp [Placeless]

namespace Located

variable {v : Version} {e c : Element} {ws : List Finding} {b : Base}

@[simp]
theorem nil : Located v e [] := by simp [Located]

theorem append {ws' : List Finding} (h : Located v e ws) (h' : Located v e ws') :
    Located v e (ws ++ ws') :=
  List.forall_mem_append.2 ⟨h, h'⟩

theorem inside (h : Located v c ws) (hc : Seen v e c) : Inside v e ws := by
  intro f hf
  obtain ⟨names, hn, hl⟩ := h f hf
  exact ⟨c, names, hc, hn, hl⟩

@[simp]
theorem warnIf (condition : Bool) (text : String) :
    Located v b.element (b.warnIf condition text) := by
  intro f hf
  unfold Base.warnIf at hf
  split at hf
  · rw [List.mem_singleton] at hf
    exact ⟨_, .here _, by simp [hf, Finding.warning, Fault.place, Base.writtenName]⟩
  · cases hf

@[simp]
theorem contact (c : Contact) : Located v b.element (c.remarks b) :=
  append (warnIf _ _) (warnIf _ _)

/-- What is found about the attributes of an element is about the element. -/
theorem attributes (h : Placeless ws) : Located v b.element (b.absorb ws) := by
  intro f hf
  obtain ⟨g, hg, rfl⟩ := List.mem_map.1 hf
  exact ⟨_, .here _, by simp [Finding.under, h g hg, Fault.place, Base.writtenName]⟩

/-- The component puts the name of its element in front. -/
theorem absorbAll {bs : List Base} (h : ∀ x ∈ bs, Inside v b.element x.warnings) :
    Located v b.element (b.absorbAll bs) := by
  intro f hf
  obtain ⟨x, hx, hf⟩ := List.mem_flatMap.1 hf
  obtain ⟨g, hg, rfl⟩ := List.mem_map.1 hf
  obtain ⟨c, names, hc, hn, hl⟩ := h x hx g hg
  exact ⟨_, .down hc hn, by simp [Finding.under, hl, Fault.place, Base.writtenName]⟩

end Located

/-! Findings of groups of attributes have no place of their own. -/

theorem Context.checkTokens_placeless {ctx : Context} {key : String} {v : Version}
    {tokens : List String} {ws : List Finding} (h : ctx.checkTokens key v tokens = .ok ws) :
    Placeless ws :=
  fun f hf => (reports_of_checkTokens h f hf).2

theorem SecurityAttributes.placeless {ctx : Context} {v : Version} {e : Element}
    {a : SecurityAttributes} (h : ofElement ctx v e = .ok a) :
    Placeless a.warnings := by
  simp only [ofElement, checked, bind_ok, pure_ok] at h
  obtain ⟨ws, hws, rfl⟩ := h
  exact fun f hf => (reports_of_check hws f hf).2

/-- A group without attributes has no findings. -/
theorem SecurityAttributes.warnings_of_isEmpty {ctx : Context} {v : Version} {e : Element}
    {a : SecurityAttributes} (h : ofElement ctx v e = .ok a) (hempty : a.isEmpty = true) :
    a.warnings = [] := by
  simp only [ofElement, checked, check, bind_ok, pure_ok] at h
  obtain ⟨_, ⟨found, hfound, rfl⟩, rfl⟩ := h
  have hnil : collect (fun name => e.attribute? (some v.ismUri) name) = [] :=
    List.isEmpty_iff.1 hempty
  have hall : ∀ ws ∈ found, ws = [] := by
    refine mapM_all (fun d _ ws hws => ?_) hfound
    simp only [hnil, List.lookup_nil] at hws
    cases hws
    rfl
  exact List.flatten_eq_nil_iff.2 hall

/-- What is found about security attributes is about the element that has them. -/
theorem Located.security {ctx : Context} {u v : Version} {e : Element} {b : Base}
    {a : SecurityAttributes} (h : SecurityAttributes.ofElement ctx u e = .ok a) :
    Located v b.element (b.absorb a.warnings) :=
  .attributes (SecurityAttributes.placeless h)

theorem NoticeAttributes.placeless {ctx : Context} {v : Version} {e : Element}
    {a : NoticeAttributes} (h : ofElement ctx v e = .ok a) :
    Placeless a.warnings := by
  simp only [ofElement, ofValues, checked, check, bind_ok, pure_ok] at h
  obtain ⟨_, -, ws, hws, rfl⟩ := h
  split_ifs at hws
  · cases hws
    exact .nil
  · simp only [bind_ok, pure_ok] at hws
    obtain ⟨_, -, ws', hws', _, -, _, -, _, -, _, -, rfl⟩ := hws
    unfold checkType at hws'
    split_ifs at hws'
    · cases hws'
      exact .nil
    · exact ctx.checkTokens_placeless hws'

section Children

variable {α : Type} [Component α] {f : Context → Version → Element → Outcome α} {ctx : Context}
  {v : Version} {e : Element}

/-- A reader locates the warnings of a component by names that lead down from its element. -/
def Locates {α : Type} [Component α] (f : Context → Version → Element → Outcome α) (ctx : Context)
    (v : Version) : Prop :=
  ∀ ⦃e c⦄, f ctx v e = .ok c → Located v e (Component.base c).warnings

/-- A reader gives components without warnings. -/
def Silent {α : Type} [Component α] (f : Context → Version → Element → Outcome α) (ctx : Context)
    (v : Version) : Prop :=
  ∀ ⦃e c⦄, f ctx v e = .ok c → (Component.base c).warnings = []

theorem Silent.locates (hf : Silent f ctx v) : Locates f ctx v := fun _ _ h => hf h ▸ .nil

theorem seen_childrenNamed {uri localName : String} :
    ∀ d ∈ e.childrenNamed uri localName, Seen v e d :=
  fun _ hd => .inl (List.mem_of_mem_filter hd)

theorem seen_child? {uri localName : String} : ∀ d ∈ e.child? uri localName, Seen v e d :=
  fun _ hd => .inl (List.mem_of_find?_eq_some hd)

/-- The children of the element that holds the content, if that is passed by where it is not the
element itself. -/
theorem seen_holder {wrapper : String}
    (hfold : ∀ w : Element, v.atLeast .v4_0_1 = false → w.localName = wrapper → Folded v w) :
    ∀ d ∈ ((e.holder? v wrapper).getD e).children, Seen v e d := by
  intro d hd
  unfold Element.holder? at hd
  split_ifs at hd with hv
  · exact .inl hd
  · cases hw : e.wrapper? v wrapper with
    | none =>
      rw [hw] at hd
      exact .inl hd
    | some w =>
      rw [hw] at hd
      simp only [Element.wrapper?, if_neg hv, Element.ownChild?, Element.child?] at hw
      have hname := List.find?_some hw
      exact .inr ⟨w, List.mem_of_find?_eq_some hw,
        hfold w (by simpa using hv) (localName_eq hname), hd⟩

/-- What is read from some elements in the one. -/
theorem Locates.all (hf : Locates f ctx v) {es : List Element} (hes : ∀ d ∈ es, Seen v e d)
    {cs : List α} (h : readAll f ctx v es = .ok cs) :
    ∀ x ∈ cs.map Component.base, Inside v e x.warnings :=
  List.forall_mem_map.2 <| mapM_all (fun d hd _ hc => (hf hc).inside (hes d hd)) h

/-- What is read from an element in the one, if it is there. -/
theorem Locates.option (hf : Locates f ctx v) {o : Option Element} (ho : ∀ d ∈ o, Seen v e d)
    {c : Option α} (h : readOption f ctx v o = .ok c) :
    ∀ x ∈ (c.map Component.base).toList, Inside v e x.warnings := by
  cases readOption_ok.1 h with
  | none => simp
  | some hc => simpa using (hf hc).inside (ho _ rfl)

/-- What is read from elements anywhere, without warnings. -/
theorem Silent.all (hf : Silent f ctx v) {es : List Element} {cs : List α}
    (h : readAll f ctx v es = .ok cs) : ∀ x ∈ cs.map Component.base, Inside v e x.warnings :=
  List.forall_mem_map.2 <| readAll_all (fun _ _ hc => hf hc ▸ .nil) h

theorem Silent.option (hf : Silent f ctx v) {o : Option Element} {c : Option α}
    (h : readOption f ctx v o = .ok c) :
    ∀ x ∈ (c.map Component.base).toList, Inside v e x.warnings := by
  cases readOption_ok.1 h with
  | none => simp
  | some hc => simpa [hf hc] using Inside.nil

/-- The last step of reading: a component is checked, and what is found is recorded at it. -/
theorem Located.checked {b : Base} {rules : Outcome Unit} {c d : α}
    (h : (b.check rules >>= fun _ => pure c) = .ok d)
    (hc : Located v e (Component.base c).warnings) : Located v e (Component.base d).warnings := by
  simp only [bind_ok, pure_ok] at h
  obtain ⟨_, -, rfl⟩ := h
  exact hc

end Children

variable {ctx : Context} {v : Version}

section Records

theorem Identifier.silent : Silent Identifier.ofElement ctx v := by
  intro e c h
  simp only [ofElement, bind_ok, check_ok, pure_ok, exists_unit] at h
  obtain ⟨-, rfl⟩ := h
  rfl

theorem Caption.locates : Locates Caption.ofElement ctx v := by
  intro e c h
  unfold ofElement at h
  split at h
  · simp only [within_ok, error_ok] at h
  · simp only [bind_ok, within_ok] at h
    obtain ⟨s, hs, h⟩ := h
    exact .checked h (.append (.warnIf _ _) (.security hs))

theorem Language.locates : Locates Language.ofElement ctx v := fun _ _ h =>
  .checked h (.append (.warnIf _ _) (.warnIf _ _))

theorem ApproximableDate.locates : Locates ApproximableDate.ofElement ctx v := fun _ _ h =>
  .checked h (.append (.warnIf _ _) (.warnIf _ _))

theorem Dates.locates : Locates Dates.ofElement ctx v := by
  intro e c h
  simp only [ofElement, bind_ok, within_ok] at h
  obtain ⟨as, has, h⟩ := h
  exact .checked h (.append (.warnIf _ _)
    (.absorbAll (ApproximableDate.locates.all seen_childrenNamed has)))

theorem Rights.silent : Silent Rights.ofElement ctx v := by
  intro e c h
  simp only [ofElement, bind_ok, within_ok, pure_ok, exists_unit] at h
  obtain ⟨_, -, _, -, _, -, -, rfl⟩ := h
  rfl

theorem Source.locates : Locates Source.ofElement ctx v := by
  intro e c h
  simp only [ofElement, bind_ok, within_ok] at h
  obtain ⟨s, hs, h⟩ := h
  exact .checked h (.append (.warnIf _ _) (.security hs))

theorem ResourceType.locates : Locates ResourceType.ofElement ctx v := by
  intro e c h
  simp only [ofElement, bind_ok, within_ok] at h
  obtain ⟨s, hs, h⟩ := h
  exact .checked h (.append (.append (.warnIf _ _) (.warnIf _ _)) (.security hs))

theorem Extent.locates : Locates Extent.ofElement ctx v := fun _ _ h =>
  .checked h (.append (.warnIf _ _) (.warnIf _ _))

theorem Format.locates : Locates Format.ofElement ctx v := by
  intro e c h
  simp only [ofElement, bind_ok, within_ok, withinHolder_ok] at h
  obtain ⟨x, hx, h⟩ := h
  have hmedia : ∀ d ∈ (holder ⟨e, v, []⟩).children, Seen v e d :=
    seen_holder fun _ hv hw => .inl ⟨hv, .inl hw⟩
  have hextent : ∀ d ∈ (holder ⟨e, v, []⟩).ownChild? "extent", Seen v e d :=
    fun d hd => hmedia d (List.mem_of_find?_eq_some hd)
  exact .checked h (.append (.warnIf _ _) (.absorbAll (Extent.locates.option hextent hx)))

end Records

section Entities

theorem SubOrganization.locates : Locates SubOrganization.ofElement ctx v := by
  intro e c h
  simp only [ofElement, bind_ok, within_ok] at h
  obtain ⟨s, hs, h⟩ := h
  exact .checked h (.security hs)

theorem Organization.locates : Locates Organization.ofElement ctx v := by
  intro e c h
  simp only [ofElement, bind_ok, within_ok] at h
  obtain ⟨subs, hs, h⟩ := h
  exact .checked h (.append (.append (.warnIf _ _) (.contact _))
    (.absorbAll (SubOrganization.locates.all seen_childrenNamed hs)))

theorem Person.locates : Locates Person.ofElement ctx v := fun _ _ h =>
  .checked h (.append (.append (.warnIf _ _) (.warnIf _ _)) (.contact _))

theorem NamedEntity.locates : Locates NamedEntity.ofElement ctx v := fun _ _ h =>
  .checked h (.contact _)

theorem Producer.locates {e : Element} {p : Producer} (h : ofElement ctx v e = .ok p) :
    Located v e p.base.warnings := by
  unfold ofElement at h
  simp only at h
  split_ifs at h
  · obtain ⟨c, hc, rfl⟩ := map_ok.1 h
    exact Organization.locates hc
  · obtain ⟨c, hc, rfl⟩ := map_ok.1 h
    exact Person.locates hc
  · obtain ⟨c, hc, rfl⟩ := map_ok.1 h
    exact NamedEntity.locates hc

theorem TaskingEntity.locates {e : Element} {t : TaskingEntity} (h : ofElement ctx v e = .ok t) :
    Located v e t.base.warnings := by
  unfold ofElement at h
  split_ifs at h
  · obtain ⟨c, hc, rfl⟩ := map_ok.1 h
    exact Organization.locates hc
  · obtain ⟨c, hc, rfl⟩ := map_ok.1 h
    exact Person.locates hc

namespace ProducerRole

theorem entityOf_inside {e : Element} {o : Option Producer} (h : entityOf ctx v e = .ok o) :
    ∀ x ∈ (o.map (·.base)).toList, Inside v e x.warnings := by
  unfold entityOf at h
  split at h
  next child _ hchildren =>
    split_ifs at h
    · obtain ⟨p, hp, rfl⟩ := map_ok.1 h
      have hc : child ∈ e.children := hchildren ▸ List.mem_cons_self
      simpa using (Producer.locates hp).inside (.inl hc)
    · cases h
      simp
  next =>
    cases h
    simp

/-- What the rules of a role remark has no place of its own. -/
theorem rules_placeless {c : ProducerRole} {ws : List Finding} (h : c.rules ctx = .ok ws) :
    Placeless ws := by
  unfold rules at h
  cases he : c.entity <;>
    simp only [he, bind_ok, throw_ok, false_and, exists_false, and_false] at h
  obtain ⟨_, -, _, -, _, -, h⟩ := h
  split_ifs at h
  · exact ctx.checkTokens_placeless h
  · cases h
    exact .nil

theorem locates : Locates ofElement ctx v := by
  intro e c h
  unfold ofElement at h
  split at h
  · simp only [within_ok, error_ok] at h
  · simp only [checked, bind_ok, within_ok, check_ok, pure_ok] at h
    obtain ⟨entity, he, s, hs, ws, hws, rfl⟩ := h
    exact .append (.append (.attributes (rules_placeless hws)) (.absorbAll (entityOf_inside he)))
      (.security hs)

end ProducerRole

namespace TaskingRole

theorem entityOf_inside {e : Element} {o : Option TaskingEntity} (h : entityOf ctx v e = .ok o) :
    ∀ x ∈ (o.map (·.base)).toList, Inside v e x.warnings := by
  unfold entityOf at h
  split at h
  next child _ hchildren =>
    split_ifs at h
    · obtain ⟨t, ht, rfl⟩ := map_ok.1 h
      have hc : child ∈ e.children := hchildren ▸ List.mem_cons_self
      simpa using (TaskingEntity.locates ht).inside (.inl hc)
    · cases h
      simp
  next =>
    cases h
    simp

theorem locates : Locates ofElement ctx v := by
  intro e c h
  unfold ofElement at h
  split at h
  · simp only [within_ok, error_ok] at h
  · simp only [bind_ok, within_ok] at h
    obtain ⟨entity, he, s, hs, h⟩ := h
    exact .checked h (.append (.absorbAll (entityOf_inside he)) (.security hs))

end TaskingRole

end Entities

section Coverages

/-- A version with wrappers comes before version 4.1. -/
theorem Version.not_atLeast_v4_1 (hv : v.atLeast .v4_0_1 = false) : v.atLeast .v4_1 = false := by
  cases v <;> first | rfl | cases hv

namespace Keyword

theorem locates : Locates ofElement ctx v := by
  intro e c h
  simp only [ofElement, bind_ok, within_ok] at h
  obtain ⟨s, hs, h⟩ := h
  exact .checked h (.security hs)

/-- In the versions with a wrapper, keywords have no security attributes. -/
theorem silent (hv : v.atLeast .v4_0_1 = false) : Silent ofElement ctx v := by
  intro e c h
  have hsound := (ofElement_sound h).allowed
  simp only [ofElement, checked, bind_ok, within_ok, check_ok, pure_ok, exists_unit] at h
  obtain ⟨s, hs, -, rfl⟩ := h
  have hempty : s.isEmpty = true := by
    by_contra hne
    exact absurd (hsound.1 (by simpa using hne)) (by simp [hv])
  simp [Component.base, findings, Base.absorb, SecurityAttributes.warnings_of_isEmpty hs hempty]

end Keyword

namespace Category

theorem locates : Locates ofElement ctx v := by
  intro e c h
  simp only [ofElement, bind_ok, within_ok] at h
  obtain ⟨s, hs, h⟩ := h
  exact .checked h (.security hs)

/-- In the versions with a wrapper, categories have no security attributes. -/
theorem silent (hv : v.atLeast .v4_0_1 = false) : Silent ofElement ctx v := by
  intro e c h
  have hsound := (ofElement_sound h).allowed
  simp only [ofElement, checked, bind_ok, within_ok, check_ok, pure_ok, exists_unit] at h
  obtain ⟨s, hs, -, rfl⟩ := h
  have hempty : s.isEmpty = true := by
    by_contra hne
    exact absurd (hsound.1 (by simpa using hne)) (by simp [hv])
  simp [Component.base, findings, Base.absorb, SecurityAttributes.warnings_of_isEmpty hs hempty]

end Category

namespace ProductionMetric

theorem locates : Locates ofElement ctx v := by
  intro e c h
  simp only [ofElement, bind_ok, within_ok] at h
  obtain ⟨s, hs, h⟩ := h
  exact .checked h (.security hs)

/-- The versions with a wrapper do not have production metrics. -/
theorem silent (hv : v.atLeast .v4_0_1 = false) : Silent ofElement ctx v := fun _ _ h =>
  absurd (ofElement_sound h).allowed (by simp [Part.Allowed, hv])

end ProductionMetric

namespace NonStateActor

theorem locates : Locates ofElement ctx v := by
  intro e c h
  simp only [ofElement, bind_ok, within_ok] at h
  obtain ⟨_, -, s, hs, h⟩ := h
  exact .checked h (.append (.warnIf _ _) (.security hs))

/-- The versions with a wrapper do not have such actors. -/
theorem silent (hv : v.atLeast .v4_0_1 = false) : Silent ofElement ctx v := fun _ _ h =>
  absurd (ofElement_sound h).allowed (by simp [Part.Allowed, Version.not_atLeast_v4_1 hv])

end NonStateActor

theorem SubjectCoverage.locates : Locates SubjectCoverage.ofElement ctx v := by
  intro e c h
  simp only [ofElement, bind_ok, within_ok, withinHolder_ok] at h
  obtain ⟨ks, hk, cs, hc, ms, hm, as, ha, s, hs, h⟩ := h
  refine .checked h (.append (.append ?own (.absorbAll ?parts)) (.security hs))
  case own => exact .append (.append (.warnIf _ _) (.warnIf _ _)) (.warnIf _ _)
  case parts =>
    simp only [parts, List.forall_mem_append]
    by_cases hv : v.atLeast .v4_0_1 = true
    · have hholder : (e.holder? v wrapper).getD e = e := by simp [Element.holder?, hv]
      rw [hholder] at hk hc hm ha
      exact ⟨⟨⟨Keyword.locates.all seen_childrenNamed hk,
        Category.locates.all seen_childrenNamed hc⟩,
        ProductionMetric.locates.all seen_childrenNamed hm⟩,
        NonStateActor.locates.all seen_childrenNamed ha⟩
    · rw [Bool.not_eq_true] at hv
      exact ⟨⟨⟨(Keyword.silent hv).all hk, (Category.silent hv).all hc⟩,
        (ProductionMetric.silent hv).all hm⟩, (NonStateActor.silent hv).all ha⟩

theorem VirtualCoverage.locates : Locates VirtualCoverage.ofElement ctx v := by
  intro e c h
  simp only [ofElement, bind_ok, within_ok] at h
  obtain ⟨s, hs, h⟩ := h
  exact .checked h (.append (.warnIf _ _) (.security hs))

namespace TemporalCoverage

/-- The versions with a wrapper do not have approximable dates. -/
theorem silent_date (hv : v.atLeast .v4_1 = false) :
    Silent ApproximableDate.ofElement ctx v := fun _ _ h =>
  absurd (ApproximableDate.ofElement_sound h).allowed (by simp [Part.Allowed, hv])

theorem readBoundIn_inside {e : Element} {exact approximate : String} {bound : Option TimeBound}
    (h : readBoundIn ctx v (e.holder? v wrapper) exact approximate = .ok bound) :
    ∀ date ∈ date? bound, Inside v e date.warnings := by
  unfold readBoundIn at h
  split at h
  case h_2 =>
    cases h
    simp [date?]
  case h_1 holder hholder =>
    rw [withinHolder_ok, readBound] at h
    split at h
    · cases h
      simp [date?]
    · simp only [bind_ok, pure_ok] at h
      obtain ⟨date, hd, rfl⟩ := h
      suffices hdate : ∀ x ∈ (date.map Component.base).toList, Inside v e x.warnings by
        cases date with
        | none => simp [date?]
        | some date =>
          rintro _ ⟨⟩
          exact hdate date.toBase (by simp [Component.base])
      by_cases hv : v.atLeast .v4_0_1 = true
      · obtain rfl : e = holder := by simpa [Element.holder?, hv] using hholder
        exact ApproximableDate.locates.option seen_child? hd
      · exact (silent_date (Version.not_atLeast_v4_1 (by simpa using hv))).option hd

theorem locates : Locates ofElement ctx v := by
  intro e c h
  simp only [ofElement, bind_ok, within_ok] at h
  obtain ⟨start, hst, finish, hf, s, hs, h⟩ := h
  refine .checked h (.append (.append (.warnIf _ _) (.absorbAll ?_)) (.security hs))
  refine List.forall_mem_map.2 fun date hd => ?_
  obtain ⟨bound, hb, hdate⟩ := List.mem_filterMap.1 hd
  rcases List.mem_pair.1 hb with rfl | rfl
  · exact readBoundIn_inside hst date hdate
  · exact readBoundIn_inside hf date hdate

end TemporalCoverage

theorem AreaCode.silent {kind : Kind} : Silent (AreaCode.ofElement kind) ctx v := by
  intro e c h
  simp only [ofElement, bind_ok, check_ok, pure_ok, exists_unit] at h
  obtain ⟨-, rfl⟩ := h
  rfl

theorem FacilityIdentifier.silent : Silent FacilityIdentifier.ofElement ctx v := by
  intro e c h
  simp only [ofElement, bind_ok, check_ok, pure_ok, exists_unit] at h
  obtain ⟨-, rfl⟩ := h
  rfl

theorem BoundingBox.silent : Silent BoundingBox.ofElement ctx v := by
  intro e c h
  simp only [ofElement, checked, bind_ok, within_ok, check_ok, pure_ok, exists_unit] at h
  obtain ⟨_, -, _, -, _, -, _, -, -, rfl⟩ := h
  rfl

theorem Position.silent : Silent Position.ofElement ctx v := by
  intro e c h
  simp only [ofElement, checked, bind_ok, within_ok, check_ok, pure_ok, exists_unit] at h
  obtain ⟨_, -, _, -, -, rfl⟩ := h
  rfl

theorem VerticalExtent.silent : Silent VerticalExtent.ofElement ctx v := by
  intro e c h
  simp only [ofElement, checked, bind_ok, within_ok, check_ok, pure_ok, exists_unit] at h
  obtain ⟨_, -, _, -, -, rfl⟩ := h
  rfl

theorem GeographicIdentifier.locates : Locates GeographicIdentifier.ofElement ctx v := by
  intro e c h
  simp only [ofElement, bind_ok, within_ok] at h
  obtain ⟨country, hc, sub, hs, facility, hf, h⟩ := h
  refine .checked h (.absorbAll ?_)
  simp only [parts, codes, List.forall_mem_append]
  exact ⟨⟨AreaCode.silent.option hc, AreaCode.silent.option hs⟩,
    FacilityIdentifier.silent.option hf⟩

theorem Polygon.locates : Locates Polygon.ofElement ctx v := by
  intro e c h
  simp only [ofElement, bind_ok, within_ok] at h
  obtain ⟨positions, hp, _, -, h⟩ := h
  refine .checked h (.absorbAll ?_)
  unfold readPositions at hp
  split at hp
  · cases hp
    simp
  · split at hp
    · cases hp
      simp
    · simp only [within_ok] at hp
      exact Position.silent.all hp

theorem Point.locates : Locates Point.ofElement ctx v := by
  intro e c h
  simp only [ofElement, bind_ok, within_ok] at h
  obtain ⟨position, hp, _, -, h⟩ := h
  exact .checked h (.absorbAll (Position.silent.option hp))

theorem BoundingGeometry.locates : Locates BoundingGeometry.ofElement ctx v := by
  intro e c h
  simp only [ofElement, bind_ok, within_ok] at h
  obtain ⟨polygons, hpolygons, points, hpoints, h⟩ := h
  exact .checked h (.absorbAll (List.forall_mem_append.2
    ⟨Polygon.locates.all seen_childrenNamed hpolygons,
      Point.locates.all seen_childrenNamed hpoints⟩))

theorem PostalAddress.locates : Locates PostalAddress.ofElement ctx v := by
  intro e c h
  simp only [ofElement, bind_ok, within_ok] at h
  obtain ⟨country, hc, h⟩ := h
  exact .checked h (.append (.warnIf _ _) (.absorbAll (AreaCode.silent.option hc)))

namespace GeospatialCoverage

theorem extents_inside {e holder : Element} {x : GeospatialExtents}
    (hseen : ∀ d ∈ holder.children, Seen v e d)
    (h : GeospatialExtents.ofElement ctx v holder = .ok x) :
    ∀ p ∈ x.parts, Inside v e p.warnings := by
  have hchild (name : String) : ∀ d ∈ holder.ownChild? name, Seen v e d :=
    fun d hd => hseen d (List.mem_of_find?_eq_some hd)
  simp only [GeospatialExtents.ofElement, bind_ok, pure_ok] at h
  obtain ⟨identifier, hi, box, hb, geometry, hg, address, ha, vertical, hv, rfl⟩ := h
  simp only [GeospatialExtents.parts, List.forall_mem_append]
  exact ⟨⟨⟨⟨GeographicIdentifier.locates.option (hchild _) hi, BoundingBox.silent.option hb⟩,
    BoundingGeometry.locates.option (hchild _) hg⟩,
    PostalAddress.locates.option (hchild _) ha⟩, VerticalExtent.silent.option hv⟩

theorem locates : Locates ofElement ctx v := by
  intro e c h
  simp only [ofElement, bind_ok, within_ok] at h
  obtain ⟨x, hx, _, -, s, hs, h⟩ := h
  refine .checked h (.append (.absorbAll ?_) (.security hs))
  have hseen : ∀ d ∈ ((e.holder? v wrapper).getD e).children, Seen v e d :=
    seen_holder fun _ hv hw => .inl ⟨hv, .inr hw⟩
  split at hx
  next holder hholder =>
    rw [hholder] at hseen
    exact extents_inside hseen (withinHolder_ok.1 hx)
  next =>
    cases hx
    simp [GeospatialExtents.parts]

end GeospatialCoverage

end Coverages

end DiscoveryMetadata
