import DiscoveryMetadata.Proofs.Multiplicity.Singles
import DiscoveryMetadata.Proofs.Returning.Subjects
import DiscoveryMetadata.Proofs.Versions.Coverages
/-
  Approximable dates in the slots of their names.

  One kind of component, the approximable date, stands for elements of three names: the day on which
  something was acquired, and the two bounds of a period. A date says by its element which of them
  it is. What is read has each date in the slot of its name. What is made takes dates as they are
  given:

    1. dates may be made with any approximable dates as days of acquisition, and only those of that
       name are read again (`Dates.make_slots`);
    2. the bounds of a period are counted by their names, so that they may only be exchanged, and
       are read again in their places (`TemporalCoverage.make_slots`).
-/
namespace DiscoveryMetadata

open Xml (Element)

variable {ctx : Context} {v : Version} {e : Element}

namespace ApproximableDate

variable {d : ApproximableDate} {n m : String}

/-- The date stands for the element of this name. -/
def inSlot (v : Version) (n : String) (d : ApproximableDate) : Bool :=
  d.element.name.isNamed v.ddmsUri n

/-- The date was read, as one is that was made. -/
def Accepted (d : ApproximableDate) : Prop := ∃ ctx v e, ofElement ctx v e = .ok d

theorem accepted_of_make {description date approximation searchableStart searchableEnd : String}
    (h : make ctx v n description date approximation searchableStart searchableEnd = .ok d) :
    d.Accepted := ⟨_, _, _, h⟩

theorem ofElement_ok (h : ofElement ctx v e = .ok d) :
    d.version = v ∧ d.element = e ∧ v.atLeast .v4_1 = true ∧ ∃ n ∈ names, d.inSlot v n = true := by
  simp only [ofElement, checked, bind_ok, check_ok, pure_ok, exists_unit, rules, demand_ok,
    requireDdms_ok, requireVersion] at h
  obtain ⟨⟨hname, hddms, hversion, -⟩, rfl⟩ := h
  exact ⟨rfl, rfl, hversion, _, by simpa using hname, hddms⟩

/-- A date that was accepted is read from its element again, in whatever context. -/
theorem Accepted.again (h : d.Accepted) (ctx : Context) :
    ofElement ctx d.version d.element = .ok d := by
  obtain ⟨_, w, e, h⟩ := h
  obtain ⟨hversion, helement, -⟩ := ofElement_ok h
  rw [hversion, helement]
  exact h

/-- A date has one slot. -/
theorem slot_unique (h : d.inSlot v n = true) (h' : d.inSlot v m = true) : n = m :=
  (Element.localName_of_isNamed h).symm.trans (Element.localName_of_isNamed h')

end ApproximableDate

namespace Dates

variable {c : Dates} {ds : List ApproximableDate} {values : DateValues}

/-- The days of acquisition are all named so. -/
def Slotted (c : Dates) : Prop := ∀ d ∈ c.acquiredOns, d.inSlot c.version "acquiredOn" = true

theorem checked_iff {c' : Dates} : checked c = .ok c' ↔
    (c.element.name.isNamed c.version.ddmsUri "dates" = true ∧
      (∀ d ∈ c.acquiredOns, d.version = c.version) ∧
      (∀ x ∈ c.values.entries, DateValues.checkEntry c.version x.1 x.2.1 x.2.2 = .ok ()) ∧
      (c.acquiredOns.isEmpty || c.version.atLeast .v4_1) = true) ∧
    { c with warnings := c.findings } = c' := by
  simp only [checked, bind_ok, check_ok, pure_ok, exists_unit, rules, forM_ok, demand_ok,
    requireDdms_ok, Base.requireSameVersions_ok, List.forall_mem_map]

theorem slotted_of_read (h : ofElement ctx v e = .ok c) : c.Slotted := by
  simp only [ofElement, bind_ok, within_ok, checked_iff] at h
  obtain ⟨ds, hds, ⟨hname, -⟩, rfl⟩ := h
  have huri : e.uri = v.ddmsUri := Element.uri_of_isNamed hname
  refine mapM_all (fun x hx d hread => ?_) hds
  obtain ⟨-, rfl, -⟩ := ApproximableDate.ofElement_ok hread
  have hnamed := (List.mem_filter.1 hx).2
  rwa [huri] at hnamed

/-- Dates are made with the days of acquisition as they are given. From their element those of that
name are read, and the same dates otherwise. -/
theorem make_slots (hd : ∀ d ∈ ds, d.Accepted) (h : make ctx v ds values = .ok c) :
    c.version = v ∧ c.acquiredOns = ds ∧ c.values = values ∧
      ∃ again, ofElement ctx v c.element = .ok again ∧
        again.acquiredOns = ds.filter (·.inSlot v "acquiredOn") ∧ again.values = values := by
  obtain ⟨e, he⟩ : ∃ e, e = (values.entries.foldl (fun e entry =>
      e.put (ctx.ddmsName v entry.1) entry.2.2) (ctx.ddmsElement v "dates")).add
        (ds.map (·.element)) := ⟨_, rfl⟩
  have h : checked ⟨⟨e, v, []⟩, ds, values⟩ = .ok c := he ▸ h
  simp only [checked_iff] at h
  obtain ⟨⟨hname, hversions, hvalues, hsince⟩, rfl⟩ := h
  refine ⟨rfl, rfl, rfl, ?_⟩
  -- the days stand on the element under the names that they brought along
  have hchildren : e.ownChildren "acquiredOn" =
      (ds.filter (·.inSlot v "acquiredOn")).map (·.element) := by
    have hall : e.children = ds.map (·.element) := by simp [he, DateValues.entries]
    rw [Element.ownChildren, Element.uri_of_isNamed hname, Element.childrenNamed, hall,
      List.filter_map]
    rfl
  have hread : readAll ApproximableDate.ofElement ctx v (e.ownChildren "acquiredOn") =
      .ok (ds.filter (·.inSlot v "acquiredOn")) := by
    rw [hchildren]
    refine readAll_again fun d hmem => ?_
    have hmem := (List.mem_filter.1 hmem).1
    exact hversions d hmem ▸ (hd d hmem).again ctx
  have hown : DateValues.ofNames e.own = values := by
    simp [he, DateValues.ofNames, DateValues.entries, Element.own, Element.attributeText_put]
  simp only [ofElement, bind_ok, within_ok, hread, hown, checked_iff, Except.ok.injEq,
    exists_eq_left']
  refine ⟨_, ⟨⟨hname, fun d hmem => hversions d (List.mem_filter.1 hmem).1, hvalues, ?_⟩, rfl⟩,
    rfl, rfl⟩
  rw [Bool.or_eq_true] at hsince ⊢
  refine hsince.imp_left fun hempty => ?_
  rw [List.isEmpty_iff.1 hempty]
  rfl

end Dates

namespace TemporalCoverage

variable {c : TemporalCoverage} {name exact approximate x y : String} {start finish b : TimeBound}
  {s : SecurityAttributes} {holder : Element}

/-- The bounds that are approximable dates have the names of these bounds. -/
structure Slotted (c : TemporalCoverage) : Prop where
  start : ∀ d ∈ date? c.start, d.inSlot c.version "approximableStart" = true
  finish : ∀ d ∈ date? c.finish, d.inSlot c.version "approximableEnd" = true

/-- Each bound is an approximable date that has the name of the other bound. -/
structure Exchanged (c : TemporalCoverage) : Prop where
  start : ∃ d, c.start = some (.approximate d) ∧ d.inSlot c.version "approximableEnd" = true
  finish : ∃ d, c.finish = some (.approximate d) ∧ d.inSlot c.version "approximableStart" = true

theorem checked_iff {c' : TemporalCoverage} : checked c = .ok c' ↔
    (c.element.name.isNamed c.version.ddmsUri "temporalCoverage" = true ∧
      ∃ holder, c.element.holder? c.version wrapper = some holder ∧
        c.contentRules holder = .ok () ∧ requireSecuritySince c.version .v3_0 c.security = .ok ()) ∧
    { c with warnings := c.findings } = c' := by
  simp only [checked, bind_ok, check_ok, pure_ok, exists_unit, rules, requireDdms_ok]
  cases c.element.holder? c.version wrapper <;> simp [exists_unit]

theorem slot_of_readBound {bound : Option TimeBound}
    (h : readBound ctx v holder exact approximate = .ok bound) :
    ∀ d ∈ date? bound, d.inSlot v approximate = true := by
  intro d hd
  have hrel := readBound_ok h
  generalize (holder.ownChildren exact ++ holder.ownChildren approximate).head? = o at hrel
  cases hrel with
  | none => cases hd
  | some hof =>
    cases hof with
    | exact => cases hd
    | approximate hx hread =>
      obtain rfl : _ = d := Option.some.inj hd
      obtain ⟨-, rfl, -, n, -, hslot⟩ := ApproximableDate.ofElement_ok hread
      obtain rfl : n = approximate := (Element.localName_of_isNamed hslot).symm.trans hx
      exact hslot

theorem slotted_of_read (h : ofElement ctx v e = .ok c) : c.Slotted := by
  obtain ⟨-, holder, -, hread⟩ := ofElement_content h
  rw [← hread.version] at hread
  exact ⟨slot_of_readBound hread.start, slot_of_readBound hread.finish⟩

/-- The local name of the element that a bound is written as. -/
def slotName (exact : String) : TimeBound → String
  | .exact _ => exact
  | .approximate d => d.element.localName

/-- The bound is read from its own element again, if it is an approximable date. -/
def ReadAgain (ctx : Context) (v : Version) (b : TimeBound) : Prop :=
  ∀ d, b = .approximate d → ApproximableDate.ofElement ctx v d.element = .ok d

theorem ReadAgain.slot {d : ApproximableDate} (h : ReadAgain ctx v (.approximate d)) :
    v.atLeast .v4_1 = true ∧ d.element.localName ∈ ApproximableDate.names ∧
      d.inSlot v d.element.localName = true := by
  obtain ⟨-, -, hv, n, hn, hslot⟩ := ApproximableDate.ofElement_ok (h d rfl)
  obtain rfl := Element.localName_of_isNamed hslot
  exact ⟨hv, hn, hslot⟩

theorem slotName_or (h : ReadAgain ctx v b) :
    slotName exact b = exact ∨ slotName exact b ∈ ApproximableDate.names := by
  cases b with
  | exact value => exact .inl rfl
  | approximate d => exact .inr h.slot.2.1

/-- What is written for a bound has its name. -/
theorem isNamed_boundElement (h : ReadAgain ctx v b) :
    (boundElement ctx v exact b).name.isNamed v.ddmsUri (slotName exact b) = true := by
  cases b with
  | exact value => simp [boundElement, slotName]
  | approximate d => exact h.slot.2.2

/-- A bound that has one of two names is an approximable date exactly if it has the second one. -/
theorem boundName_eq (h : ReadAgain ctx v b) (hexact : exact ∉ ApproximableDate.names)
    (hslot : slotName exact b = exact ∨ slotName exact b = approximate) :
    boundName exact approximate b = slotName exact b := by
  cases b with
  | exact value => rfl
  | approximate d =>
    rcases hslot with hslot | hslot
    · exact absurd (hslot ▸ h.slot.2.1) hexact
    · exact hslot.symm

/-- Children that are counted by their names are of the names of the bounds, or have them the other
way round. -/
theorem slots_of_counts (hx : x = "start" ∨ x ∈ ApproximableDate.names)
    (hy : y = "end" ∨ y ∈ ApproximableDate.names)
    (hstart : [x, y].count "start" + [x, y].count "approximableStart" = 1)
    (hend : [x, y].count "end" + [x, y].count "approximableEnd" = 1) :
    (x = "start" ∨ x = "approximableStart") ∧ (y = "end" ∨ y = "approximableEnd") ∨
      x = "approximableEnd" ∧ y = "approximableStart" := by
  simp only [ApproximableDate.names, List.mem_cons, List.not_mem_nil, or_false] at hx hy
  -- of the sixteen pairs of names, most are counted wrongly
  rcases hx with rfl | rfl | rfl | rfl <;> rcases hy with rfl | rfl | rfl | rfl <;>
    simp_all

/-- The element that a coverage is written into, but for the security attributes. -/
def plain (ctx : Context) (v : Version) (name : String) (start finish : TimeBound) : Element :=
  ctx.addWrapped v wrapper (ctx.textElements v "name" name ++
    [boundElement ctx v "start" start, boundElement ctx v "end" finish])
    (ctx.ddmsElement v "temporalCoverage")

/-- But for a name, an element has the two bounds as its children, each under its name. -/
def ShowsBounds (ctx : Context) (v : Version) (start finish : TimeBound) (holder : Element) : Prop :=
  ∀ l, l ≠ "name" → holder.ownChildren l =
    (if slotName "start" start = l then [boundElement ctx v "start" start] else []) ++
      if slotName "end" finish = l then [boundElement ctx v "end" finish] else []

/-- The bounds of a coverage are found in its element under their names. -/
theorem holder?_plain (name : String) (s : SecurityAttributes) (hx : ReadAgain ctx v start)
    (hy : ReadAgain ctx v finish) :
    ∃ holder, (SecurityAttributes.mark ctx v s.values (plain ctx v name start finish)).holder? v
        wrapper = some holder ∧ ShowsBounds ctx v start finish holder := by
  obtain ⟨holder, hholder, hchildren, huri⟩ := holder?_addWrapped
    (e := SecurityAttributes.mark ctx v s.values (plain ctx v name start finish))
    ((SecurityAttributes.children_mark _).trans (children_addWrapped "temporalCoverage"))
    (by simp [plain])
  refine ⟨holder, hholder, fun l hl => ?_⟩
  have hname : (ctx.ddmsName v "name").isNamed v.ddmsUri l = false := by
    rw [Context.isNamed_ddmsName]
    exact beq_false_of_ne hl.symm
  have hone : ∀ exact b, ReadAgain ctx v b → ∀ e ∈ [boundElement ctx v exact b],
      e.name.isNamed v.ddmsUri (slotName exact b) = true :=
    fun exact b hb => List.forall_mem_singleton.2 (isNamed_boundElement hb)
  have happend : ∀ a b : Element, [a, b] = [a] ++ [b] := fun _ _ => rfl
  rw [Element.ownChildren, Element.childrenNamed, hchildren, huri, List.filter_append, happend,
    List.filter_append, filter_named (names_textElements ctx v "name" name), hname,
    filter_isNamed (hone "start" start hx), filter_isNamed (hone "end" finish hy)]
  rfl

/-- The rules of the content look at the version and the bounds only. -/
theorem contentRules_congr {c' : TemporalCoverage} (hv : c'.version = c.version)
    (hs : c'.start = c.start) (hf : c'.finish = c.finish) :
    c'.contentRules holder = .ok () ↔ c.contentRules holder = .ok () := by
  have hfit : ∀ b, checkFit c'.toBase b = .ok () ↔ checkFit c.toBase b = .ok () := by
    intro b
    cases b with
    | exact value => rfl
    | approximate d => simp [checkFit, hv]
  simp only [contentRules, bind_ok, exists_unit, hv, hs, hf]
  by_cases h : c.version.atLeast .v4_1 = true <;>
    simp only [h, if_true, if_false, Bool.false_eq_true, bind_ok, exists_unit, forM_ok, hfit]

/-- The rules of the content say nothing of which approximable date comes first. -/
theorem contentRules_exchange {c' : TemporalCoverage} {d d' : ApproximableDate}
    (hv : c'.version = c.version) (hs : c.start = some (.approximate d))
    (hf : c.finish = some (.approximate d')) (hs' : c'.start = c.finish)
    (hf' : c'.finish = c.start) (h : c.contentRules holder = .ok ()) :
    c'.contentRules holder = .ok () := by
  rw [hf] at hs'
  rw [hs] at hf'
  -- both bounds are checked alike, and neither has an exact text to be compared
  unfold contentRules at h ⊢
  by_cases hnew : c.version.atLeast .v4_1 = true <;>
    simp_all [checkFit, exactText, bind_ok, exists_unit]

/-- A coverage is read from what is read of its bounds, if these keep the rules. -/
theorem ofElement_of_bounds {given : Option String} {start finish : Option TimeBound}
    (hname : e.name.isNamed v.ddmsUri "temporalCoverage" = true)
    (hholder : e.holder? v wrapper = some holder)
    (hstart : readBound ctx v holder "start" "approximableStart" = .ok start)
    (hfinish : readBound ctx v holder "end" "approximableEnd" = .ok finish)
    (hs : SecurityAttributes.ofElement ctx v e = .ok s)
    (hrules : contentRules ⟨⟨e, v, []⟩, given, start, finish, s⟩ holder = .ok ())
    (hsince : requireSecuritySince v .v3_0 s = .ok ()) :
    ∃ again, ofElement ctx v e = .ok again ∧ again.start = start ∧ again.finish = finish := by
  simp only [ofElement, hholder, readBoundIn, bind_ok, within_ok, withinHolder_ok, checked_iff]
  exact ⟨_, ⟨start, hstart, finish, hfinish, s, hs, ⟨hname, holder, rfl,
    (contentRules_congr rfl rfl rfl).1 hrules, hsince⟩, rfl⟩, rfl, rfl⟩

/-- Since version 4.1 the bounds are counted under both of their names; before, there are no
approximable dates. -/
theorem slots_of_rules (hx : ReadAgain ctx c.version start) (hy : ReadAgain ctx c.version finish)
    (hrules : c.contentRules holder = .ok ())
    (hfind : ShowsBounds ctx c.version start finish holder) :
    (slotName "start" start = "start" ∨ slotName "start" start = "approximableStart") ∧
        (slotName "end" finish = "end" ∨ slotName "end" finish = "approximableEnd") ∨
      slotName "start" start = "approximableEnd" ∧ slotName "end" finish = "approximableStart" := by
  have hcount : ∀ l, l ≠ "name" → (holder.ownChildren l).length =
      [slotName "start" start, slotName "end" finish].count l := by
    intro l hl
    rw [hfind l hl, List.count_cons, List.count_cons, List.count_nil]
    by_cases hs : slotName "start" start = l <;> by_cases hf : slotName "end" finish = l <;>
      simp [hs, hf]
  obtain ⟨-, hboth, -⟩ := counts_of_rules hrules
  by_cases hv : c.version.atLeast .v4_1 = true
  · obtain ⟨hstart, hend⟩ := hboth hv
    rw [hcount _ (by decide), hcount _ (by decide)] at hstart hend
    exact slots_of_counts (slotName_or hx) (slotName_or hy) hstart hend
  · have hexact : ∀ exact b, ReadAgain ctx c.version b → slotName exact b = exact := by
      intro exact b hb
      cases b with
      | exact value => rfl
      | approximate d => exact absurd hb.slot.1 hv
    exact .inl ⟨.inl (hexact _ _ hx), .inl (hexact _ _ hy)⟩

/-- A bound that has its own name is in its slot. -/
theorem inSlot_of_slotName (h : ReadAgain ctx v b) (hexact : exact ∉ ApproximableDate.names)
    (hslot : slotName exact b = exact ∨ slotName exact b = approximate) :
    ∀ d ∈ date? (some b), d.inSlot v approximate = true := by
  intro d hd
  cases b with
  | exact value => cases hd
  | approximate date =>
    obtain rfl : date = d := Option.some.inj hd
    have hsame : approximate = date.element.localName := boundName_eq h hexact hslot
    rw [hsame]
    exact h.slot.2.2

/-- A bound with a name of approximable dates is one. -/
theorem approximate_of_slotName (h : ReadAgain ctx v b) (hexact : exact ≠ x)
    (hslot : slotName exact b = x) : ∃ d, b = .approximate d ∧ d.inSlot v x = true := by
  cases b with
  | exact value => exact absurd hslot hexact
  | approximate d =>
    obtain rfl : d.element.localName = x := hslot
    exact ⟨d, rfl, h.slot.2.2⟩

/-- A date that was accepted is read again in a coverage of its version. -/
theorem readAgain_defaulted (hb : ∀ d ∈ date? (some b), d.Accepted)
    (hv : ∀ d, defaulted b = .approximate d → d.version = v) : ReadAgain ctx v (defaulted b) := by
  intro d hd
  cases b with
  | exact value => cases hd
  | approximate date =>
    obtain rfl : date = d := TimeBound.approximate.inj hd
    exact hv date rfl ▸ (hb date rfl).again ctx

/-- What is known of a coverage that was made with two bounds. -/
structure Made (ctx : Context) (v : Version) (name : String) (b b' : TimeBound)
    (s : SecurityAttributes) (c : TemporalCoverage) : Prop where
  version : c.version = v
  start : c.start = some b
  finish : c.finish = some b'
  element : c.element = SecurityAttributes.mark ctx v s.values (plain ctx v name b b')
  named : c.element.name.isNamed v.ddmsUri "temporalCoverage" = true
  marked : s.version = v
  since : requireSecuritySince v .v3_0 s = .ok ()
  rules : ∃ holder, c.element.holder? v wrapper = some holder ∧ c.contentRules holder = .ok ()

theorem made_of_make (h : make ctx v name start finish s = .ok c) :
    Made ctx v name (defaulted start) (defaulted finish) s c := by
  simp only [make, bind_ok, within_ok, checked_iff] at h
  obtain ⟨e, he, ⟨hname, holder, hholder, hrules, hsince⟩, rfl⟩ := h
  obtain ⟨hmarked, he⟩ := SecurityAttributes.addTo_ok.1 he
  exact ⟨rfl, rfl, rfl, he, hname, hmarked, hsince, holder, hholder,
    (contentRules_congr rfl rfl rfl).1 hrules⟩

variable {b' : TimeBound}

/-- The element of a coverage that was made has children of the names of its bounds, and these keep
the rules. -/
theorem Made.content (hm : Made ctx v name b b' s c) (hx : ReadAgain ctx v b)
    (hy : ReadAgain ctx v b') :
    ∃ holder, c.element.holder? v wrapper = some holder ∧ c.contentRules holder = .ok () ∧
      ShowsBounds ctx v b b' holder := by
  obtain ⟨holder, hholder, hrules⟩ := hm.rules
  obtain ⟨holder', hholder', hfind⟩ := holder?_plain name s hx hy
  rw [hm.element, hholder'] at hholder
  obtain rfl := Option.some.inj hholder
  exact ⟨holder', hm.element ▸ hholder', hrules, hfind⟩

/-- A coverage that was made is read with those bounds that are read, if they keep the rules. -/
theorem Made.read (hm : Made ctx v name b b' s c) (hs : s.Accepted ctx s.version)
    {start finish : Option TimeBound} (hholder : c.element.holder? v wrapper = some holder)
    (hstart : readBound ctx v holder "start" "approximableStart" = .ok start)
    (hfinish : readBound ctx v holder "end" "approximableEnd" = .ok finish)
    (hrules : contentRules ⟨⟨c.element, v, []⟩, none, start, finish, s⟩ holder = .ok ()) :
    ∃ again, ofElement ctx v c.element = .ok again ∧ again.start = start ∧
      again.finish = finish := by
  have hsec : SecurityAttributes.ofElement ctx v c.element = .ok s := by
    rw [hm.element]
    rw [hm.marked] at hs
    exact hs.ofElement_mark fun _ _ => by simp [plain]
  exact ofElement_of_bounds hm.named hholder hstart hfinish hsec hrules hm.since

theorem Made.read_slotted (hm : Made ctx v name b b' s c) (hs : s.Accepted ctx s.version)
    (hx : ReadAgain ctx v b) (hy : ReadAgain ctx v b')
    (hstart : slotName "start" b = "start" ∨ slotName "start" b = "approximableStart")
    (hend : slotName "end" b' = "end" ∨ slotName "end" b' = "approximableEnd") :
    c.Slotted ∧ ∃ again, ofElement ctx v c.element = .ok again ∧ again.start = c.start ∧
      again.finish = c.finish := by
  obtain ⟨holder, hholder, hrules, hfind⟩ := hm.content hx hy
  refine ⟨⟨?_, ?_⟩, ?_⟩
  · rw [hm.start, hm.version]
    exact inSlot_of_slotName hx (by decide) hstart
  · rw [hm.finish, hm.version]
    exact inSlot_of_slotName hy (by decide) hend
  · rw [hm.start, hm.finish]
    refine hm.read hs hholder ?_ ?_ ((contentRules_congr hm.version.symm hm.start.symm
      hm.finish.symm).2 hrules)
    · -- each bound is the only child with one of its names
      refine readBound_again hx (by decide) fun l hl => ?_
      rw [boundName_eq hx (by decide) hstart, hfind l (by rcases hl with rfl | rfl <;> decide)]
      rcases hl with rfl | rfl <;> rcases hend with hf | hf <;> simp [hf]
    · refine readBound_again hy (by decide) fun l hl => ?_
      rw [boundName_eq hy (by decide) hend, hfind l (by rcases hl with rfl | rfl <;> decide)]
      rcases hl with rfl | rfl <;> rcases hstart with hf | hf <;> simp [hf]

theorem Made.read_exchanged (hm : Made ctx v name b b' s c) (hs : s.Accepted ctx s.version)
    (hx : ReadAgain ctx v b) (hy : ReadAgain ctx v b')
    (hstart : slotName "start" b = "approximableEnd")
    (hend : slotName "end" b' = "approximableStart") :
    c.Exchanged ∧ ∃ again, ofElement ctx v c.element = .ok again ∧ again.start = c.finish ∧
      again.finish = c.start := by
  obtain ⟨holder, hholder, hrules, hfind⟩ := hm.content hx hy
  obtain ⟨d, rfl, hd⟩ := approximate_of_slotName hx (by decide) hstart
  obtain ⟨d', rfl, hd'⟩ := approximate_of_slotName hy (by decide) hend
  refine ⟨⟨⟨d, hm.start, hm.version ▸ hd⟩, d', hm.finish, hm.version ▸ hd'⟩, ?_⟩
  refine hm.read hs hholder ?_ ?_ (contentRules_exchange hm.version.symm hm.start hm.finish rfl rfl
    hrules)
  · rw [hm.finish]
    refine readBound_again hy (by decide) fun l hl => ?_
    rw [hfind l (by rcases hl with rfl | rfl <;> decide), hstart, hend]
    rcases hl with rfl | rfl <;> simp [boundName, boundElement]
  · rw [hm.start]
    refine readBound_again hx (by decide) fun l hl => ?_
    rw [hfind l (by rcases hl with rfl | rfl <;> decide), hstart, hend]
    rcases hl with rfl | rfl <;> simp [boundName, boundElement]

/-- A coverage is made with bounds that have their own names or, if both are approximable dates,
those of each other. From its element they are read in the order of their names. -/
theorem make_slots (hx : ∀ d ∈ date? (some start), d.Accepted)
    (hy : ∀ d ∈ date? (some finish), d.Accepted) (hs : s.Accepted ctx s.version)
    (h : make ctx v name start finish s = .ok c) :
    ∃ again, ofElement ctx v c.element = .ok again ∧
      (c.Slotted ∧ again.start = c.start ∧ again.finish = c.finish ∨
        c.Exchanged ∧ again.start = c.finish ∧ again.finish = c.start) := by
  have hm := made_of_make h
  obtain ⟨holder, hholder, hrules⟩ := hm.rules
  have hversions := version_of_contentRules hrules
  rw [hm.version] at hversions
  have hx : ReadAgain ctx v (defaulted start) :=
    readAgain_defaulted hx fun d hd => hversions d.toBase (by simp [parts, hm.start, hd, date?])
  have hy : ReadAgain ctx v (defaulted finish) :=
    readAgain_defaulted hy fun d hd => hversions d.toBase (by simp [parts, hm.finish, hd, date?])
  obtain ⟨holder, -, hrules, hfind⟩ := hm.content hx hy
  rw [← hm.version] at hfind
  rcases slots_of_rules (hm.version ▸ hx) (hm.version ▸ hy) hrules hfind with
    ⟨hstart, hend⟩ | ⟨hstart, hend⟩
  · obtain ⟨hslotted, again, hagain, hread⟩ := hm.read_slotted hs hx hy hstart hend
    exact ⟨again, hagain, .inl ⟨hslotted, hread⟩⟩
  · obtain ⟨hexchanged, again, hagain, hread⟩ := hm.read_exchanged hs hx hy hstart hend
    exact ⟨again, hagain, .inr ⟨hexchanged, hread⟩⟩

/-- Bounds that have each other's names do not have their own. -/
theorem Exchanged.not_slotted (h : c.Exchanged) : ¬c.Slotted := by
  intro hslotted
  obtain ⟨d, hd, hslot⟩ := h.start
  have hown := hslotted.start d (by rw [hd]; rfl)
  exact absurd (ApproximableDate.slot_unique hslot hown) (by decide)

/-- Two coverages of a version have their dates in their slots alike if they have the same bounds. -/
theorem slotted_congr {c' : TemporalCoverage} (hv : c'.version = c.version)
    (hs : c'.start = c.start) (hf : c'.finish = c.finish) (h : c'.Slotted) : c.Slotted :=
  ⟨hs ▸ hv ▸ h.start, hf ▸ hv ▸ h.finish⟩

end TemporalCoverage

/-- What is read has its approximable dates in the slots of their names. Dates that are made hold
the days of acquisition that are given, and those of that name are read again: all of them exactly if
they are all named so. The bounds of a coverage that is made are in their slots or exchanged, and
they are read again as they were given exactly if they are in their slots. -/
theorem dates_in_slots (ctx : Context) (v : Version) :
    (∀ (e : Element) (c : Dates), Dates.ofElement ctx v e = .ok c → c.Slotted) ∧
      (∀ (e : Element) (c : TemporalCoverage), TemporalCoverage.ofElement ctx v e = .ok c →
        c.Slotted) ∧
      (∀ (ds : List ApproximableDate) (values : DateValues) (c : Dates), (∀ d ∈ ds, d.Accepted) →
        Dates.make ctx v ds values = .ok c →
        c.acquiredOns = ds ∧
          ∃ again, Dates.ofElement ctx v c.element = .ok again ∧ again.values = c.values ∧
            again.acquiredOns = ds.filter (·.inSlot v "acquiredOn") ∧
            (c.Slotted ↔ again.acquiredOns = c.acquiredOns)) ∧
      ∀ (name : String) (start finish : TimeBound) (s : SecurityAttributes) (c : TemporalCoverage),
        (∀ d ∈ TemporalCoverage.date? (some start), d.Accepted) →
        (∀ d ∈ TemporalCoverage.date? (some finish), d.Accepted) → s.Accepted ctx s.version →
        TemporalCoverage.make ctx v name start finish s = .ok c →
        (c.Slotted ∨ c.Exchanged) ∧
          ∃ again, TemporalCoverage.ofElement ctx v c.element = .ok again ∧
            (c.Slotted ↔ again.start = c.start ∧ again.finish = c.finish) ∧
            (c.Exchanged → again.start = c.finish ∧ again.finish = c.start) := by
  refine ⟨fun _ _ => Dates.slotted_of_read, fun _ _ => TemporalCoverage.slotted_of_read, ?_, ?_⟩
  · intro ds values c hd h
    obtain ⟨hversion, hds, hvalues, again, hagain, hfilter, hsame⟩ := Dates.make_slots hd h
    refine ⟨hds, again, hagain, hsame.trans hvalues.symm, hfilter, ?_⟩
    rw [Dates.Slotted, hversion, hfilter, hds, List.filter_eq_self]
  · intro name start finish s c hx hy hs h
    obtain ⟨again, hagain, hread⟩ := TemporalCoverage.make_slots hx hy hs h
    have hversion : again.version = c.version := by
      obtain ⟨-, _, -, hin⟩ := TemporalCoverage.ofElement_content hagain
      exact hin.version.trans (TemporalCoverage.made_of_make h).version.symm
    refine ⟨hread.imp And.left And.left, again, hagain, ⟨fun hslotted => ?_, ?_⟩, fun hex => ?_⟩
    · rcases hread with ⟨-, hsame⟩ | ⟨hex, -⟩
      · exact hsame
      · exact absurd hslotted hex.not_slotted
    · rintro ⟨hstart, hfinish⟩
      exact TemporalCoverage.slotted_congr hversion hstart hfinish
        (TemporalCoverage.slotted_of_read hagain)
    · rcases hread with ⟨hslotted, -⟩ | ⟨-, hcrossed⟩
      · exact absurd hslotted hex.not_slotted
      · exact hcrossed

namespace ApproximableDate

/-- A date that is given in words. -/
def worded (name : String) : Outcome ApproximableDate := make {} .v5_0 name "spring" "" "" "" ""

end ApproximableDate

open ApproximableDate (worded)

/-- Dates with the start of a period as a day of acquisition. -/
def Dates.misplaced : Outcome Dates := do
  make {} .v5_0 [← worded "approximableStart", ← worded "acquiredOn"] {}

/-- A coverage whose bounds have each other's names. -/
def TemporalCoverage.crossed : Outcome TemporalCoverage := do
  make {} .v5_0 "" (.approximate (← worded "approximableEnd"))
    (.approximate (← worded "approximableStart")) (.empty .v5_0)

theorem Dates.misplaced_ok {c : Dates} (h : misplaced = .ok c) :
    ∃ ds, (∀ d ∈ ds, d.Accepted) ∧ make {} .v5_0 ds {} = .ok c := by
  simp only [misplaced, bind_ok] at h
  obtain ⟨d, hd, d', hd', h⟩ := h
  refine ⟨[d, d'], ?_, h⟩
  simp only [List.forall_mem_cons, List.not_mem_nil, false_implies, implies_true, and_true]
  exact ⟨ApproximableDate.accepted_of_make hd, ApproximableDate.accepted_of_make hd'⟩

theorem TemporalCoverage.crossed_ok {c : TemporalCoverage} (h : crossed = .ok c) :
    ∃ d d', d.Accepted ∧ d'.Accepted ∧
      make {} .v5_0 "" (.approximate d) (.approximate d') (.empty .v5_0) = .ok c := by
  simp only [crossed, bind_ok] at h
  obtain ⟨d, hd, d', hd', h⟩ := h
  exact ⟨d, d', ApproximableDate.accepted_of_make hd, ApproximableDate.accepted_of_make hd', h⟩

theorem dates_in_slots_mixed :
    (∃ c again, Dates.misplaced = .ok c ∧ Dates.ofElement {} .v5_0 c.element = .ok again ∧
        again.acquiredOns = c.acquiredOns.filter (·.inSlot .v5_0 "acquiredOn") ∧ again.Slotted) ∧
      ∃ c again, TemporalCoverage.crossed = .ok c ∧
        TemporalCoverage.ofElement {} .v5_0 c.element = .ok again ∧ again.Slotted := by
  obtain ⟨hdates, hcoverages, hmade, hbounds⟩ := dates_in_slots {} .v5_0
  constructor
  · obtain ⟨c, hc⟩ := isSome_toOption.1 (show Dates.misplaced.toOption.isSome = true by
      decide +kernel)
    obtain ⟨ds, hds, hmake⟩ := Dates.misplaced_ok hc
    obtain ⟨hsame, again, hagain, -, hfilter, -⟩ := hmade ds {} c hds hmake
    exact ⟨c, again, hc, hagain, hsame ▸ hfilter, hdates _ again hagain⟩
  · obtain ⟨c, hc⟩ := isSome_toOption.1 (show TemporalCoverage.crossed.toOption.isSome = true by
      decide +kernel)
    obtain ⟨d, d', hd, hd', hmake⟩ := TemporalCoverage.crossed_ok hc
    have hs : (SecurityAttributes.empty .v5_0).Accepted {} .v5_0 := ⟨fun _ => none, rfl⟩
    have hdate : ∀ d : ApproximableDate, d.Accepted →
        ∀ x ∈ TemporalCoverage.date? (some (.approximate d)), x.Accepted := by
      intro d hd x hx
      exact Option.some.inj hx ▸ hd
    obtain ⟨-, again, hagain, -⟩ := hbounds "" (.approximate d) (.approximate d') (.empty .v5_0) c
      (hdate d hd) (hdate d' hd') hs hmake
    exact ⟨c, again, hc, hagain, hcoverages _ again hagain⟩

/-- Dates are accepted with the start of a period among the days of acquisition, and a coverage with
bounds that have each other's names. -/
theorem dates_out_of_slots :
    (∃ c, Dates.misplaced = .ok c ∧ ¬c.Slotted) ∧
      ∃ c, TemporalCoverage.crossed = .ok c ∧ ¬c.Slotted := by
  constructor
  · have hread : Dates.misplaced.toOption.map (fun c =>
        c.acquiredOns.all (·.inSlot c.version "acquiredOn")) = some false := by decide +kernel
    obtain ⟨c, hc, hslots⟩ := Option.map_eq_some_iff.1 hread
    refine ⟨c, toOption_ok.1 hc, fun h => ?_⟩
    rw [List.all_eq_true.2 h] at hslots
    cases hslots
  · have hread : TemporalCoverage.crossed.toOption.map (fun c =>
        (TemporalCoverage.date? c.start).any (·.inSlot c.version "approximableEnd")) =
          some true := by decide +kernel
    obtain ⟨c, hc, hslots⟩ := Option.map_eq_some_iff.1 hread
    refine ⟨c, toOption_ok.1 hc, fun h => ?_⟩
    obtain ⟨d, hd, hslot⟩ := (Option.any_eq_true _ _).1 hslots
    exact absurd (ApproximableDate.slot_unique hslot (h.start d hd)) (by decide)

end DiscoveryMetadata
