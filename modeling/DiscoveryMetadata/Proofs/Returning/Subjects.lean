import DiscoveryMetadata.Coverage.Subject
import DiscoveryMetadata.Coverage.Temporal
import DiscoveryMetadata.Coverage.Virtual
import DiscoveryMetadata.Proofs.Returning.Records
import DiscoveryMetadata.Proofs.Text.Numeral
import DiscoveryMetadata.Proofs.Text.Words
import DiscoveryMetadata.Relation
/-
  Relations, subjects, virtual spaces and times are read again from the elements that they are made
  into.

  `Draft.integers` are the whole numbers of a draft. What is read are numbers of 64 bits, so they
  have to fit.
-/
namespace DiscoveryMetadata

open Buildable
open Xml (Element IsName Tidy)
open Xml.Element (Regular)

variable {fit : String → Prop} {ctx : Context} {v : Version} {s : SecurityAttributes}
  {sd : SecurityAttributes.Draft}

section Relations

namespace Link

variable {c : Link} {link : LinkAttributes}

theorem regular_addTo {e : Element} (h : e.Regular fit (ctx.bindings v)) :
    (link.addTo ctx e).Regular fit (ctx.bindings v) := by
  have hnames : ∀ p ∈ link.pairs, IsName p.1 := by
    simp only [LinkAttributes.pairs, List.forall_mem_cons]
    exact ⟨by decide, by decide, by decide, by decide, by decide, by decide, by decide, by decide,
      by simp⟩
  rw [LinkAttributes.addTo_eq]
  exact h.putAll fun p hp => .listed (.intro (by simp [Context.bindings]) (hnames p hp))

theorem make_returns (hl : link.check v = .ok ()) (hs : sd.commitAs ctx v = .ok s)
    (h : make ctx v link s = .ok c) : Returns fit ofElement ctx v (ctx.ddmsName v "link") c := by
  simp only [make, bind_ok, within_ok] at h
  obtain ⟨e, he, hc⟩ := h
  have hsec := SecurityAttributes.ofElement_addTo hs he fun n _ => by
    rw [LinkAttributes.attribute?_addTo (by simp [v.xlinkUri_ne_ismUri.symm])]
    rfl
  obtain ⟨-, rfl⟩ := SecurityAttributes.addTo_ok.1 he
  have hlink : LinkAttributes.ofElement v (SecurityAttributes.mark ctx v s.values
      (link.addTo ctx (ctx.ddmsElement v "link"))) = .ok link := by
    rw [LinkAttributes.ofElement_mark, LinkAttributes.ofElement_addTo fun _ => rfl]
    exact LinkAttributes.checked_ok.2 ⟨hl, rfl⟩
  refine .of_made hc (fun _ => rfl) ?_ (by simp [Component.base])
    ((regular_addTo (.ddmsElement (by decide))).mark hs)
  simp only [Component.base, ofElement, bind_ok, within_ok]
  exact ⟨link, hlink, s, hsec, hc⟩

theorem build_returns {d : Draft} (h : build ctx v d = .ok c) :
    Returns fit ofElement ctx v (ctx.ddmsName v "link") c := by
  obtain ⟨l, hl, h⟩ := bind_ok.1 h
  obtain ⟨s, hs, h⟩ := bind_ok.1 h
  obtain ⟨hcheck, rfl⟩ := LinkAttributes.checked_ok.1 hl
  exact make_returns hcheck hs h

end Link

namespace RelatedResource

variable {c : RelatedResource} {links : List Link} {relationship direction qualifier value : String}

/-- An element with what a related resource says of its links. -/
def fill (ctx : Context) (v : Version) (links : List Link) (qualifier value : String)
    (e : Element) : Element :=
  ((e.put (ctx.ddmsName v "qualifier") qualifier).put (ctx.ddmsName v "value") value).add
    (links.map (·.element))

/-- The element of a related resource, with what it says of the relation. -/
def outer (ctx : Context) (v : Version) (relationship direction : String) : Element :=
  ((ctx.ddmsElement v (name v)).put (ctx.ddmsName v "relationship") relationship).put
    (ctx.ddmsName v "direction") direction

/-- The element of a related resource; before version 4.0.1 its links are in a wrapper. -/
def whole (ctx : Context) (v : Version) (links : List Link)
    (relationship direction qualifier value : String) : Element :=
  if v.atLeast .v4_0_1 then fill ctx v links qualifier value (outer ctx v relationship direction)
  else (outer ctx v relationship direction).add
    [fill ctx v links qualifier value (ctx.ddmsElement v wrapper)]

/-- The element that holds the links is found again, with what it holds. -/
theorem holder?_mark_whole (s : SecurityAttributes) (relationship direction qualifier value : String)
    (hlinks : ∀ e ∈ links.map (·.element), e.name = ctx.ddmsName v "link") :
    ∃ h, (SecurityAttributes.mark ctx v s.values
        (whole ctx v links relationship direction qualifier value)).holder? v wrapper = some h ∧
      h.ownChildren "link" = links.map (·.element) ∧ h.own "qualifier" = qualifier ∧
      h.own "value" = value := by
  unfold Element.holder? Element.wrapper?
  by_cases hv : v.atLeast .v4_0_1
  · refine ⟨_, by rw [if_pos hv], ?_⟩
    simp [hv, whole, fill, outer, Element.ownChildren, Element.childrenNamed, filter_named hlinks,
      Element.own, SecurityAttributes.attributeText_mark v.ddmsUri_ne_ismUri,
      Element.attributeText_put]
  · refine ⟨fill ctx v links qualifier value (ctx.ddmsElement v wrapper), ?_, ?_⟩
    · simp [hv, whole, outer, fill, Element.ownChild?, Element.child?]
    · simp [fill, Element.ownChildren, Element.childrenNamed, filter_named hlinks, Element.own,
        Element.attributeText_put]

theorem regular_whole (h : ∀ e ∈ links.map (·.element), e.Regular fit (ctx.bindings v)) :
    (whole ctx v links relationship direction qualifier value).Regular fit (ctx.bindings v) := by
  have hname : IsName (name v) := by cases v <;> decide
  have houter : (outer ctx v relationship direction).Regular fit (ctx.bindings v) :=
    ((Regular.ddmsElement hname).putDdms (by decide)).putDdms (by decide)
  have hfill : ∀ e : Element, e.Regular fit (ctx.bindings v) →
      (fill ctx v links qualifier value e).Regular fit (ctx.bindings v) := fun e he =>
    ((he.putDdms (by decide)).putDdms (by decide)).add h
  unfold whole
  split
  · exact hfill _ houter
  · exact houter.add (List.forall_mem_singleton.2 (hfill _ (.ddmsElement (by decide))))

theorem make_returns
    (hlinks : ∀ l ∈ links, Returns fit Link.ofElement ctx v (ctx.ddmsName v "link") l)
    (hs : sd.commitAs ctx v = .ok s)
    (h : make ctx v links relationship direction qualifier value s = .ok c) :
    Returns fit ofElement ctx v (ctx.ddmsName v (name v)) c := by
  simp only [make, bind_ok, within_ok] at h
  obtain ⟨e, he, hc⟩ := h
  replace he : s.addTo ctx v (whole ctx v links relationship direction qualifier value) = .ok e := he
  have hname : (whole ctx v links relationship direction qualifier value).name =
      ctx.ddmsName v (name v) := by
    unfold whole
    split <;> simp [fill, outer]
  have hsec := SecurityAttributes.ofElement_addTo hs he (by
    unfold whole
    split <;> simp [fill, outer, Element.attribute?_put, v.ddmsUri_ne_ismUri])
  obtain ⟨-, rfl⟩ := SecurityAttributes.addTo_ok.1 he
  obtain ⟨holder, hholder, hchildren, hqualifier, hvalue⟩ := holder?_mark_whole s relationship
    direction qualifier value (names_returns hlinks)
  refine .of_made (e := SecurityAttributes.mark ctx v s.values
    (whole ctx v links relationship direction qualifier value)) hc (fun _ => rfl) ?_
    (by simpa using hname) ((regular_whole (regular_returns hlinks)).mark hs)
  have huri : (whole ctx v links relationship direction qualifier value).uri = v.ddmsUri :=
    congrArg (·.uri.getD "") hname
  have hown : ∀ l, l = "relationship" ∨ l = "direction" →
      (SecurityAttributes.mark ctx v s.values
        (whole ctx v links relationship direction qualifier value)).own l =
      (outer ctx v relationship direction).own l := by
    intro l hl
    rw [SecurityAttributes.own_mark huri]
    unfold whole
    rcases hl with rfl | rfl <;> split <;>
      simp [Element.own, fill, outer, Element.attributeText_put]
  have hrelationship := hown "relationship" (.inl rfl)
  have hdirection := hown "direction" (.inr rfl)
  simp only [ofElement, bind_ok, within_ok, hholder, withinHolder_ok, hchildren, Option.map_some,
    Option.getD_some, hqualifier, hvalue, hrelationship, hdirection]
  refine ⟨links, readAll_returns hlinks, s, hsec, ?_⟩
  simpa [Element.own, outer, Element.attributeText_put] using hc

theorem build_returns {d : Draft} (h : build ctx v d = .ok c) :
    Returns fit ofElement ctx v (ctx.ddmsName v (name v)) c := by
  obtain ⟨links, hlinks, h⟩ := bind_ok.1 h
  obtain ⟨s, hs, h⟩ := bind_ok.1 h
  exact make_returns (commitAll_all (fun _ _ _ => Link.build_returns) hlinks) hs h

end RelatedResource

end Relations

section Subjects

namespace Keyword

variable {c : Keyword} {value : String}

theorem make_returns (hs : sd.commitAs ctx v = .ok s)
    (h : make ctx v value s (.empty v) = .ok c) :
    Returns fit ofElement ctx v (ctx.ddmsName v "keyword") c := by
  simp only [make, bind_ok, within_ok] at h
  obtain ⟨e, ⟨e', he', he⟩, hc⟩ := h
  obtain rfl : e' = e := Except.ok.inj he
  have hsec := SecurityAttributes.ofElement_addTo hs he' (by
    simp [Element.attribute?_put, v.ddmsUri_ne_ismUri])
  obtain ⟨-, rfl⟩ := SecurityAttributes.addTo_ok.1 he'
  refine .of_made hc (fun _ => rfl) ?_ (by simp [Component.base, name])
    (((Regular.ddmsElement (by decide)).putDdms (by decide)).mark hs)
  simp only [Component.base, ofElement, bind_ok, within_ok]
  refine ⟨s, hsec, ?_⟩
  have hinside : ∀ a ∈ ((ctx.ddmsElement v name).put (ctx.ddmsName v "value") value).attributes,
      ExtensibleAttributes.isOutside v ⟨a.name, ""⟩ = false :=
    Element.forall_name_put (P := fun n => ExtensibleAttributes.isOutside v ⟨n, ""⟩ = false)
      (by simp) (ExtensibleAttributes.isOutside_ddmsName _ _)
  have hvalue : (SecurityAttributes.mark ctx v s.values ((ctx.ddmsElement v name).put
      (ctx.ddmsName v "value") value)).own "value" = value := by
    rw [SecurityAttributes.own_mark (by simp)]
    simp [Element.own, Element.attributeText_put]
  rw [ExtensibleAttributes.ofElement_mark hs hinside, hvalue]
  exact hc

theorem build_returns {d : Draft} (h : build ctx v d = .ok c) :
    Returns fit ofElement ctx v (ctx.ddmsName v "keyword") c := by
  obtain ⟨s, hs, h⟩ := bind_ok.1 h
  exact make_returns hs h

end Keyword

namespace Category

variable {c : Category} {qualifier code label : String}

theorem make_returns (hs : sd.commitAs ctx v = .ok s)
    (h : make ctx v qualifier code label s (.empty v) = .ok c) :
    Returns fit ofElement ctx v (ctx.ddmsName v "category") c := by
  simp only [make, bind_ok, within_ok] at h
  obtain ⟨e, ⟨e', he', he⟩, hc⟩ := h
  obtain rfl : e' = e := Except.ok.inj he
  have hsec := SecurityAttributes.ofElement_addTo hs he' (by
    simp [Element.attribute?_put, v.ddmsUri_ne_ismUri])
  obtain ⟨-, rfl⟩ := SecurityAttributes.addTo_ok.1 he'
  refine .of_made hc (fun _ => rfl) ?_ (by simp [Component.base, name])
    ((((Regular.ddmsElement (by decide)).putDdms (by decide)).putDdms (by decide)).putDdms
      (by decide) |>.mark hs)
  have hinside : ∀ a ∈ ((((ctx.ddmsElement v name).put (ctx.ddmsName v "qualifier") qualifier).put
      (ctx.ddmsName v "code") code).put (ctx.ddmsName v "label") label).attributes,
      ExtensibleAttributes.isOutside v ⟨a.name, ""⟩ = false := by
    let P : Xml.QName → Prop := fun n => ExtensibleAttributes.isOutside v ⟨n, ""⟩ = false
    have hname : ∀ l, P (ctx.ddmsName v l) := fun l => ExtensibleAttributes.isOutside_ddmsName l ""
    have hnone : ∀ a ∈ (ctx.ddmsElement v name).attributes, P a.name := by simp
    exact Element.forall_name_put (P := P) (Element.forall_name_put (P := P)
      (Element.forall_name_put (P := P) hnone (hname _)) (hname _)) (hname _)
  simp only [Component.base, ofElement, bind_ok, within_ok,
    ExtensibleAttributes.ofElement_mark hs hinside]
  refine ⟨s, hsec, ?_⟩
  convert hc using 2
  simp [Element.own, SecurityAttributes.attributeText_mark v.ddmsUri_ne_ismUri,
    Element.attributeText_put]

theorem build_returns {d : Draft} (h : build ctx v d = .ok c) :
    Returns fit ofElement ctx v (ctx.ddmsName v "category") c := by
  obtain ⟨s, hs, h⟩ := bind_ok.1 h
  exact make_returns hs h

end Category

namespace ProductionMetric

variable {c : ProductionMetric} {subject coverage : String}

theorem make_returns (hs : sd.commitAs ctx v = .ok s) (h : make ctx v subject coverage s = .ok c) :
    Returns fit ofElement ctx v (ctx.ddmsName v "productionMetric") c := by
  simp only [make, bind_ok, within_ok] at h
  obtain ⟨e, he, hc⟩ := h
  have hsec := SecurityAttributes.ofElement_addTo hs he (by
    simp [Element.attribute?_put, v.ddmsUri_ne_ismUri])
  obtain ⟨-, rfl⟩ := SecurityAttributes.addTo_ok.1 he
  refine .of_made hc (fun _ => rfl) ?_ (by simp [Component.base])
    (((Regular.ddmsElement (by decide)).putDdms (by decide)).putDdms (by decide) |>.mark hs)
  simp only [Component.base, ofElement, bind_ok, within_ok]
  refine ⟨s, hsec, ?_⟩
  convert hc using 2
  simp [Element.own, SecurityAttributes.attributeText_mark v.ddmsUri_ne_ismUri,
    Element.attributeText_put]

theorem build_returns {d : Draft} (h : build ctx v d = .ok c) :
    Returns fit ofElement ctx v (ctx.ddmsName v "productionMetric") c := by
  obtain ⟨s, hs, h⟩ := bind_ok.1 h
  exact make_returns hs h

end ProductionMetric

/-- A whole number that fits is read from the text that it is written as. -/
theorem orderOf_orderText {order : Option Int} (h : ∀ n ∈ order, Text.fits 64 n = true) :
    orderOf (orderText order) = .ok order := by
  cases order with
  | none => rfl
  | some n =>
    have hne : (toString n).isEmpty = false := by simpa using Text.intText_ne_empty n
    have htrim : Text.trim (toString n) = toString n :=
      Text.trim_of_no_space fun c hc => Text.isSpace_intText hc
    simp only [orderText, orderOf, Option.map_some, Option.getD_some, hne, Bool.false_eq_true,
      if_false, htrim, Text.int64?_intText (h n rfl)]

namespace NonStateActor

variable {c : NonStateActor} {value qualifier : String} {order : Option Int}

theorem make_returns (hv : fit value) (ho : ∀ n ∈ order, Text.fits 64 n = true)
    (hs : sd.commitAs ctx v = .ok s) (h : make ctx v value order qualifier s = .ok c) :
    Returns fit ofElement ctx v (ctx.ddmsName v "nonStateActor") c := by
  simp only [make, bind_ok, within_ok] at h
  obtain ⟨e, he, hc⟩ := h
  have hsec := SecurityAttributes.ofElement_addTo hs he (by
    simp [Element.attribute?_put, v.ddmsUri_ne_ismUri])
  obtain ⟨-, rfl⟩ := SecurityAttributes.addTo_ok.1 he
  refine .of_made hc (fun _ => rfl) ?_ (by simp [Component.base])
    (((Regular.textElement (by decide) hv).putDdms (by decide)).putDdms (by decide) |>.mark hs)
  simp only [Component.base, ofElement, bind_ok, within_ok]
  refine ⟨order, ?_, s, hsec, ?_⟩
  · rw [← orderOf_orderText ho]
    congr 1
    simp [Element.own, SecurityAttributes.attributeText_mark v.ddmsUri_ne_ismUri,
      Element.attributeText_put]
  · convert hc using 2
    simp [Element.own, SecurityAttributes.attributeText_mark v.ddmsUri_ne_ismUri,
      Element.attributeText_put]

namespace Draft

/-- The texts of elements. -/
def texts (d : Draft) : List String := [d.value]

/-- The whole numbers. -/
def integers (d : Draft) : List Int := d.order.toList

end Draft

theorem build_returns {d : Draft} (ht : ∀ t ∈ d.texts, fit t)
    (hn : ∀ n ∈ d.integers, Text.fits 64 n = true) (h : build ctx v d = .ok c) :
    Returns fit ofElement ctx v (ctx.ddmsName v "nonStateActor") c := by
  obtain ⟨s, hs, h⟩ := bind_ok.1 h
  exact make_returns (by simpa [Draft.texts] using ht) (by simpa [Draft.integers] using hn) hs h

end NonStateActor

namespace SubjectCoverage

variable {c : SubjectCoverage} {keywords : List Keyword} {categories : List Category}
  {metrics : List ProductionMetric} {actors : List NonStateActor}

theorem make_returns
    (hk : ∀ k ∈ keywords, Returns fit Keyword.ofElement ctx v (ctx.ddmsName v "keyword") k)
    (hc : ∀ k ∈ categories, Returns fit Category.ofElement ctx v (ctx.ddmsName v "category") k)
    (hm : ∀ m ∈ metrics,
      Returns fit ProductionMetric.ofElement ctx v (ctx.ddmsName v "productionMetric") m)
    (ha : ∀ a ∈ actors,
      Returns fit NonStateActor.ofElement ctx v (ctx.ddmsName v "nonStateActor") a)
    (hs : sd.commitAs ctx v = .ok s)
    (h : make ctx v keywords categories metrics actors s = .ok c) :
    Returns fit ofElement ctx v (ctx.ddmsName v "subjectCoverage") c := by
  obtain ⟨content, hcontent⟩ : ∃ es, es = keywords.map (·.element) ++ categories.map (·.element) ++
      metrics.map (·.element) ++ actors.map (·.element) := ⟨_, rfl⟩
  simp only [make, ← hcontent, bind_ok, within_ok] at h
  obtain ⟨e, he, hmade⟩ := h
  have hsec := SecurityAttributes.ofElement_addTo hs he (by simp)
  obtain ⟨-, rfl⟩ := SecurityAttributes.addTo_ok.1 he
  obtain ⟨holder, hholder, hchildren, huri⟩ := holder?_addWrapped
    (e := SecurityAttributes.mark ctx v s.values
      (ctx.addWrapped v wrapper content (ctx.ddmsElement v "subjectCoverage")))
    ((SecurityAttributes.children_mark _).trans (children_addWrapped "subjectCoverage")) (by simp)
  have hfind : ∀ l, holder.ownChildren l =
      (if "keyword" = l then keywords.map (·.element) else []) ++
        (if "category" = l then categories.map (·.element) else []) ++
        (if "productionMetric" = l then metrics.map (·.element) else []) ++
        (if "nonStateActor" = l then actors.map (·.element) else []) := by
    intro l
    have hkn : ∀ e ∈ keywords.map (·.element), e.name = _ := names_returns hk
    have hcn : ∀ e ∈ categories.map (·.element), e.name = _ := names_returns hc
    have hmn : ∀ e ∈ metrics.map (·.element), e.name = _ := names_returns hm
    have han : ∀ e ∈ actors.map (·.element), e.name = _ := names_returns ha
    simp [Element.ownChildren, Element.childrenNamed, hchildren, huri, hcontent, filter_named hkn,
      filter_named hcn, filter_named hmn, filter_named han]
  refine .of_made (e := SecurityAttributes.mark ctx v s.values
    (ctx.addWrapped v wrapper content (ctx.ddmsElement v "subjectCoverage"))) hmade (fun _ => rfl) ?_
    (by simp) (((Regular.ddmsElement (by decide)).addWrapped (by decide) ?_).mark hs)
  · simp only [ofElement, hholder, Option.getD_some, hfind, bind_ok, within_ok, withinHolder_ok]
    refine ⟨keywords, ?_, categories, ?_, metrics, ?_, actors, ?_, s, hsec, hmade⟩
    · simpa [Component.base] using readAll_returns hk
    · simpa [Component.base] using readAll_returns hc
    · simpa [Component.base] using readAll_returns hm
    · simpa [Component.base] using readAll_returns ha
  · simp only [hcontent, List.forall_mem_append]
    exact ⟨⟨⟨regular_returns hk, regular_returns hc⟩, regular_returns hm⟩, regular_returns ha⟩

namespace Draft

/-- The texts of elements. -/
def texts (d : Draft) : List String := d.nonStateActors.flatMap (·.texts)

/-- The whole numbers. -/
def integers (d : Draft) : List Int := d.nonStateActors.flatMap (·.integers)

end Draft

theorem build_returns {d : Draft} (ht : ∀ t ∈ d.texts, fit t)
    (hn : ∀ n ∈ d.integers, Text.fits 64 n = true) (h : build ctx v d = .ok c) :
    Returns fit ofElement ctx v (ctx.ddmsName v "subjectCoverage") c := by
  simp only [Draft.texts, Draft.integers, List.forall_mem_flatMap] at ht hn
  obtain ⟨keywords, hk, h⟩ := bind_ok.1 h
  obtain ⟨categories, hc, h⟩ := bind_ok.1 h
  obtain ⟨metrics, hm, h⟩ := bind_ok.1 h
  obtain ⟨actors, ha, h⟩ := bind_ok.1 h
  obtain ⟨s, hs, h⟩ := bind_ok.1 h
  exact make_returns (commitAll_all (fun _ _ _ => Keyword.build_returns) hk)
    (commitAll_all (fun _ _ _ => Category.build_returns) hc)
    (commitAll_all (fun _ _ _ => ProductionMetric.build_returns) hm)
    (commitAll_all (fun a ha _ => NonStateActor.build_returns (ht a ha) (hn a ha)) ha) hs h

end SubjectCoverage

namespace VirtualCoverage

variable {c : VirtualCoverage} {address protocol : String}

theorem make_returns (hs : sd.commitAs ctx v = .ok s) (h : make ctx v address protocol s = .ok c) :
    Returns fit ofElement ctx v (ctx.ddmsName v "virtualCoverage") c := by
  simp only [make, bind_ok, within_ok] at h
  obtain ⟨e, he, hc⟩ := h
  have hsec := SecurityAttributes.ofElement_addTo hs he (by
    simp [Element.attribute?_put, v.ddmsUri_ne_ismUri])
  obtain ⟨-, rfl⟩ := SecurityAttributes.addTo_ok.1 he
  refine .of_made hc (fun _ => rfl) ?_ (by simp [Component.base])
    (((Regular.ddmsElement (by decide)).putDdms (by decide)).putDdms (by decide) |>.mark hs)
  simp only [Component.base, ofElement, bind_ok, within_ok]
  refine ⟨s, hsec, ?_⟩
  convert hc using 2
  simp [Element.own, SecurityAttributes.attributeText_mark v.ddmsUri_ne_ismUri,
    Element.attributeText_put]

theorem build_returns {d : Draft} (h : build ctx v d = .ok c) :
    Returns fit ofElement ctx v (ctx.ddmsName v "virtualCoverage") c := by
  obtain ⟨s, hs, h⟩ := bind_ok.1 h
  exact make_returns hs h

end VirtualCoverage

end Subjects

section Times

namespace TemporalCoverage

variable {c : TemporalCoverage} {name text l exact approximate : String}
  {start finish b : TimeBound}

/-- The local name of the element that a bound is written as. -/
def boundName (exact approximate : String) : TimeBound → String
  | .exact _ => exact
  | .approximate _ => approximate

/-- The bound is read again from its element: its text can stand in a document, or its date is one
that is read again and has the name for this bound. -/
inductive BoundReturns (ctx : Context) (v : Version) (approximate : String) : TimeBound → Prop
  | exact {value : String} (h : Tidy value) : BoundReturns ctx v approximate (.exact value)
  | approximate {date : ApproximableDate}
      (h : Returns Tidy ApproximableDate.ofElement ctx v (ctx.ddmsName v approximate) date) :
      BoundReturns ctx v approximate (.approximate date)

theorem BoundReturns.name_boundElement (h : BoundReturns ctx v approximate b) :
    ∀ e ∈ [boundElement ctx v exact b],
      e.name = ctx.ddmsName v (boundName exact approximate b) := by
  refine List.forall_mem_singleton.2 ?_
  cases h with
  | exact h => exact ctx.name_textElement v _ _
  | approximate h => exact h.name

theorem BoundReturns.regular_boundElement (h : BoundReturns ctx v approximate b)
    (hl : IsName exact) : (boundElement ctx v exact b).Regular Tidy (ctx.bindings v) := by
  cases h with
  | exact h => exact .textElement hl h
  | approximate h => exact h.regular

theorem BoundReturns.again (h : BoundReturns ctx v approximate b) :
    ∀ date, b = .approximate date → ApproximableDate.ofElement ctx v date.element = .ok date := by
  rintro date rfl
  cases h with
  | approximate h => exact h.again

/-- A bound is read from the only child that has one of its names. -/
theorem readBound_again {holder : Element}
    (h : ∀ date, b = .approximate date → ApproximableDate.ofElement ctx v date.element = .ok date)
    (hne : approximate ≠ exact)
    (hfind : ∀ l, l = exact ∨ l = approximate → holder.ownChildren l =
      if boundName exact approximate b = l then [boundElement ctx v exact b] else []) :
    readBound ctx v holder exact approximate = .ok (some b) := by
  have hexact := hfind exact (.inl rfl)
  have happroximate := hfind approximate (.inr rfl)
  unfold readBound
  rw [Element.ownChild?_eq, Element.ownChild?_eq, hexact, happroximate]
  cases b with
  | exact value => simp [boundName, boundElement]
  | approximate date =>
    have hother : boundName exact approximate (.approximate date) ≠ exact := hne
    have hsame : boundName exact approximate (.approximate date) = approximate := rfl
    have hdate : readOption ApproximableDate.ofElement ctx v (some date.element) =
        .ok (some date) := readOption_ok.2 (.some (h date rfl))
    rw [if_neg hother, if_pos hsame]
    exact bind_ok.2 ⟨_, hdate, rfl⟩

theorem make_returns (ht : Tidy name)
    (hstart : BoundReturns ctx v "approximableStart" (defaulted start))
    (hfinish : BoundReturns ctx v "approximableEnd" (defaulted finish))
    (hs : sd.commitAs ctx v = .ok s) (h : make ctx v name start finish s = .ok c) :
    Returns Tidy ofElement ctx v (ctx.ddmsName v "temporalCoverage") c := by
  obtain ⟨content, hcontent⟩ : ∃ es, es = ctx.textElements v "name" name ++
      [boundElement ctx v "start" (defaulted start)] ++
      [boundElement ctx v "end" (defaulted finish)] := ⟨_, rfl⟩
  have hcontent' : ctx.textElements v "name" name ++
      [boundElement ctx v "start" (defaulted start), boundElement ctx v "end" (defaulted finish)] =
      content := by simp [hcontent]
  simp only [make, hcontent', bind_ok, within_ok] at h
  obtain ⟨e, he, hmade⟩ := h
  have hsec := SecurityAttributes.ofElement_addTo hs he (by simp)
  obtain ⟨-, rfl⟩ := SecurityAttributes.addTo_ok.1 he
  -- the content is found again in the wrapper, or in the element itself where there is none
  obtain ⟨holder, hholder, hchildren, huri⟩ := holder?_addWrapped
    (e := SecurityAttributes.mark ctx v s.values
      (ctx.addWrapped v wrapper content (ctx.ddmsElement v "temporalCoverage")))
    ((SecurityAttributes.children_mark _).trans (children_addWrapped "temporalCoverage")) (by simp)
  have hfind : ∀ l, holder.ownChildren l =
      (if "name" = l then ctx.textElements v "name" name else []) ++
        (if boundName "start" "approximableStart" (defaulted start) = l then
          [boundElement ctx v "start" (defaulted start)] else []) ++
        (if boundName "end" "approximableEnd" (defaulted finish) = l then
          [boundElement ctx v "end" (defaulted finish)] else []) := by
    intro l
    rw [Element.ownChildren, Element.childrenNamed, hchildren, huri, hcontent, List.filter_append,
      List.filter_append, filter_named (names_textElements ctx v "name" name),
      filter_named hstart.name_boundElement, filter_named hfinish.name_boundElement]
    simp
  have hstartName : boundName "start" "approximableStart" (defaulted start) = "start" ∨
      boundName "start" "approximableStart" (defaulted start) = "approximableStart" := by
    cases defaulted start <;> simp [boundName]
  have hfinishName : boundName "end" "approximableEnd" (defaulted finish) = "end" ∨
      boundName "end" "approximableEnd" (defaulted finish) = "approximableEnd" := by
    cases defaulted finish <;> simp [boundName]
  refine .of_made (e := SecurityAttributes.mark ctx v s.values
    (ctx.addWrapped v wrapper content (ctx.ddmsElement v "temporalCoverage"))) hmade
    (fun _ => rfl) ?_ (by simp)
    (((Regular.ddmsElement (by decide)).addWrapped (by decide) ?_).mark hs)
  · simp only [ofElement, hholder, readBoundIn, Option.bind_some, bind_ok, within_ok,
      withinHolder_ok]
    refine ⟨_, readBound_again hstart.again (by decide) ?_, _,
      readBound_again hfinish.again (by decide) ?_,
      s, hsec, ?_⟩
    · rintro l (rfl | rfl) <;> rcases hfinishName with hn | hn <;> simp [hfind, hn]
    · rintro l (rfl | rfl) <;> rcases hstartName with hn | hn <;> simp [hfind, hn]
    · have hgiven : (holder.ownChild? "name").map (·.content) =
          if name.isEmpty then none else some name := by
        rw [Element.ownChild?_eq, hfind]
        rcases hstartName with hs | hs <;> rcases hfinishName with hf | hf <;>
          by_cases hn : name = "" <;> simp [hs, hf, hn, Context.textElements]
      rw [hgiven]
      exact hmade
  · simp only [hcontent, List.forall_mem_append, List.forall_mem_singleton]
    exact ⟨⟨Regular.textElements (by decide) ht, hstart.regular_boundElement (by decide)⟩,
      hfinish.regular_boundElement (by decide)⟩

namespace Draft

/-- The texts of elements. -/
def texts (d : Draft) : List String :=
  [d.timePeriodName, d.startText, d.endText] ++ d.approximableStart.texts ++ d.approximableEnd.texts

/-- The approximable dates have the names of the elements that they stand for. -/
def Slotted (d : Draft) : Prop :=
  d.approximableStart.name = "approximableStart" ∧ d.approximableEnd.name = "approximableEnd"

instance (d : Draft) : Decidable d.Slotted := inferInstanceAs (Decidable (_ ∧ _))

end Draft

theorem bound_returns {d : ApproximableDate.Draft} (ht : Tidy text)
    (hd : d.name ∈ ApproximableDate.names) (hdt : ∀ t ∈ d.texts, Tidy t) (h : Draft.bound ctx v text d = .ok b) :
    BoundReturns ctx v d.name (defaulted b) := by
  have hunknown : Tidy unknown := by decide
  have hexact : BoundReturns ctx v d.name (defaulted (.exact text)) := by
    refine .exact ?_
    split
    · exact hunknown
    · exact ht
  unfold Draft.bound at h
  split at h
  · obtain ⟨o, ho, h⟩ := bind_ok.1 h
    cases o with
    | none => exact pure_ok.1 h ▸ hexact
    | some date =>
      obtain rfl := pure_ok.1 h
      exact .approximate (ApproximableDate.build_returns hd hdt (commitAs_some.1 ho).2)
  · exact pure_ok.1 h ▸ hexact

theorem build_returns {d : Draft} (hslots : d.Slotted) (ht : ∀ t ∈ d.texts, Tidy t)
    (h : build ctx v d = .ok c) :
    Returns Tidy ofElement ctx v (ctx.ddmsName v "temporalCoverage") c := by
  simp only [Draft.texts, List.forall_mem_append, List.forall_mem_cons] at ht
  obtain ⟨⟨⟨hname, hstartText, hendText, -⟩, hstart⟩, hend⟩ := ht
  obtain ⟨hstartName, hendName⟩ := hslots
  obtain ⟨start, hs, h⟩ := bind_ok.1 h
  obtain ⟨finish, hf, h⟩ := bind_ok.1 h
  obtain ⟨s, hsec, h⟩ := bind_ok.1 h
  exact make_returns hname
    (hstartName ▸ bound_returns hstartText (by rw [hstartName]; decide) hstart hs)
    (hendName ▸ bound_returns hendText (by rw [hendName]; decide) hend hf) hsec h

end TemporalCoverage

end Times

end DiscoveryMetadata
