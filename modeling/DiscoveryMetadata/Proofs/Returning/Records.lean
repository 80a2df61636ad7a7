import DiscoveryMetadata.Proofs.Attributes.Security
import DiscoveryMetadata.Proofs.Returning.Basic
import DiscoveryMetadata.Record.Dates
import DiscoveryMetadata.Record.Format
import DiscoveryMetadata.Record.Plain
/-
  Records of a resource are read again from the elements that they are made into.

  `Draft.texts` are the texts of a draft that become the texts of elements. White space at their
  ends is lost when the elements are written and read, so they have to be tidy.
-/
namespace DiscoveryMetadata

open Buildable
open Xml (Element IsName)
open Xml.Element (Regular)

variable {fit : String → Prop} {ctx : Context} {v : Version} {s : SecurityAttributes}
  {sd : SecurityAttributes.Draft}

namespace Identifier

theorem build_returns {d : Draft} {c : Identifier} (h : build ctx v d = .ok c) :
    Returns fit ofElement ctx v (ctx.ddmsName v "identifier") c :=
  .of_made h (fun _ => rfl) h (by simp [Component.base])
    (((Regular.ddmsElement (by decide)).putDdms (by decide)).putDdms (by decide))

end Identifier

namespace Caption

variable {c : Caption} {kind : Kind} {value : String}

theorem make_returns (hv : fit value) (hs : sd.commitAs ctx v = .ok s)
    (h : make ctx v kind value s = .ok c) :
    Returns fit ofElement ctx v (ctx.ddmsName v kind.name) c := by
  simp only [make, bind_ok, within_ok] at h
  obtain ⟨e, he, hc⟩ := h
  have hsec := SecurityAttributes.ofElement_addTo hs he (by simp)
  obtain ⟨-, rfl⟩ := SecurityAttributes.addTo_ok.1 he
  have hkind : Kind.ofName? kind.name = some kind := by cases kind <;> decide
  have hname : IsName kind.name := by cases kind <;> decide
  refine .of_made hc (fun _ => rfl) ?_ (by simp [Component.base])
    ((Regular.textElement hname hv).mark hs)
  simp only [Component.base, ofElement, Element.localName, SecurityAttributes.name_mark,
    Context.name_textElement, Context.localName_ddmsName, hkind, bind_ok, within_ok]
  exact ⟨s, hsec, by simpa using hc⟩

/-- The texts of elements. -/
def Draft.texts (d : Draft) : List String := [d.value]

theorem build_returns {d : Draft} (ht : ∀ t ∈ d.texts, fit t) (h : build ctx v d = .ok c) :
    Returns fit ofElement ctx v (ctx.ddmsName v d.kind.name) c := by
  obtain ⟨s, hs, h⟩ := bind_ok.1 h
  exact make_returns (by simpa [Draft.texts] using ht) hs h

end Caption

namespace Language

theorem build_returns {d : Draft} {c : Language} (h : build ctx v d = .ok c) :
    Returns fit ofElement ctx v (ctx.ddmsName v "language") c :=
  .of_made h (fun _ => rfl) h (by simp [Component.base])
    (((Regular.ddmsElement (by decide)).putDdms (by decide)).putDdms (by decide))

end Language

namespace ApproximableDate

/-- The texts of elements. -/
def Draft.texts (d : Draft) : List String :=
  [d.description, d.date, d.searchableStart, d.searchableEnd]

theorem regular_dateElements {date approximation : String} (ht : fit date) :
    ∀ e ∈ dateElements ctx v date approximation, e.Regular fit (ctx.bindings v) := by
  unfold dateElements
  split
  · simp
  · exact List.forall_mem_singleton.2 ((Regular.textElement (by decide) ht).putDdms (by decide))

theorem regular_windowElements {start finish : String} (hs : fit start) (hf : fit finish) :
    ∀ e ∈ windowElements ctx v start finish, e.Regular fit (ctx.bindings v) := by
  unfold windowElements
  split
  · simp
  · refine List.forall_mem_singleton.2 ((Regular.ddmsElement (by decide)).add ?_)
    exact List.forall_mem_cons.2 ⟨.textElement (by decide) hs,
      List.forall_mem_singleton.2 (.textElement (by decide) hf)⟩

theorem build_returns {d : Draft} {c : ApproximableDate} (hn : d.name ∈ names)
    (ht : ∀ t ∈ d.texts, fit t) (h : build ctx v d = .ok c) :
    Returns fit ofElement ctx v (ctx.ddmsName v d.name) c := by
  simp only [Draft.texts, List.forall_mem_cons] at ht
  obtain ⟨hdescription, hdate, hstart, hend, -⟩ := ht
  have hname : ∀ n ∈ names, IsName n := by decide
  refine .of_made h (fun _ => rfl) h (by simp [Component.base])
    ((Regular.ddmsElement (hname _ hn)).add ?_)
  simp only [List.forall_mem_append]
  exact ⟨⟨Regular.textElements (by decide) hdescription, regular_dateElements hdate⟩,
    regular_windowElements hstart hend⟩

end ApproximableDate

namespace Dates

variable {c : Dates} {acquiredOns : List ApproximableDate} {values : DateValues}

theorem make_returns
    (hdates : ∀ d ∈ acquiredOns,
      Returns fit ApproximableDate.ofElement ctx v (ctx.ddmsName v "acquiredOn") d)
    (h : make ctx v acquiredOns values = .ok c) :
    Returns fit ofElement ctx v (ctx.ddmsName v "dates") c := by
  have hnames : ∀ e ∈ acquiredOns.map (·.element), e.name = ctx.ddmsName v "acquiredOn" :=
    names_returns hdates
  refine .of_made h (fun _ => rfl) ?_ (by simp [Component.base, DateValues.entries])
    (Regular.add ?_ (regular_returns hdates))
  · simp only [Component.base, ofElement, bind_ok, within_ok]
    refine ⟨acquiredOns, ?_, ?_⟩
    · convert readAll_returns hdates using 2
      simp [Component.base, Element.ownChildren, Element.childrenNamed, DateValues.entries,
        filter_named hnames]
    · convert h using 2
      simp [make, DateValues.ofNames, DateValues.entries, Element.own, Element.attributeText_put]
  · simp only [DateValues.entries, List.foldl_cons, List.foldl_nil]
    exact (((((Regular.ddmsElement (by decide)).putDdms (by decide)).putDdms (by decide)).putDdms
      (by decide)).putDdms (by decide)).putDdms (by decide) |>.putDdms (by decide)

/-- The texts of elements. -/
def Draft.texts (d : Draft) : List String := d.acquiredOns.flatMap (·.texts)

theorem build_returns {d : Draft} (hd : ∀ a ∈ d.acquiredOns, a.name = "acquiredOn")
    (ht : ∀ t ∈ d.texts, fit t) (h : build ctx v d = .ok c) :
    Returns fit ofElement ctx v (ctx.ddmsName v "dates") c := by
  obtain ⟨dates, hdates, h⟩ := bind_ok.1 h
  refine make_returns (commitAll_all (fun a ha c hc => ?_) hdates) h
  have hname := hd a ha
  rw [← hname]
  exact ApproximableDate.build_returns (by rw [hname]; decide)
    (fun t hx => ht t (List.mem_flatMap.2 ⟨a, ha, hx⟩)) hc

end Dates

namespace Rights

theorem build_returns {d : Draft} {c : Rights} (h : build ctx v d = .ok c) :
    Returns fit ofElement ctx v (ctx.ddmsName v "rights") c := by
  refine .of_read h ?_ (by simp)
    ((((Regular.ddmsElement (by decide)).putDdms (by decide)).putDdms (by decide)).putDdms
      (by decide))
  simp only [build, make, ofElement, bind_ok, within_ok, exists_unit, pure_ok] at h
  obtain ⟨p, -, i, -, x, -, -, rfl⟩ := h
  rfl

end Rights

namespace Source

theorem build_returns {d : Draft} {c : Source} (h : build ctx v d = .ok c) :
    Returns fit ofElement ctx v (ctx.ddmsName v "source") c := by
  simp only [build, make, bind_ok, within_ok] at h
  obtain ⟨s, hs, e, he, h⟩ := h
  obtain ⟨-, rfl⟩ := SecurityAttributes.addTo_ok.1 he
  obtain ⟨s', -, hc⟩ := bind_ok.1 h
  exact .of_made hc (fun _ => rfl) h (by simp [Component.base])
    (((((Regular.ddmsElement (by decide)).putDdms (by decide)).putDdms (by decide)).putDdms
      (by decide)).putDdms (by decide) |>.mark hs)

end Source

namespace ResourceType

/-- The texts of elements. -/
def Draft.texts (d : Draft) : List String := [d.description]

theorem build_returns {d : Draft} {c : ResourceType} (ht : ∀ t ∈ d.texts, fit t)
    (h : build ctx v d = .ok c) : Returns fit ofElement ctx v (ctx.ddmsName v "type") c := by
  simp only [build, make, bind_ok, within_ok] at h
  obtain ⟨s, hs, e, he, h⟩ := h
  obtain ⟨-, rfl⟩ := SecurityAttributes.addTo_ok.1 he
  obtain ⟨s', -, hc⟩ := bind_ok.1 h
  have hd : fit d.description := by simpa [Draft.texts] using ht
  exact .of_made hc (fun _ => rfl) h (by simp [Component.base])
    (((Regular.textElement (by decide) hd).putDdms (by decide)).putDdms (by decide) |>.mark hs)

end ResourceType

namespace Extent

theorem build_returns {d : Draft} {c : Extent} (h : build ctx v d = .ok c) :
    Returns fit ofElement ctx v (ctx.ddmsName v "extent") c :=
  .of_made h (fun _ => rfl) h (by simp [Component.base])
    (((Regular.ddmsElement (by decide)).putDdms (by decide)).putDdms (by decide))

end Extent

namespace Format

variable {c : Format} {mimeType medium : String} {extent : Option Extent}

theorem make_returns
    (hx : ∀ x ∈ extent, Returns fit Extent.ofElement ctx v (ctx.ddmsName v "extent") x)
    (hmime : fit mimeType) (hmedium : fit medium) (h : make ctx v mimeType extent medium = .ok c) :
    Returns fit ofElement ctx v (ctx.ddmsName v "format") c := by
  have hnames : ∀ e ∈ (extent.map (·.element)).toList, e.name = ctx.ddmsName v "extent" :=
    names_returns_option hx
  have hregular : ∀ e ∈ ctx.textElements v "mimeType" mimeType ++
      (extent.map (·.element)).toList ++ ctx.textElements v "medium" medium,
      e.Regular fit (ctx.bindings v) := by
    simp only [List.forall_mem_append]
    exact ⟨⟨Regular.textElements (by decide) hmime, regular_returns_option hx⟩,
      Regular.textElements (by decide) hmedium⟩
  obtain ⟨media, hm, hc, hu⟩ := holder?_addWrapped (e := ctx.addWrapped v wrapper
    (ctx.textElements v "mimeType" mimeType ++ (extent.map (·.element)).toList ++
      ctx.textElements v "medium" medium) (ctx.ddmsElement v "format"))
    (children_addWrapped "format") (by simp)
  refine .of_made h (fun _ => rfl) ?_ (by simp [Component.base])
    ((Regular.ddmsElement (by decide)).addWrapped (by decide) hregular)
  have hfind : ∀ l, media.ownChildren l =
      (if "mimeType" = l then ctx.textElements v "mimeType" mimeType else []) ++
        (if "extent" = l then (extent.map (·.element)).toList else []) ++
        (if "medium" = l then ctx.textElements v "medium" medium else []) := by
    intro l
    simp [Element.ownChildren, Element.childrenNamed, hc, hu, filter_named hnames,
      filter_named (names_textElements ctx v _ _)]
  simp only [Component.base, ofElement, holder, hm, bind_ok, within_ok, withinHolder_ok,
    Option.getD_some]
  refine ⟨extent, ?_, ?_⟩
  · convert readOption_returns hx using 2
    simp [Component.base, Element.ownChild?_eq, hfind]
  · convert h using 2
    simp [make, Element.ownText, Element.ownChild?_eq, hfind, content_textElements]

/-- The texts of elements. -/
def Draft.texts (d : Draft) : List String := [d.mimeType, d.medium]

theorem build_returns {d : Draft} (ht : ∀ t ∈ d.texts, fit t) (h : build ctx v d = .ok c) :
    Returns fit ofElement ctx v (ctx.ddmsName v "format") c := by
  obtain ⟨x, hx, h⟩ := bind_ok.1 h
  simp only [Draft.texts, List.forall_mem_cons] at ht
  obtain ⟨hmime, hmedium, -⟩ := ht
  exact make_returns (commitAs_all (fun _ => Extent.build_returns) hx) hmime hmedium h

end Format

end DiscoveryMetadata
