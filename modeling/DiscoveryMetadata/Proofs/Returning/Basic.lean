import DiscoveryMetadata.Proofs.Attributes.Groups
import DiscoveryMetadata.Proofs.Xml.Regular
/-
  Components that are read again from their own elements.

  `Returns` says this of one component, and that its element is regular. A component that was
  made holds the elements of its parts, group by group, and finds each group again by the name of
  its elements: `filter_named` says what is found in one group, and the parts are read from what is
  found (`readAll_returns`, `readOption_returns`). Where the content stands in a wrapper, the
  element that holds it is found again too (`holder?_addWrapped`).
-/
namespace DiscoveryMetadata

open Xml (Element IsName QName)

namespace Context

/-- The prefixes of a context, each with its namespace. -/
def bindings (ctx : Context) (v : Version) : List (String × String) :=
  [(ctx.prefixes.ddms, v.ddmsUri), (ctx.prefixes.ism, v.ismUri),
   (ctx.prefixes.ntk, Version.ntkUri), (ctx.prefixes.gml, v.gmlUri),
   (ctx.prefixes.xlink, Version.xlinkUri), (ctx.prefixes.virt, Version.virtUri)]

variable {ctx : Context} {v : Version} {l : String}

/-- The prefixes that are there without a configuration differ from one another. -/
theorem bindings_distinct (h : ctx.prefixes = {}) : Xml.Distinct (ctx.bindings v) := by
  constructor <;> simp only [bindings, h]
  · simp only [List.forall_mem_cons]
    decide
  · simp
  · simp

theorem listed_ddmsName (hl : IsName l) : (ctx.ddmsName v l).Listed (ctx.bindings v) :=
  .intro (by simp [bindings]) hl

theorem listed_ismName (hl : IsName l) : (ctx.ismName v l).Listed (ctx.bindings v) :=
  .intro (by simp [bindings]) hl

end Context

namespace Xml.Element.Regular

variable {fit : String → Prop} {ctx : Context} {v : Version} {e : Element} {l t : String}
  {content : List Element}

theorem ddmsElement (hl : IsName l) : (ctx.ddmsElement v l).Regular fit (ctx.bindings v) :=
  .bare (ctx.listed_ddmsName hl)

theorem textElement (hl : IsName l) (ht : fit t) :
    (ctx.textElement v l t).Regular fit (ctx.bindings v) :=
  (ddmsElement hl).putText ht

theorem textElements (hl : IsName l) (ht : fit t) :
    ∀ e ∈ ctx.textElements v l t, e.Regular fit (ctx.bindings v) := by
  unfold Context.textElements
  split
  · simp
  · exact List.forall_mem_singleton.2 (textElement hl ht)

theorem texts {ts : List String} (hl : IsName l) (ht : ∀ t ∈ ts, fit t) :
    ∀ e ∈ ts.map (ctx.textElement v l), e.Regular fit (ctx.bindings v) :=
  List.forall_mem_map.2 fun t h => textElement hl (ht t h)

/-- The element with a value put on it under a name of the DDMS elements. -/
theorem putDdms (h : e.Regular fit (ctx.bindings v)) (hl : IsName l) :
    (e.put (ctx.ddmsName v l) t).Regular fit (ctx.bindings v) :=
  h.put (.listed (ctx.listed_ddmsName hl))

theorem putAll {table : List (String × String)} {name : String → QName}
    {pairs : List (String × String)} (h : e.Regular fit table)
    (hn : ∀ p ∈ pairs, (name p.1).Usable table) : (e.putAll name pairs).Regular fit table := by
  induction pairs generalizing e with
  | nil => exact h
  | cons p r ih =>
    obtain ⟨hp, hr⟩ := List.forall_mem_cons.1 hn
    exact ih (h.put hp) hr

theorem addWrapped {w : String} (h : e.Regular fit (ctx.bindings v)) (hw : IsName w)
    (hc : ∀ c ∈ content, c.Regular fit (ctx.bindings v)) :
    (ctx.addWrapped v w content e).Regular fit (ctx.bindings v) := by
  unfold Context.addWrapped
  split
  · exact h.add hc
  · exact h.add (List.forall_mem_singleton.2 ((ddmsElement hw).add hc))

/-- The names of security attributes are names. -/
theorem isName_security : ∀ name ∈ SecurityAttributes.names, IsName name := by
  decide +kernel

/-- A marked element, with security attributes that were made. -/
theorem mark {s : SecurityAttributes} {d : SecurityAttributes.Draft}
    (h : e.Regular fit (ctx.bindings v)) (hs : d.commitAs ctx v = .ok s) :
    (SecurityAttributes.mark ctx v s.values e).Regular fit (ctx.bindings v) := by
  have hnames : ∀ p ∈ s.values, IsName p.1 := fun p hp =>
    isName_security p.1 (SecurityAttributes.name_of_mem_values hs p hp)
  generalize s.values = values at hnames
  induction values generalizing e with
  | nil => exact h
  | cons p r ih =>
    obtain ⟨hp, hr⟩ := List.forall_mem_cons.1 hnames
    exact ih (h.setAttribute (.listed (ctx.listed_ismName hp))) hr

end Xml.Element.Regular

/-- The component, whose element has the name, is read again from its element, and that element is
regular for the prefixes of the context. -/
structure Returns {α : Type} [Component α] (fit : String → Prop)
    (read : Context → Version → Element → Outcome α) (ctx : Context) (v : Version) (n : QName)
    (c : α) : Prop where
  name : (Component.base c).element.name = n
  again : read ctx v (Component.base c).element = .ok c
  regular : (Component.base c).element.Regular fit (ctx.bindings v)

section Making

variable {α ρ : Type} [Component α] {fit : String → Prop}
  {read : Context → Version → Element → Outcome α} {ctx : Context} {v : Version} {n : QName} {c : α}
  {e : Element}

theorem Returns.of_read (h : read ctx v e = .ok c) (he : (Component.base c).element = e)
    (hn : e.name = n) (hr : e.Regular fit (ctx.bindings v)) : Returns fit read ctx v n c := by
  subst he
  exact ⟨hn, h, hr⟩

/-- A component that was made keeps its element through the check of its rules. -/
theorem Returns.of_made {x : Outcome ρ} {k : ρ → α} (h : (do let r ← x; return k r) = .ok c)
    (hk : ∀ r, (Component.base (k r)).element = e) (hread : read ctx v e = .ok c)
    (hn : e.name = n) (hr : e.Regular fit (ctx.bindings v)) : Returns fit read ctx v n c := by
  obtain ⟨r, -, hc⟩ := bind_ok.1 h
  obtain rfl := pure_ok.1 hc
  exact .of_read hread (hk r) hn hr

end Making

section Names

variable {es : List Element} {n : QName} {u l : String}

/-- Among elements of one name, all are found under it and none under another. -/
theorem filter_named (h : ∀ e ∈ es, e.name = n) :
    es.filter (·.name.isNamed u l) = if n.isNamed u l then es else [] := by
  split
  case isTrue hn => exact List.filter_eq_self.2 fun e he => by rw [h e he, hn]
  case isFalse hn => exact List.filter_eq_nil_iff.2 fun e he => by rwa [h e he]

/-- The same among elements that have one local name in a namespace, whatever their prefixes. -/
theorem filter_isNamed {m : String} (h : ∀ e ∈ es, e.name.isNamed u m = true) :
    es.filter (·.name.isNamed u l) = if m = l then es else [] := by
  split
  case isTrue hm => exact List.filter_eq_self.2 fun e he => hm ▸ h e he
  case isFalse hm =>
    refine List.filter_eq_nil_iff.2 fun e he hl => hm ?_
    exact (Element.localName_of_isNamed (h e he)).symm.trans (Element.localName_of_isNamed hl)

theorem Xml.Element.child?_eq (e : Element) (u l : String) :
    e.child? u l = (e.childrenNamed u l).head? := List.head?_filter.symm

theorem Xml.Element.ownChild?_eq (e : Element) (l : String) :
    e.ownChild? l = (e.ownChildren l).head? := e.child?_eq e.uri l

end Names

section Texts

variable (ctx : Context) (v : Version) (l t : String) (ts : List String)

theorem names_texts : ∀ e ∈ ts.map (ctx.textElement v l), e.name = ctx.ddmsName v l :=
  List.forall_mem_map.2 fun t _ => ctx.name_textElement v l t

theorem names_textElements : ∀ e ∈ ctx.textElements v l t, e.name = ctx.ddmsName v l := by
  unfold Context.textElements
  split <;> simp

theorem contents_texts : (ts.map (ctx.textElement v l)).map Element.content = ts := by
  simp [Function.comp_def]

theorem content_textElements :
    ((ctx.textElements v l t).head?.map Element.content).getD "" = t := by
  unfold Context.textElements
  by_cases ht : t = "" <;> simp [ht]

theorem fit_dropBlank {fit : String → Prop} {ts : List String} (h : ∀ t ∈ ts, fit t) :
    ∀ t ∈ dropBlank ts, fit t :=
  fun t ht => h t (List.mem_filter.1 ht).1

end Texts

section Reading

variable {α : Type} [Component α] {fit : String → Prop}
  {read : Context → Version → Element → Outcome α} {ctx : Context} {v : Version} {n : QName}

theorem names_returns {cs : List α} (h : ∀ c ∈ cs, Returns fit read ctx v n c) :
    ∀ e ∈ cs.map (fun c => (Component.base c).element), e.name = n :=
  List.forall_mem_map.2 fun c hc => (h c hc).name

theorem regular_returns {cs : List α} (h : ∀ c ∈ cs, Returns fit read ctx v n c) :
    ∀ e ∈ cs.map (fun c => (Component.base c).element), e.Regular fit (ctx.bindings v) :=
  List.forall_mem_map.2 fun c hc => (h c hc).regular

theorem regular_returns_option {o : Option α} (h : ∀ c ∈ o, Returns fit read ctx v n c) :
    ∀ e ∈ (o.map fun c => (Component.base c).element).toList, e.Regular fit (ctx.bindings v) := by
  rw [Option.toList_map]
  exact regular_returns fun c hc => h c (Option.mem_toList.1 hc)

theorem names_returns_option {o : Option α} (h : ∀ c ∈ o, Returns fit read ctx v n c) :
    ∀ e ∈ (o.map fun c => (Component.base c).element).toList, e.name = n := by
  rw [Option.toList_map]
  exact names_returns fun c hc => h c (Option.mem_toList.1 hc)

/-- The parts of a list are read again from their elements if each of them is. -/
theorem readAll_again {cs : List α} (h : ∀ c ∈ cs, read ctx v (Component.base c).element = .ok c) :
    readAll read ctx v (cs.map fun c => (Component.base c).element) = .ok cs := by
  refine readAll_ok.2 ?_
  induction cs with
  | nil => exact .nil
  | cons c r ih =>
    obtain ⟨hc, hr⟩ := List.forall_mem_cons.1 h
    exact .cons hc (ih hr)

/-- A part that may be there is read again from its element. -/
theorem readOption_again {o : Option α}
    (h : ∀ c ∈ o, read ctx v (Component.base c).element = .ok c) :
    readOption read ctx v (o.map fun c => (Component.base c).element) = .ok o := by
  refine readOption_ok.2 ?_
  cases o with
  | none => exact .none
  | some c => exact .some (h c rfl)

theorem readAll_returns {cs : List α} (h : ∀ c ∈ cs, Returns fit read ctx v n c) :
    readAll read ctx v (cs.map fun c => (Component.base c).element) = .ok cs :=
  readAll_again fun c hc => (h c hc).again

theorem readOption_returns {o : Option α} (h : ∀ c ∈ o, Returns fit read ctx v n c) :
    readOption read ctx v (o.map fun c => (Component.base c).element) = .ok o :=
  readOption_again fun c hc => (h c hc).again

end Reading

section Wrappers

variable {ctx : Context} {v : Version} {w : String} {content : List Element} {e : Element}

theorem children_addWrapped (l : String) :
    (ctx.addWrapped v w content (ctx.ddmsElement v l)).children =
      if v.atLeast .v4_0_1 then content else [(ctx.ddmsElement v w).add content] := by
  unfold Context.addWrapped
  split <;> rfl

@[simp]
theorem name_addWrapped : (ctx.addWrapped v w content e).name = e.name := by
  unfold Context.addWrapped
  split <;> rfl

@[simp]
theorem uri_addWrapped : (ctx.addWrapped v w content e).uri = e.uri := by simp [Element.uri]

@[simp]
theorem attribute?_addWrapped (u : Option String) (l : String) :
    (ctx.addWrapped v w content e).attribute? u l = e.attribute? u l := by
  unfold Context.addWrapped
  split <;> rfl

/-- The element that holds the content has just that, and is in the namespace of DDMS. -/
theorem holder?_addWrapped
    (hc : e.children =
      if v.atLeast .v4_0_1 then content else [(ctx.ddmsElement v w).add content])
    (hu : e.uri = v.ddmsUri) :
    ∃ h, e.holder? v w = some h ∧ h.children = content ∧ h.uri = v.ddmsUri := by
  unfold Element.holder? Element.wrapper?
  split
  case isTrue hv =>
    rw [if_pos hv] at hc
    exact ⟨e, rfl, hc, hu⟩
  case isFalse hv =>
    rw [if_neg hv] at hc
    refine ⟨(ctx.ddmsElement v w).add content, ?_, rfl, rfl⟩
    rw [Element.ownChild?, Element.child?, hc, hu]
    simp

end Wrappers

end DiscoveryMetadata
