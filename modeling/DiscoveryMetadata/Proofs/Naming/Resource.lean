import DiscoveryMetadata.Proofs.CanonicalOrder
import DiscoveryMetadata.Proofs.Gates.Resource
import DiscoveryMetadata.Proofs.Naming.Components
import DiscoveryMetadata.Proofs.Xml.Named
/-
  The names in the documents that resources are written as.

  The elements of the components of a resource are made of names with the prefixes of the context,
  and extensible elements come as they are (`Parts.MadeOf.prefixed`). Only the tag of the resource
  itself has names with other prefixes, those of the extensible attributes, next to the names that
  the resource gives it (`build_tag`). The writer declares every prefix of a tag as it is, so a
  prefix that is used for two namespaces there is declared twice.

  The main statement is `Resource.wellNamed_iff`: the document is well named just if the prefix of
  each extensible attribute stands for one namespace in the tag of the resource, and can be
  declared, and the extensible elements are well named where they stand.
-/
namespace DiscoveryMetadata.Resource

open Buildable
open Xml (Attribute Element QName declare isXmlName)
open Xml.Element (Regular)

variable {ctx : Context} {v : Version}

/-- Every component that a draft leads to but the extensible elements has the prefixes of the
context in its element. -/
theorem Parts.MadeOf.prefixed {d : Draft} {p : Parts} (h : p.MadeOf ctx v d) :
    ∀ t ∈ p.groups.flatten,
      t.base.element.Regular AnyText (ctx.bindings v) ∨ ∃ x, t = .extensible x := by
  have hall : ∀ {δ α : Type} [Component α] [Buildable δ α] [Prefixed δ α] {ds : List δ}
      {cs : List α} (wrap : α → TopLevel), (∀ c, (wrap c).base = Component.base c) →
      commitAll ctx v ds = .ok cs → ∀ t ∈ cs.map wrap,
        t.base.element.Regular AnyText (ctx.bindings v) ∨ ∃ x, t = .extensible x := by
    intro δ α _ _ _ ds cs wrap hbase hcs
    refine List.forall_mem_map.2 fun c hc => .inl ?_
    rw [hbase]
    exact regular_all hcs _ (List.mem_map_of_mem hc)
  have hone : ∀ {δ α : Type} [Component α] [Buildable δ α] [Prefixed δ α] {d : δ}
      {o : Option α} (wrap : α → TopLevel), (∀ c, (wrap c).base = Component.base c) →
      commitAs ctx v d = .ok o → ∀ t ∈ o.toList.map wrap,
        t.base.element.Regular AnyText (ctx.bindings v) ∨ ∃ x, t = .extensible x := by
    intro δ α _ _ _ d o wrap hbase ho
    refine List.forall_mem_map.2 fun c hc => .inl ?_
    rw [hbase]
    exact commitAs_all (fun _ => Prefixed.regular) ho c (Option.mem_toList.1 hc)
  simp only [Parts.groups, List.flatten_cons, List.flatten_nil, List.append_nil,
    List.forall_mem_append]
  exact ⟨hall .identifier (fun _ => rfl) h.identifiers, hall .caption (fun _ => rfl) h.titles,
    hall .caption (fun _ => rfl) h.subtitles, hone .caption (fun _ => rfl) h.description,
    hall .language (fun _ => rfl) h.languages, hone .dates (fun _ => rfl) h.dates,
    hone .rights (fun _ => rfl) h.rights, hall .source (fun _ => rfl) h.sources,
    hall .resourceType (fun _ => rfl) h.types, hall .producer (fun _ => rfl) h.creators,
    hall .producer (fun _ => rfl) h.publishers, hall .producer (fun _ => rfl) h.contributors,
    hall .producer (fun _ => rfl) h.pointsOfContact, hone .format (fun _ => rfl) h.format,
    hall .subject (fun _ => rfl) h.subjectCoverages,
    hall .virtual (fun _ => rfl) h.virtualCoverages,
    hall .temporal (fun _ => rfl) h.temporalCoverages,
    hall .geospatial (fun _ => rfl) h.geospatialCoverages,
    hall .related (fun _ => rfl) h.relatedResources,
    hone .management (fun _ => rfl) h.management,
    hone .security (fun _ => rfl) h.securityComponent,
    List.forall_mem_map.2 fun x _ => .inr ⟨x, rfl⟩⟩

variable {d : Draft} {r : Resource}

/-- The tag of a resource that is made: that of a regular element with the extensible attributes
behind its own, all with different expanded names. -/
theorem build_tag (h : build ctx v d = .ok r) :
    ∃ e : Element, e.Regular AnyText (ctx.bindings v) ∧ r.element.name = e.name ∧
      r.element.attributes = e.attributes ++ d.extensible ∧ r.element.declared = .empty ∧
      (∀ a ∈ d.extensible, a.name.uri.isSome) ∧
      r.element.attributes.Pairwise fun a b => a.name.sameExpanded b.name = false := by
  obtain ⟨p, -, -, hextensible, hs, hmake⟩ := build_ok h
  obtain ⟨e, he, helement, -⟩ := make_heading hmake
  obtain ⟨hx, huri⟩ := ExtensibleAttributes.ofList_ok hextensible
  -- each step of the fold puts one attribute behind the others, or refuses
  have hfold := ExtensibleAttributes.addTo_ok he
  rw [hx] at hfold
  have hregular : (heading ctx v r.markings r.security r.notice).Regular AnyText (ctx.bindings v) :=
    regular_heading hs
  have hregular' := hregular
  obtain ⟨-, -, distinct, -, declared, -⟩ := hregular'
  have hdistinct := ExtensibleAttributes.foldlM_distinct huri distinct hfold
  obtain rfl := ExtensibleAttributes.foldlM_ok hfold
  rw [helement]
  exact ⟨_, hregular, rfl, rfl, declared, huri, hdistinct⟩

theorem mem_extensibleElements {x : ExtensibleElement} :
    x ∈ r.extensibleElements ↔ .extensible x ∈ r.components := by
  rw [extensibleElements, List.mem_filterMap]
  constructor
  · rintro ⟨t, ht, hx⟩
    split at hx
    · obtain rfl := Option.some.inj hx
      exact ht
    · cases hx
  · intro hx
    exact ⟨_, hx, rfl⟩

/-- The elements directly inside a resource that is made are those of its components: regular ones
and the extensible ones. -/
theorem build_children (h : build ctx v d = .ok r) :
    (∀ c ∈ r.element.children, c.Regular AnyText (ctx.bindings v) ∨
      ∃ x ∈ r.extensibleElements, c = x.element) ∧
        ∀ x ∈ r.extensibleElements, x.element ∈ r.element.children := by
  obtain ⟨p, hp, -, -, -, hmake⟩ := build_ok h
  obtain ⟨-, hcomponents, -⟩ := components_eq hp.kinded hmake
  have hchildren : r.element.children = r.components.map (·.base.element) := make_mirrors hmake
  rw [hchildren]
  refine ⟨List.forall_mem_map.2 fun t ht => ?_, fun x hx => ?_⟩
  · rcases hp.prefixed t (hcomponents ▸ ht) with hregular | ⟨x, rfl⟩
    · exact .inl hregular
    · exact .inr ⟨x, mem_extensibleElements.2 ht, rfl⟩
  · exact List.mem_map.2 ⟨_, mem_extensibleElements.1 hx, rfl⟩

/-- Without extensible content all names in a resource that is made have the prefixes of the
context. -/
theorem build_regular (h : build ctx v d = .ok r) (hattributes : d.extensible = [])
    (helements : allEmpty d.extensibleElements = true) :
    r.element.Regular AnyText (ctx.bindings v) := by
  obtain ⟨p, hp, -, hextensible, hs, hmake⟩ := build_ok h
  have hx : r.extensible = .empty v := by
    rw [hattributes] at hextensible
    exact (Except.ok.inj hextensible).symm
  rw [hx] at hmake
  obtain ⟨helement, -⟩ := make_ok hmake
  have hnone : p.extensibleElements = [] := by
    rw [allEmpty_eq hp.extensibleElements] at helements
    exact List.isEmpty_iff.1 helements
  rw [helement]
  refine (regular_heading hs).add (List.forall_mem_map.2 fun t ht => ?_)
  rcases hp.prefixed t (TopLevel.mem_inOrder.1 ht) with hregular | ⟨x, rfl⟩
  · exact hregular
  · have hmem : x ∈ p.extensibleElements := by
      simpa [Parts.groups] using TopLevel.mem_inOrder.1 ht
    rw [hnone] at hmem
    cases hmem

/-- The names in the tag of a resource that is made: those that the resource gives it, and those of
the extensible attributes. -/
theorem build_qnames (h : build ctx v d = .ok r) :
    ∀ q ∈ r.element.qnames, q.Usable (ctx.bindings v) ∨ ∃ a ∈ d.extensible, q = a.name := by
  obtain ⟨e, hregular, hname, hattributes, -⟩ := build_tag h
  obtain ⟨listed, usable, -⟩ := hregular
  intro q hq
  rw [Element.qnames, hname, hattributes, List.map_append] at hq
  rcases List.mem_cons.1 hq with rfl | hq
  · exact .inl (.listed listed)
  · rcases List.mem_append.1 hq with hq | hq <;> obtain ⟨a, ha, rfl⟩ := List.mem_map.1 hq
    · exact .inl (usable a ha)
    · exact .inr ⟨a, ha, rfl⟩

/-- The names in the tag of a resource that is made are clear, if the extensible attributes are
named as XML has it and are no declarations. -/
theorem build_clear (hprefixes : ctx.prefixes = {})
    (hnames : ∀ a ∈ d.extensible, ∀ n ∈ a.name.parts, isXmlName n = true)
    (h : build ctx v d = .ok r)
    (hattributes : ∀ a ∈ d.extensible, a.name.nsPrefix ≠ some "xmlns" ∧
      (a.name.nsPrefix = none → a.name.localName ≠ "xmlns")) :
    ∀ q ∈ r.element.qnames, q.Clear := by
  obtain ⟨-, -, -, -, -, huri, -⟩ := build_tag h
  intro q hq
  rcases build_qnames h q hq with husable | ⟨a, ha, rfl⟩
  · exact (husable.writable (Context.bindings_distinct hprefixes)).1.clear
  · obtain ⟨hp, hl⟩ := hattributes a ha
    exact Element.clear_of_xmlNames (hnames a ha) (huri a ha) hp hl

/-- Where the prefix of each extensible attribute tells its namespace, so do all prefixes in the tag
of a resource that is made. -/
theorem build_tells (hprefixes : ctx.prefixes = {}) (h : build ctx v d = .ok r)
    (htells : ∀ a ∈ d.extensible, r.element.Tells a.name) :
    ∀ q ∈ r.element.qnames, q.uri.isSome → r.element.Tells q := by
  have hothers : ∀ q ∈ r.element.qnames, q.Usable (ctx.bindings v) ∨ r.element.Tells q := by
    intro q hq
    rcases build_qnames h q hq with husable | ⟨a, ha, rfl⟩
    · exact .inl husable
    · exact .inr (htells a ha)
  intro q hq hu
  rcases hothers q hq with husable | htell
  · exact Element.tells_of_usable (Context.bindings_distinct hprefixes) husable hu hq hothers
  · exact htell

/-- Of a resource that is made from a draft, with extensible attributes named as XML has it, the
document is well named just if the prefix of each of them stands for its namespace alone in the tag
of the resource, and the extensible elements are well named where they stand. -/
theorem wellNamed_iff (ctx : Context) (v : Version) (d : Draft) (r : Resource)
    (hprefixes : ctx.prefixes = {})
    (hnames : ∀ a ∈ d.extensible, ∀ n ∈ a.name.parts, isXmlName n = true)
    (h : commitAs ctx v d = .ok (some r)) :
    r.element.WellNamed .empty ↔ (∀ a ∈ d.extensible, r.element.Tells a.name) ∧
      ∀ x ∈ r.extensibleElements, x.element.WellNamed (r.element.scopeWithin .empty) := by
  have hbuild := (commitAs_some.1 h).2
  obtain ⟨hchildren, hinside⟩ := build_children hbuild
  obtain ⟨e, hregular, hname, hattributes, hdeclared, huri, hdistinct⟩ := build_tag hbuild
  have hmem : ∀ a ∈ d.extensible, a ∈ r.element.attributes := fun a ha => by
    rw [hattributes]
    exact List.mem_append_right _ ha
  constructor
  · intro hwell
    have hinner := hwell
    obtain ⟨-, -, -, attributes, children⟩ := hinner
    -- what the document has as an attribute was not taken for a declaration
    have hclear := build_clear hprefixes hnames hbuild fun a ha =>
      Element.notDeclaring_of_declares? (attributes a (hmem a ha)).1
    constructor
    · intro a ha
      exact hwell.tells hclear (hmem a ha) (huri a ha)
    · intro x hx
      exact children _ (hinside x hx)
  · rintro ⟨htells, helements⟩
    have hclear := build_clear hprefixes hnames hbuild fun a ha =>
      ⟨(htells a ha).notDeclaring, fun hnone => by simpa [hnone] using (htells a ha).nsPrefix⟩
    have huri : r.element.name.uri.isSome := by
      obtain ⟨listed, -⟩ := hregular
      obtain ⟨-, b, -, -, hu⟩ := listed.mem (Context.bindings_distinct (v := v) hprefixes)
      rw [hname, hu, Option.isSome_some]
    have htag : r.element.Clear .empty :=
      .of_tells hdeclared huri hclear (build_tells hprefixes hbuild htells)
    apply htag.wellNamed hdistinct
    intro c hc
    rcases hchildren c hc with hc | ⟨x, hx, rfl⟩
    · exact hc.wellNamed (Context.bindings_distinct hprefixes)
    · exact helements x hx

/-- A resource with an extensible attribute whose prefix has another meaning further inside, and
an extensible element with a default namespace of its own. -/
def extended : Draft :=
  { contacted with
    geospatialCoverages :=
      [{ boundingGeometry :=
          { points :=
              [{ id := "here", srs := { name := "urn:srs" }
                 position :=
                  { coordinates := [Double.ofContent? "1", Double.ofContent? "2"] } }] } }]
    extensibleElements := [{ xml := "<note xmlns=\"urn:notes\" />" }]
    extensible := [⟨.prefixed "gml" "urn:other" "note", "text"⟩] }

/-- The tags of the extensible elements, and whether they are empty. -/
def extensibleTags (r : Resource) : List (QName × List Attribute × Xml.Scope × Bool) :=
  r.extensibleElements.map fun x =>
    (x.element.name, x.element.attributes, x.element.declared, x.element.children.isEmpty)

theorem wellNamed_extended :
    ∃ r, commitAs {} .v5_0 extended = .ok (some r) ∧ r.extensibleElements ≠ [] ∧
      r.element.WellNamed .empty := by
  have hmade : ∃ r ∈ (commitAs {} .v5_0 extended).toOption.bind id,
      (∀ a ∈ extended.extensible, r.element.Tells a.name) ∧
        (r.element.scopeWithin .empty).defaultUri = none ∧ extensibleTags r =
          [(⟨some "urn:notes", "note", none⟩, [], { defaultUri := some "urn:notes" }, true)] := by
    decide +kernel
  obtain ⟨r, hr, htells, hdefault, htags⟩ := hmade
  obtain ⟨o, ho, rfl⟩ := Option.bind_eq_some_iff.1 hr
  have hcommit := toOption_ok.1 ho
  -- the one extensible element has its default namespace declared, where none is in force
  have hsound : ∀ x ∈ r.extensibleElements, x.element.Sound none := by
    intro x hx
    have htag : _ ∈ extensibleTags r := List.mem_map.2 ⟨x, hx, rfl⟩
    simp only [htags, List.mem_singleton, Prod.mk.injEq] at htag
    obtain ⟨hname, hattributes, hdeclared, hchildren⟩ := htag
    generalize x.element = e at hname hattributes hchildren hdeclared
    obtain ⟨name, attributes, text, children, declared⟩ := e
    obtain rfl := List.isEmpty_iff.1 hchildren
    dsimp only at hname hattributes hdeclared
    subst hname hattributes hdeclared
    have hproper : Element.Proper none
        { name := ⟨some "urn:notes", "note", none⟩
          declared := { defaultUri := some "urn:notes" } } := by decide
    exact .intro hproper .nil (by simp)
  refine ⟨r, hcommit, fun hnone => ?_, ?_⟩
  · rw [extensibleTags, hnone] at htags
    cases htags
  · refine (wellNamed_iff {} .v5_0 extended r rfl (by decide) hcommit).2 ⟨htells, fun x hx => ?_⟩
    exact (hsound x hx).wellNamed hdefault

/-- With these extensible attributes, which are named as XML has it, a resource is accepted, and its
document is not well named. -/
def Misnamed (extensible : List Attribute) : Prop :=
  (∀ a ∈ extensible, ∀ n ∈ a.name.parts, isXmlName n = true) ∧
    ∃ r, commitAs {} .v5_0 { contacted with extensible } = .ok (some r) ∧
      ¬ r.element.WellNamed .empty

/-- The tag itself is well formed in its names and has the attributes that the element has. -/
def tagAgrees (e : Element) : Bool :=
  (declare .empty e.needs).1.Pairwise (fun d d' => d.nsPrefix ≠ d'.nsPrefix) &&
    e.attributes.all fun a =>
      ((e.scopeWithin .empty).resolveAttribute a.name.written).toOption == some a.name

theorem tagAgrees_of_wellNamed {e : Element} (h : e.WellNamed .empty) : tagAgrees e = true := by
  obtain ⟨declarations, -, -, attributes, -⟩ := h
  simp only [tagAgrees, Bool.and_eq_true, decide_eq_true_eq, List.all_eq_true]
  refine ⟨declarations, fun a ha => ?_⟩
  rw [(attributes a ha).2, Except.toOption, BEq.rfl]

theorem Misnamed.of_tag {extensible : List Attribute}
    (hnames : ∀ a ∈ extensible, ∀ n ∈ a.name.parts, isXmlName n = true)
    (hmade : ∃ r ∈ (commitAs {} .v5_0 { contacted with extensible }).toOption.bind id,
      tagAgrees r.element = false) : Misnamed extensible := by
  obtain ⟨r, hr, htag⟩ := hmade
  obtain ⟨o, ho, rfl⟩ := Option.bind_eq_some_iff.1 hr
  refine ⟨hnames, r, toOption_ok.1 ho, fun hwell => ?_⟩
  rw [tagAgrees_of_wellNamed hwell] at htag
  cases htag

/-- The names in the tag of a resource do not go with an attribute under a prefix of its own in
another namespace, with two under one prefix in two namespaces, with one in a namespace under no
prefix, and with one under a prefix that has its meaning. -/
theorem clashing_not_wellNamed :
    Misnamed [⟨.prefixed "ISM" "urn:other" "note", "text"⟩] ∧
      Misnamed [⟨.prefixed "p" "urn:one" "note", "text"⟩,
        ⟨.prefixed "p" "urn:two" "mark", "text"⟩] ∧
      Misnamed [⟨.prefixed "" "urn:other" "note", "text"⟩] ∧
      Misnamed [⟨.prefixed "xml" "urn:other" "note", "text"⟩] := by
  refine ⟨.of_tag ?_ ?_, .of_tag ?_ ?_, .of_tag ?_ ?_, .of_tag ?_ ?_⟩ <;> decide +kernel

end DiscoveryMetadata.Resource
