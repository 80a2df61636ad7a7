import DiscoveryMetadata.Proofs.Equality
import DiscoveryMetadata.Proofs.Keeping.Resource
/-
  Prefixes do not matter.

  Two elements that differ in their prefixes and declarations only (`Element.Renames`) are both read
  as resources, or none is. What is read agrees up to prefixes; these count in the comparison of
  extensible elements and of extensible attributes, and nowhere else. Of an element without such
  contents (`Resource.Unextended`) a resource is read in which no prefix counts (`TopLevel.Bare`),
  and two of these that agree up to prefixes are as equal as each is to itself: that is, unless a
  number among them is none.

  Main statement: `Resource.renamed_equal`.
-/
namespace DiscoveryMetadata

open Xml (Element)

variable {ctx : Context} {v : Version} {e e' : Element} {p : Option String → Option String}

namespace Xml

/-- Leaves out a prefix. -/
def unprefixed (_ : Option String) : Option String := none

/-- The elements differ in their prefixes and declarations only. -/
def Element.Renames (e e' : Element) : Prop := e.restyle unprefixed = e'.restyle unprefixed

mutual
theorem Element.restyle_unprefixed : (e : Element) →
    (e.restyle p).restyle unprefixed = e.restyle unprefixed
  | ⟨name, attributes, text, children, _⟩ => by
    have hattributes : (attributes.map (·.restyle p)).map (·.restyle unprefixed) =
        attributes.map (·.restyle unprefixed) := by
      rw [List.map_map]
      rfl
    rw [Element.restyle, Element.restyle, Element.restyle, hattributes,
      restyleAll_unprefixed children]
    rfl

theorem restyleAll_unprefixed : (es : List Element) →
    restyleAll unprefixed (restyleAll p es) = restyleAll unprefixed es
  | [] => rfl
  | e :: r => by
    rw [restyleAll, restyleAll, restyleAll, e.restyle_unprefixed, restyleAll_unprefixed r]
end

/-- Whatever the prefixes of an element are changed to, only they and the declarations differ. -/
theorem Element.renames_restyle (p : Option String → Option String) (e : Element) :
    e.Renames (e.restyle p) := e.restyle_unprefixed.symm

end Xml

open Xml (unprefixed)

/-- What is known of each part by its element is known of all parts. -/
theorem readAll_map {α γ : Type} {read : Context → Version → Element → Outcome α} {f : α → γ}
    {g : Element → γ} (hf : ∀ {e c}, read ctx v e = .ok c → f c = g e) {es : List Element}
    {cs : List α} (h : readAll read ctx v es = .ok cs) : cs.map f = es.map g := by
  have hread := readAll_ok.1 h
  clear h
  induction hread with
  | nil => rfl
  | cons hc _ ih => rw [List.map_cons, List.map_cons, hf hc, ih]

theorem ExtensibleAttributes.IsFixed.of_isEmpty {a : ExtensibleAttributes}
    (h : a.isEmpty = true) : a.IsFixed p := by
  obtain ⟨version, attributes⟩ := a
  obtain rfl : attributes = [] := List.isEmpty_iff.1 h
  rfl

namespace SubjectCoverage

/-- The elements of the keywords and categories of a subject coverage. -/
def termsOf (v : Version) (e : Element) : List Element :=
  let holder := (e.holder? v wrapper).getD e
  holder.ownChildren "keyword" ++ holder.ownChildren "category"

/-- The extensible attributes of the keywords and categories. -/
def carried (c : SubjectCoverage) : List ExtensibleAttributes :=
  c.keywords.map (·.extensible) ++ c.categories.map (·.extensible)

theorem carried_restyle (c : SubjectCoverage) :
    (Restyled.restyle p c).carried = c.carried.map (·.restyle p) := by
  simp [carried, Restyled.restyle, Function.comp_def]

theorem isFixed_of_carried {c : SubjectCoverage} (h : ∀ x ∈ c.carried, x.isEmpty = true) :
    c.IsFixed p := by
  obtain ⟨hkeywords, hcategories⟩ := List.forall_mem_append.1 h
  constructor
  · intro k hk
    exact .of_isEmpty (hkeywords _ (List.mem_map_of_mem hk))
  · intro k hk
    exact .of_isEmpty (hcategories _ (List.mem_map_of_mem hk))

/-- What the terms of a coverage carry is what their elements do. -/
theorem carried_read {c : SubjectCoverage} (h : ofElement ctx v e = .ok c) :
    c.carried = (termsOf v e).map (ExtensibleAttributes.ofElement v) := by
  have hkeyword : ∀ {e k}, Keyword.ofElement ctx v e = .ok k → k.extensible = .ofElement v e := by
    intro e k hk
    simp only [Keyword.ofElement, Keyword.checked, bind_ok, pure_ok] at hk
    obtain ⟨_, -, _, -, rfl⟩ := hk
    rfl
  have hcategory : ∀ {e k}, Category.ofElement ctx v e = .ok k → k.extensible = .ofElement v e := by
    intro e k hk
    simp only [Category.ofElement, Category.checked, bind_ok, pure_ok] at hk
    obtain ⟨_, -, _, -, rfl⟩ := hk
    rfl
  simp only [ofElement, checked, bind_ok, within_ok, withinHolder_ok, check_ok, pure_ok] at h
  obtain ⟨ks, hks, cs, hcs, _, -, _, -, _, -, _, -, rfl⟩ := h
  show ks.map (·.extensible) ++ cs.map (·.extensible) = _
  rw [readAll_map hkeyword hks, readAll_map hcategory hcs, termsOf, List.map_append]

end SubjectCoverage

namespace TopLevel

/-- Nothing in the component is of those contents in which prefixes count. -/
def Bare : TopLevel → Prop
  | subject c => ∀ x ∈ c.carried, x.isEmpty = true
  | extensible _ => False
  | _ => True

theorem Bare.isFixed {t : TopLevel} (h : t.Bare) : t.IsFixed p := by
  cases t with
  | subject c => exact SubjectCoverage.isFixed_of_carried h
  | extensible c => exact h.elim
  | _ c => trivial

theorem bare_restyle {t : TopLevel} : (t.restyle p).Bare ↔ t.Bare := by
  cases t with
  | subject c =>
    show (∀ x ∈ (Restyled.restyle p c).carried, x.isEmpty = true) ↔ _
    rw [SubjectCoverage.carried_restyle, List.forall_mem_map]
    simp only [ExtensibleAttributes.isEmpty_restyle]
    exact Iff.rfl
  | _ c => exact Iff.rfl

theorem ofDdmsElement_bare {t : TopLevel} (h : ofDdmsElement ctx v e = .ok t)
    (he : e.localName = "subjectCoverage" → ∀ k ∈ SubjectCoverage.termsOf v e,
      (ExtensibleAttributes.ofElement v k).isEmpty = true) : t.Bare := by
  unfold ofDdmsElement at h
  split at h
  case h_8 hname =>
    -- of the kinds of DDMS, subject coverages alone have parts with extensible attributes
    obtain ⟨c, hc, rfl⟩ := map_ok.1 h
    show ∀ x ∈ c.carried, x.isEmpty = true
    rw [SubjectCoverage.carried_read hc, List.forall_mem_map]
    exact he hname
  case h_13 =>
    -- names that belong to some versions only, or to several kinds
    split_ifs at h
    all_goals
      obtain ⟨c, -, rfl⟩ := map_ok.1 h
      trivial
  all_goals
    obtain ⟨c, -, rfl⟩ := map_ok.1 h
    trivial

/-- An element in a namespace of DDMS is not read as an extensible one. -/
theorem ofElement_bare {t : TopLevel} (h : ofElement ctx v e = .ok t)
    (hd : Version.isDdmsUri e.uri = true)
    (he : e.localName = "subjectCoverage" → ∀ k ∈ SubjectCoverage.termsOf v e,
      (ExtensibleAttributes.ofElement v k).isEmpty = true) : t.Bare := by
  unfold ofElement at h
  split at h
  case isTrue => exact ofDdmsElement_bare h he
  case isFalse =>
    obtain ⟨c, hc, -⟩ := map_ok.1 h
    simp only [ExtensibleElement.ofElement, ExtensibleElement.rules, bind_ok, check_ok,
      forbid_ok] at hc
    obtain ⟨_, hrefused, -⟩ := hc
    rw [hd] at hrefused
    cases hrefused

end TopLevel

namespace Resource

open Xml.Element (Renames)

/-- Nothing in the element of a resource is of those contents in which prefixes count: all its
children are of DDMS, and neither it nor the keywords and categories below it carry extensible
attributes. -/
structure Unextended (v : Version) (e : Element) : Prop where
  children : ∀ c ∈ e.children, Version.isDdmsUri c.uri = true
  attributes : (ExtensibleAttributes.ofElement v e).isEmpty = true
  terms : ∀ c ∈ e.children, c.localName = "subjectCoverage" →
    ∀ k ∈ SubjectCoverage.termsOf v c, (ExtensibleAttributes.ofElement v k).isEmpty = true

instance (v : Version) (e : Element) : Decidable (Unextended v e) :=
  decidable_of_iff ((∀ c ∈ e.children, Version.isDdmsUri c.uri = true) ∧
      (ExtensibleAttributes.ofElement v e).isEmpty = true ∧
      ∀ c ∈ e.children, c.localName = "subjectCoverage" →
        ∀ k ∈ SubjectCoverage.termsOf v c, (ExtensibleAttributes.ofElement v k).isEmpty = true)
    ⟨fun ⟨hc, ha, ht⟩ => ⟨hc, ha, ht⟩, fun ⟨hc, ha, ht⟩ => ⟨hc, ha, ht⟩⟩

/-- Prefixes count nowhere in the resource. -/
structure Bare (r : Resource) : Prop where
  components : ∀ t ∈ r.components, t.Bare
  extensible : r.extensible.isEmpty = true

theorem Bare.isFixed {r : Resource} (h : r.Bare) : r.IsFixed p where
  components t ht := (h.components t ht).isFixed
  extensible := .of_isEmpty h.extensible

/-- Of two resources that agree up to prefixes, prefixes count in both or in none. -/
theorem Bare.of_restyle {r r' : Resource} (h : r.Bare) (hr : r'.restyle p = r.restyle p) :
    r'.Bare := by
  constructor
  · intro t' ht'
    have hcomponents : r'.components.map (·.restyle p) = r.components.map (·.restyle p) :=
      congrArg Resource.components hr
    obtain ⟨t, ht, hsame⟩ := List.mem_map.1 (hcomponents ▸ List.mem_map_of_mem ht')
    rw [← TopLevel.bare_restyle, ← hsame, TopLevel.bare_restyle]
    exact h.components t ht
  · have hextensible : r'.extensible.restyle p = r.extensible.restyle p :=
      congrArg Resource.extensible hr
    rw [← ExtensibleAttributes.isEmpty_restyle, hextensible, ExtensibleAttributes.isEmpty_restyle]
    exact h.extensible

theorem ofElement_bare {r : Resource} (h : ofElement ctx v e = .ok r) (he : Unextended v e) :
    r.Bare := by
  have hread := readFrom h
  obtain ⟨ts, hts, hcomponents⟩ := hread.components
  have hbare : ∀ t ∈ ts, t.Bare :=
    mapM_all (fun c hc t ht => TopLevel.ofElement_bare ht (he.children c hc) (he.terms c hc)) hts
  constructor
  · rw [hcomponents]
    intro t ht
    exact hbare t (TopLevel.mem_inOrder.1 ht)
  · rw [hread.extensible]
    exact he.attributes

/-- Resources that agree up to prefixes are as equal as one of them is to itself. -/
theorem Bare.beq_eq {r r' : Resource} (h : r.Bare) (hr : r'.restyle p = r.restyle p) :
    (r == r') = (r == r) := by
  calc (r == r')
      = (r.restyle p == r'.restyle p) := (beq_restyle h.isFixed (h.of_restyle hr).isFixed).symm
    _ = (r.restyle p == r.restyle p) := by rw [hr]
    _ = (r == r) := beq_restyle h.isFixed h.isFixed

/-- Of two elements that differ in their prefixes only, both are read as resources or none is; and
unless a number that was read is none, the resources are equal. -/
theorem renamed_equal (ctx : Context) (v : Version) (e₁ e₂ : Element) (h : e₁.Renames e₂)
    (he : Unextended v e₁) :
    ((∃ r₁, ofElement ctx v e₁ = .ok r₁) ↔ ∃ r₂, ofElement ctx v e₂ = .ok r₂) ∧
    ∀ r₁ r₂, ofElement ctx v e₁ = .ok r₁ → ofElement ctx v e₂ = .ok r₂ →
      (∀ t ∈ r₁.components, ∀ x ∈ t.numbers, x.isNaN = false) → (r₁ == r₂) = true := by
  have halike : Alike (restyle unprefixed) (ofElement ctx v e₁) (ofElement ctx v e₂) :=
    ofElement_alike h
  have hback : Alike (restyle unprefixed) (ofElement ctx v e₂) (ofElement ctx v e₁) :=
    ofElement_alike h.symm
  refine ⟨⟨?there, ?back⟩, ?equal⟩
  case there =>
    rintro ⟨r₁, h₁⟩
    obtain ⟨r₂, h₂, -⟩ := halike.exists_ok h₁
    exact ⟨r₂, h₂⟩
  case back =>
    rintro ⟨r₂, h₂⟩
    obtain ⟨r₁, h₁, -⟩ := hback.exists_ok h₂
    exact ⟨r₁, h₁⟩
  case equal =>
    intro r₁ r₂ h₁ h₂ hnumbers
    obtain ⟨r, hr, hsame⟩ := halike.exists_ok h₁
    obtain rfl : r = r₂ := Except.ok.inj (hr.symm.trans h₂)
    calc (r₁ == r)
        = (r₁ == r₁) := (ofElement_bare h₁ he).beq_eq hsame
      _ = true := beq_self hnumbers

/-- The element of a resource of version 5.0 about a point at a height. -/
def aboutPoint (height : String) : Element :=
  let ctx : Context := {}
  let gml := Xml.QName.prefixed "gml" (Version.gmlUri .v5_0)
  let point : Element :=
    { name := gml "Point"
      attributes := [⟨.unqualified "srsName", "urn:srs"⟩, ⟨gml "id", "here"⟩]
      children := [{ name := gml "pos", text := some ("32.1 40.1 " ++ height) }] }
  (about []).add [(ctx.ddmsElement .v5_0 "geospatialCoverage").add
    [(ctx.ddmsElement .v5_0 "boundingGeometry").add [point]]]

/-- Another prefix in the place of the one of DDMS. -/
def otherPrefix (nsPrefix : Option String) : Option String :=
  if nsPrefix = some "ddms" then some "d" else nsPrefix

theorem renamed_equal_aboutPoint :
    ∃ r₁ r₂, ofElement {} .v5_0 (aboutPoint "5") = .ok r₁ ∧
      ofElement {} .v5_0 ((aboutPoint "5").restyle otherPrefix) = .ok r₂ ∧ (r₁ == r₂) = true := by
  have hread : (ofElement {} .v5_0 (aboutPoint "5")).toOption.map
      (fun r => decide (∀ t ∈ r.components, ∀ x ∈ t.numbers, x.isNaN = false)) = some true := by
    decide +kernel
  have hplain : Unextended .v5_0 (aboutPoint "5") := by decide +kernel
  obtain ⟨r₁, h₁, hnumbers⟩ := Option.map_eq_some_iff.1 hread
  have h₁ := toOption_ok.1 h₁
  obtain ⟨hboth, hequal⟩ := renamed_equal {} .v5_0 (aboutPoint "5")
    ((aboutPoint "5").restyle otherPrefix) (Element.renames_restyle _ _) hplain
  obtain ⟨r₂, h₂⟩ := hboth.1 ⟨r₁, h₁⟩
  exact ⟨r₁, r₂, h₁, h₂, hequal r₁ r₂ h₁ h₂ (of_decide_eq_true hnumbers)⟩

/-- A height can be no number, and then no resource is equal to one with it. -/
theorem renamed_not_equal :
    (aboutPoint "NaN").Renames ((aboutPoint "NaN").restyle otherPrefix) ∧
      Unextended .v5_0 (aboutPoint "NaN") ∧
      ∃ r₁ r₂, ofElement {} .v5_0 (aboutPoint "NaN") = .ok r₁ ∧
        ofElement {} .v5_0 ((aboutPoint "NaN").restyle otherPrefix) = .ok r₂ ∧
        (r₁ == r₂) = false := by
  have hplain : Unextended .v5_0 (aboutPoint "NaN") := by decide +kernel
  have hread : ((ofElement {} .v5_0 (aboutPoint "NaN")).toOption.bind fun r₁ =>
      (ofElement {} .v5_0 ((aboutPoint "NaN").restyle otherPrefix)).toOption.map
        fun r₂ => r₁ == r₂) = some false := by decide +kernel
  obtain ⟨r₁, h₁, hsome⟩ := Option.bind_eq_some_iff.1 hread
  obtain ⟨r₂, h₂, hne⟩ := Option.map_eq_some_iff.1 hsome
  exact ⟨Element.renames_restyle _ _, hplain, r₁, r₂, toOption_ok.1 h₁, toOption_ok.1 h₂, hne⟩

end Resource

end DiscoveryMetadata
