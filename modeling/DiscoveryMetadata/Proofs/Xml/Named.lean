import DiscoveryMetadata.Proofs.Xml.Proper
import DiscoveryMetadata.Proofs.Xml.Regular
/-
  Names that mean in a document what they were given for.

  In a document only what is written counts: a name in a tag has the namespace that its prefix
  stands for by the innermost declaration around it. `WellNamed` says of an element, where a scope
  is in force around it, that its tag declares no prefix twice and has no two attributes of one
  expanded name, that each name in the tag means what the element has, and that it is so in all
  elements below, each where it stands. The texts of a tree play no part in it.

  An element whose names are clear, with no prefix needed twice, is well named if those below it
  are (`Clear.wellNamed`). Trees made of names of a table whose prefixes differ are (`Regular`),
  whatever is in force around them, and so are trees that are proper up to their texts (`Sound`),
  where the default namespace around them is the one that was reckoned with.

  `Readable` says what this is for: the text of an element is read as an element with the same
  names in all tags. A tree that can be written but for its texts is (`Framed.readable`).
-/
namespace DiscoveryMetadata.Xml

namespace Element

/-- The scope inside a tag, by the declarations that are written in it. -/
def scopeWithin (outer : Scope) (e : Element) : Scope :=
  outer.inner (declaredScope (declare outer e.needs).1)

/-- Where `outer` is in force, the tag of the element and those of all elements below it are well
formed in their names, and these mean what the elements have. -/
inductive WellNamed : Scope → Element → Prop where
  | intro {outer : Scope} {e : Element}
      (declarations : (declare outer e.needs).1.Pairwise fun d d' => d.nsPrefix ≠ d'.nsPrefix)
      (distinct : e.attributes.Pairwise fun a b => a.name.sameExpanded b.name = false)
      (name : (e.scopeWithin outer).resolveElement e.name.written = .ok e.name)
      (attributes : ∀ a ∈ e.attributes, a.raw.declares? = none ∧
        (e.scopeWithin outer).resolveAttribute a.name.written = .ok a.name)
      (children : ∀ c ∈ e.children, WellNamed (e.scopeWithin outer) c) : WellNamed outer e

/-- The element is proper up to its text and has no two attributes of one expanded name, and so are
all elements below it, where `outer` is the default namespace around it. -/
inductive Sound : Option String → Element → Prop where
  | intro {outer : Option String} {e : Element} (itself : Proper outer { e with text := none })
      (distinct : e.attributes.Pairwise fun a b => a.name.sameExpanded b.name = false)
      (children : ∀ c ∈ e.children, Sound (e.defaultIn outer) c) : Sound outer e

/-- The name has a prefix that stands for its namespace and for no other in the tag of the
element, and that can be declared. -/
structure Tells (e : Element) (q : QName) : Prop where
  nsPrefix : q.nsPrefix.isSome
  notDeclaring : q.nsPrefix ≠ some "xmlns"
  reserved : q.nsPrefix = some "xml" → q.uri = some xmlNamespace
  agree : ∀ r ∈ e.qnames, r.nsPrefix = q.nsPrefix → r.uri = q.uri

instance (e : Element) (q : QName) : Decidable (e.Tells q) :=
  decidable_of_iff
    (q.nsPrefix.isSome ∧ q.nsPrefix ≠ some "xmlns" ∧
      (q.nsPrefix = some "xml" → q.uri = some xmlNamespace) ∧
      ∀ r ∈ e.qnames, r.nsPrefix = q.nsPrefix → r.uri = q.uri)
    ⟨fun ⟨h₁, h₂, h₃, h₄⟩ => ⟨h₁, h₂, h₃, h₄⟩,
      fun h => ⟨h.nsPrefix, h.notDeclaring, h.reserved, h.agree⟩⟩

variable {outer : Scope} {e : Element}

theorem Clear.scopeWithin_eq (h : e.Clear outer) : e.scopeWithin outer = e.inside outer :=
  h.inner_written

theorem Clear.wellNamed (h : e.Clear outer)
    (hd : e.attributes.Pairwise fun a b => a.name.sameExpanded b.name = false)
    (hc : ∀ c ∈ e.children, c.WellNamed (e.scopeWithin outer)) : e.WellNamed outer := by
  refine .intro (declare_distinct h.agree) hd ?name (fun a ha => ⟨?_, ?_⟩) hc
  case name =>
    rw [h.scopeWithin_eq]
    exact h.resolveElement
  · exact Attribute.declares?_raw (h.attributes a ha).1
  · rw [h.scopeWithin_eq]
    exact h.resolveAttribute ha

theorem Sound.wellNamed {default : Option String} (h : e.Sound default)
    (hs : outer.defaultUri = default) : e.WellNamed outer := by
  induction h generalizing outer with
  | @intro default e itself distinct _ ih =>
    subst hs
    -- texts have no part in names, so what is known of the element without its text carries over
    have hbare : Clear outer { e with text := none } := itself.presentable.clear
    have hclear : e.Clear outer :=
      ⟨hbare.name, hbare.attributes, hbare.agree, hbare.reserved, hbare.free⟩
    have hdefault : (e.scopeWithin outer).defaultUri = e.defaultIn outer.defaultUri :=
      calc (e.scopeWithin outer).defaultUri
          = (e.inside outer).defaultUri := by rw [hclear.scopeWithin_eq]
        _ = e.defaultIn outer.defaultUri := defaultUri_inside (e := { e with text := none }) itself
    exact hclear.wellNamed distinct fun c hc => ih c hc hdefault

theorem Regular.clear {fit : String → Prop} {table : List (String × String)} (ht : Distinct table)
    (h : e.Regular fit table) : e.Clear outer := by
  have hbare : Presentable outer { e with text := none } := h.presentable_bare ht
  have hclear := hbare.clear
  exact ⟨hclear.name, hclear.attributes, hclear.agree, hclear.reserved, hclear.free⟩

/-- A regular tree is well named, wherever it stands. -/
theorem Regular.wellNamed {fit : String → Prop} {table : List (String × String)}
    (ht : Distinct table) (h : e.Regular fit table) : e.WellNamed outer := by
  induction h generalizing outer with
  | intro name attributes distinct text declared children ih =>
    exact (Regular.clear ht (.intro name attributes distinct text declared children)).wellNamed
      distinct fun c hc => ih c hc

section Tags

variable {a : Attribute} {q : QName}

/-- An attribute that declares nothing is not named as a declaration. -/
theorem notDeclaring_of_declares? (h : a.raw.declares? = none) :
    a.name.nsPrefix ≠ some "xmlns" ∧ (a.name.nsPrefix = none → a.name.localName ≠ "xmlns") := by
  have hraw : ∀ d : Declaration, a.raw ≠ d.raw := by
    intro d hd
    rw [hd, Declaration.declares?_raw] at h
    cases h
  constructor
  · intro hp
    refine hraw ⟨some a.name.localName, a.value⟩ ?_
    simp [Attribute.raw, Declaration.raw, QName.written, hp]
  · intro hp hl
    refine hraw ⟨none, a.value⟩ ?_
    simp [Attribute.raw, Declaration.raw, QName.written, hp, hl]

/-- A name in a namespace that is put together of names is clear, unless it is a declaration. -/
theorem clear_of_xmlNames (hn : ∀ n ∈ q.parts, isXmlName n = true) (hu : q.uri.isSome)
    (hp : q.nsPrefix ≠ some "xmlns") (hl : q.nsPrefix = none → q.localName ≠ "xmlns") :
    q.Clear where
  nsPrefix p hq := by
    have hx : p ≠ "xmlns" := fun hx => hp (hx ▸ hq)
    have hname := IsName.of_xmlName (hn p (by simp [QName.parts, Option.mem_def.1 hq])) hx
    exact ⟨hname.ne_empty, hname.noColon, hx⟩
  localName hq :=
    have hname := IsName.of_xmlName (hn _ List.mem_cons_self) (hl hq)
    ⟨hname.noColon, hname.notDeclaring⟩
  uri _ := hu

/-- In a well-named tag of clear names the prefix of an attribute tells its namespace. -/
theorem WellNamed.tells (h : e.WellNamed outer) (hclear : ∀ r ∈ e.qnames, r.Clear)
    (ha : a ∈ e.attributes) (hu : a.name.uri.isSome) : e.Tells a.name := by
  obtain ⟨-, -, name, attributes, -⟩ := h
  have hmem : a.name ∈ e.qnames := List.mem_cons_of_mem _ (List.mem_map_of_mem ha)
  -- all names of the tag are looked up in the one scope, so a prefix stands for one namespace
  have hresolved : ∀ r ∈ e.qnames, ∀ p, r.nsPrefix = some p →
      r.uri = (e.scopeWithin outer).lookup p := by
    intro r hr p hp
    have helim : ∀ unprefixed, r.nsPrefix.elim unprefixed (e.scopeWithin outer).lookup =
        (e.scopeWithin outer).lookup p := fun _ => by rw [hp, Option.elim_some]
    rcases List.mem_cons.1 hr with rfl | hr'
    · exact ((Scope.resolve_written (hclear _ hr)).1 name).trans (helim _)
    · obtain ⟨b, hb, rfl⟩ := List.mem_map.1 hr'
      exact ((Scope.resolve_written (hclear _ hr)).1 (attributes b hb).2).trans (helim _)
  -- the default namespace does not reach attributes
  have hnone : a.name.nsPrefix ≠ none := by
    intro hp
    have huri := (Scope.resolve_written (hclear _ hmem)).1 (attributes a ha).2
    rw [hp, Option.elim_none] at huri
    simp [huri] at hu
  obtain ⟨p, hp⟩ := Option.ne_none_iff_exists'.1 hnone
  refine ⟨by simp [hp], (notDeclaring_of_declares? (attributes a ha).1).1, fun hx => ?_,
    fun r hr hrp => ?_⟩
  · rw [hresolved _ hmem _ hx]
    rfl
  · rw [hresolved r hr p (hrp.trans hp), hresolved _ hmem p hp]

/-- Where nothing is declared besides, clear names that are told by their prefixes make the tag
clear. -/
theorem Clear.of_tells (hd : e.declared = .empty) (hname : e.name.uri.isSome)
    (hclear : ∀ r ∈ e.qnames, r.Clear) (htells : ∀ r ∈ e.qnames, r.uri.isSome → e.Tells r) :
    e.Clear outer := by
  -- a prefix is needed for nothing but a name of the tag
  have hneeds : ∀ d ∈ e.needs, ∃ r ∈ e.qnames, r.nsPrefix = d.nsPrefix ∧ r.uri = some d.uri := by
    intro d hneed
    have huse := mem_uses hneed
    simp only [uses, hd, Scope.empty, List.map_nil, Option.map_none, Option.toList_none,
      List.append_nil, List.mem_filterMap, Option.map_eq_some_iff, Prod.mk.injEq] at huse
    obtain ⟨r, hr, u, hu, hp, rfl⟩ := huse
    exact ⟨r, hr, hp, hu⟩
  constructor
  case name => exact hclear _ List.mem_cons_self
  case attributes =>
    intro a ha
    have hmem : a.name ∈ e.qnames := List.mem_cons_of_mem _ (List.mem_map_of_mem ha)
    exact ⟨hclear _ hmem, fun hu => (htells _ hmem hu).nsPrefix⟩
  case agree =>
    intro d hneed d' hneed' hp
    obtain ⟨r, hr, hrp, hru⟩ := hneeds d hneed
    obtain ⟨r', hr', hrp', hru'⟩ := hneeds d' hneed'
    have hsame := (htells r' hr' (by simp [hru'])).agree r hr (by rw [hrp, hrp', hp])
    exact Option.some.inj (hru.symm.trans (hsame.trans hru'))
  case reserved =>
    intro d hneed hp
    obtain ⟨r, hr, hrp, hru⟩ := hneeds d hneed
    exact Option.some.inj (hru.symm.trans ((htells r hr (by simp [hru])).reserved (hrp.trans hp)))
  case free =>
    intro hu
    simp [hu] at hname

/-- A name of a table is told by its prefix where all other names are of the table or are told. -/
theorem tells_of_usable {table : List (String × String)} (ht : Distinct table)
    (hq : q.Usable table) (hu : q.uri.isSome) (hmem : q ∈ e.qnames)
    (hothers : ∀ r ∈ e.qnames, r.Usable table ∨ e.Tells r) : e.Tells q := by
  cases hq with
  | bare hl => cases hu
  | listed hl =>
    obtain ⟨-, b, hb, hp, huri⟩ := hl.mem ht
    refine ⟨by simp [hp], fun hx => ?_, fun hx => ?_, fun r hr hrp => ?_⟩
    · exact (ht.names b hb).notDeclaring (Option.some.inj (hp.symm.trans hx))
    · exact absurd (Option.some.inj (hp.symm.trans hx)) (ht.free b hb)
    · rcases hothers r hr with hr' | hr'
      · exact hr'.uri_eq ht (.listed hl) hrp
      · exact (hr'.agree q hmem hrp.symm).symm

end Tags

end Element

section Reading

/-- The elements have the same names in all tags, prefixes aside. -/
inductive Element.SameNames : Element → Element → Prop
  | intro {e e' : Element} (name : e.name.sameExpanded e'.name = true)
      (attributes : List.Forall₂ (fun a a' => a.name.sameExpanded a'.name = true)
        e.attributes e'.attributes)
      (children : List.Forall₂ Element.SameNames e.children e'.children) : Element.SameNames e e'

/-- The text of the element can be read, and has the names of the element in all tags. -/
def Element.Readable (e : Element) : Prop :=
  ∃ e' : Element, Element.ofXml e.toXml = .ok e' ∧ e'.SameNames e

theorem QName.sameExpanded_self (q : QName) : q.sameExpanded q = true := by simp [sameExpanded]

mutual
/-- An element that is another one as it is read, declarations aside, has its names. -/
theorem Element.sameNames_of_restyle : ∀ (e e' : Element),
    e'.restyle id = e.asRead.restyle id → e'.SameNames e
  | ⟨n, as, t, cs, d⟩, ⟨n', as', t', cs', d'⟩, h => by
    rw [Element.restyle_eq, Element.restyle_asRead, Element.mk.injEq] at h
    obtain ⟨hname, hattributes, -, hchildren, -⟩ := h
    have hn : n' = n := hname
    have has : as' = as := by simpa [Attribute.restyle, QName.restyle] using hattributes
    subst hn has
    exact .intro n'.sameExpanded_self (List.forall₂_same.2 fun a _ => a.name.sameExpanded_self)
      (sameNames_of_map cs cs' hchildren)

theorem sameNames_of_map : ∀ es es' : List Element,
    es'.map (·.restyle id) = es.map (·.asRead.restyle id) → List.Forall₂ Element.SameNames es' es
  | [], es', h => by
    obtain rfl := List.map_eq_nil_iff.1 h
    exact .nil
  | e :: r, es', h => by
    obtain ⟨e', r', rfl, he, hr⟩ := List.map_eq_cons_iff.1 h
    exact .cons (Element.sameNames_of_restyle e e' he) (sameNames_of_map r r' hr)
end

/-- A tree that can be written but for its texts is read back with its names. -/
theorem Element.Framed.readable {e : Element} (h : e.Framed .empty) : e.Readable := by
  obtain ⟨e', hread, hstyle, -⟩ := ofXml_toXml_framed h
  exact ⟨e', hread, sameNames_of_restyle e e' hstyle⟩

end Reading

end DiscoveryMetadata.Xml
