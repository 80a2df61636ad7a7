import DiscoveryMetadata.Proofs.Xml.Event
import DiscoveryMetadata.Proofs.Xml.Restyle
import DiscoveryMetadata.Proofs.Xml.Scope
import DiscoveryMetadata.Xml.Reader
import DiscoveryMetadata.Xml.Writer
/-
  Element trees that are written and read back.

  `Writable` says what a tree must be like for its text to mean what it says: names are names, a
  prefix has one meaning on each element, attributes are written with different names, no text
  begins or ends with white space, and no element without a namespace stands where there is a
  default one. `Framed` leaves texts out. A tag that is written for such an element is read as the
  element without its contents (`ofTag_written`). Wherever that holds of all tags of a tree
  (`LegibleTree`), the text of the whole is read as the tree, by induction on it
  (`recovers_of_legible`), where each text is read without the blanks at its ends
  (`Element.asRead`).

  The main statement is `Element.ofXml_toXml`: a writable tree is read back from its text, the
  declarations on it aside. Those that are read are the ones that were written, and none of them
  repeats what holds around its element (`Element.Sparing`).
-/
namespace DiscoveryMetadata.Xml

/-- A name without a colon that can stand in a tag. The word of the declarations is none. -/
structure IsName (s : String) : Prop where
  plain : Plain s.toList
  noColon : ':' ∉ s.toList
  notDeclaring : s ≠ "xmlns"

/-- The parts of the name are names, and it has no prefix without a namespace. -/
structure QName.Writable (q : QName) : Prop where
  localName : IsName q.localName
  nsPrefix : ∀ p ∈ q.nsPrefix, IsName p
  uri : q.nsPrefix.isSome → q.uri.isSome

/-- What is written of the name falls into its parts again, and is no declaration. -/
structure QName.Clear (q : QName) : Prop where
  nsPrefix : ∀ p ∈ q.nsPrefix, p ≠ "" ∧ ':' ∉ p.toList ∧ p ≠ "xmlns"
  localName : q.nsPrefix = none → ':' ∉ q.localName.toList ∧ q.localName ≠ "xmlns"
  uri : q.nsPrefix.isSome → q.uri.isSome

/-- The scope inside an element, where `outer` is in force around it. -/
def Element.inside (outer : Scope) (e : Element) : Scope := (declare outer e.needs).2

/-- The attribute as it is read before its name is. -/
def Attribute.raw (a : Attribute) : RawAttribute := ⟨a.name.written, a.value⟩

/-- The declaration as it is read before it is told from the attributes. -/
def Declaration.raw (d : Declaration) : RawAttribute :=
  ⟨match d.nsPrefix with
    | none => "xmlns"
    | some p => "xmlns:" ++ p, d.uri⟩

/-- What is written on an element besides its name. -/
def Element.raws (outer : Scope) (e : Element) : List RawAttribute :=
  (declare outer e.needs).1.map Declaration.raw ++ e.attributes.map Attribute.raw

/-- The names in the tag of an element are clear, and where `outer` is in force no prefix there is
needed for two namespaces. -/
structure Element.Clear (outer : Scope) (e : Element) : Prop where
  name : e.name.Clear
  attributes : ∀ a ∈ e.attributes, a.name.Clear ∧ (a.name.uri.isSome → a.name.nsPrefix.isSome)
  agree : ∀ d ∈ e.needs, ∀ d' ∈ e.needs, d.Agrees d'
  reserved : ∀ d ∈ e.needs, d.nsPrefix = some "xml" → d.uri = xmlNamespace
  free : e.name.uri = none → (e.inside outer).defaultUri = none

/-- The element itself, whatever it holds, can be written where `outer` is in force. -/
structure Element.Presentable (outer : Scope) (e : Element) : Prop where
  name : e.name.Writable
  attributes : ∀ a ∈ e.attributes, a.name.Writable ∧ (a.name.uri.isSome → a.name.nsPrefix.isSome)
  distinct : e.attributes.Pairwise fun a b => a.name.written ≠ b.name.written
  declared : ∀ d ∈ e.needs, ∀ p ∈ d.nsPrefix, IsName p
  agree : ∀ d ∈ e.needs, ∀ d' ∈ e.needs, d.Agrees d'
  reserved : ∀ d ∈ e.needs, d.nsPrefix = some "xml" → d.uri = xmlNamespace
  text : ∀ t ∈ e.text, t ≠ "" ∧ Text.trim t = t
  free : e.name.uri = none → (e.inside outer).defaultUri = none

/-- The element and all below it can be written where `outer` is in force. -/
inductive Element.Writable : Scope → Element → Prop where
  | intro {outer : Scope} {e : Element} (itself : e.Presentable outer)
      (children : ∀ c ∈ e.children, Element.Writable (e.inside outer) c) : Element.Writable outer e

/-- The element and all below it can be written where `outer` is in force, whatever texts they
hold. -/
inductive Element.Framed : Scope → Element → Prop where
  | intro {outer : Scope} {e : Element} (itself : Presentable outer { e with text := none })
      (children : ∀ c ∈ e.children, Element.Framed (e.inside outer) c) : Element.Framed outer e

/-- The tag of the element, written where `outer` is in force, is told from what is around it, and
what stands in it means what it does on the element. -/
structure Element.Legible (outer : Scope) (e : Element) : Prop where
  name : IsTagName e.name.written.toList
  unquoted : Unquoted e.name.written.toList
  raws : ∀ x ∈ e.raws outer, IsKey x.name.toList ∧ Unquoted x.name.toList
  distinct : (e.raws outer).Pairwise fun x y => x.name ≠ y.name
  ends : e.text.getD "" ≠ "" ∨ e.children ≠ [] → e.name.written.toList.getLast? ≠ some '/' ∧
    Event.closingName e.name.written.toList = e.name.written.toList
  plain : ∀ a ∈ e.attributes, a.raw.declares? = none
  needed : ∀ d ∈ (declare outer e.needs).1, d.holdsIn outer = false
  resolveElement : (e.inside outer).resolveElement e.name.written = .ok e.name
  resolveAttribute : ∀ a ∈ e.attributes,
    (e.inside outer).resolveAttribute a.name.written = .ok a.name

/-- All tags of the element can be told and read, where `outer` is in force. -/
inductive Element.LegibleTree : Scope → Element → Prop where
  | intro {outer : Scope} {e : Element} (itself : e.Legible outer)
      (children : ∀ c ∈ e.children, Element.LegibleTree (e.inside outer) c) :
      Element.LegibleTree outer e

/-- What is read where a text was written: the text without the blanks at its ends, or nothing if
it is white space all through. -/
def textRead? (t : String) : Option String :=
  let cs := Text.strip Text.isXmlSpace t.toList
  if cs.all Text.isSpace then none else some (String.ofList cs)

mutual
/-- The element with all texts as they are read. -/
def Element.asRead : Element → Element
  | ⟨name, attributes, text, children, declared⟩ =>
    ⟨name, attributes, textRead? (text.getD ""), asReadAll children, declared⟩

/-- The elements with all texts as they are read. -/
def asReadAll : List Element → List Element
  | [] => []
  | e :: r => e.asRead :: asReadAll r
end

mutual
/-- The element as it is read where it was written with `outer` in force: with all texts as they are
read, and with the declarations that were written. -/
def Element.reread (outer : Scope) : Element → Element
  | ⟨name, attributes, text, children, declared⟩ =>
    let (declarations, inside) :=
      declare outer (Element.needs ⟨name, attributes, text, [], declared⟩)
    ⟨name, attributes, textRead? (text.getD ""), rereadAll inside children,
      declaredScope declarations⟩

/-- The elements as they are read where they were written. -/
def rereadAll (outer : Scope) : List Element → List Element
  | [] => []
  | e :: r => e.reread outer :: rereadAll outer r
end

/-- Where `outer` is in force, the element declares only what differs from that, and so do all
elements below it where they stand. -/
inductive Element.Sparing : Scope → Element → Prop where
  | intro {outer : Scope} {e : Element} (prefixes : ∀ b ∈ e.declared.bindings,
        outer.lookup b.1 ≠ some b.2)
      (byDefault : ∀ u ∈ e.declared.defaultUri, outer.defaultUri ≠ some u)
      (children : ∀ c ∈ e.children, Element.Sparing (outer.inner e.declared) c) :
      Element.Sparing outer e

section Names

variable {s p : String} {q : QName} {scope : Scope}

theorem QName.written_plain (h : q.Writable) : Plain q.written.toList := by
  obtain ⟨uri, l, nsPrefix⟩ := q
  cases nsPrefix with
  | none => exact h.localName.plain
  | some p =>
    have hw : (QName.written ⟨uri, l, some p⟩).toList = p.toList ++ ':' :: l.toList := by
      simp [QName.written]
    rw [hw]
    exact (h.nsPrefix p rfl).plain.append h.localName.plain

theorem splitAt?_none {m : Char} {cs : List Char} (h : m ∉ cs) : splitAt? m cs = none := by
  induction cs with
  | nil => rfl
  | cons c r ih =>
    simp only [List.mem_cons, not_or] at h
    rw [splitAt?, if_neg (Ne.symm h.1), ih h.2]
    rfl

theorem QName.Writable.clear (h : q.Writable) : q.Clear where
  nsPrefix p hp :=
    have hp := h.nsPrefix p hp
    ⟨fun he => hp.plain.ne_nil (by rw [he]; rfl), hp.noColon, hp.notDeclaring⟩
  localName _ := ⟨h.localName.noColon, h.localName.notDeclaring⟩
  uri := h.uri

/-- A clear name is split into its prefix and its local part, if it has a prefix. -/
theorem QName.Clear.splitAt?_written (h : q.Clear) : splitAt? ':' q.written.toList =
    q.nsPrefix.map fun p => (p.toList, q.localName.toList) := by
  obtain ⟨uri, l, nsPrefix⟩ := q
  cases nsPrefix with
  | none => exact splitAt?_none (h.localName rfl).1
  | some p =>
    have hw : (QName.written ⟨uri, l, some p⟩).toList = p.toList ++ ':' :: l.toList := by
      simp [QName.written]
    rw [hw]
    exact RawAttribute.splitAt?_append (h.nsPrefix p rfl).2.1 l.toList

/-- A clear name is resolved to itself just where it has the namespace that its prefix stands
for. -/
theorem Scope.resolve_written {unprefixed : Option String} (h : q.Clear) :
    scope.resolve unprefixed q.written = .ok q ↔
      q.uri = q.nsPrefix.elim unprefixed scope.lookup := by
  have hsplit := h.splitAt?_written
  obtain ⟨uri, l, nsPrefix⟩ := q
  cases nsPrefix with
  | none =>
    rw [Scope.resolve, hsplit]
    simp [QName.written, eq_comm]
  | some p =>
    obtain ⟨u, rfl⟩ := Option.isSome_iff_exists.1 (h.uri rfl)
    have hne : p.isEmpty = false := by simpa using (h.nsPrefix p rfl).1
    simp only [Scope.resolve, hsplit, Option.map_some, String.ofList_toList, Option.elim_some]
    cases scope.lookup p <;> simp [QName.prefixed, hne, eq_comm]

end Names

section Raw

variable {a : Attribute} {d d' : Declaration} {outer scope : Scope} {e : Element}

theorem Attribute.written_eq (a : Attribute) : a.written = a.raw.written := by
  simp [Attribute.written, RawAttribute.written, raw]

theorem Declaration.written_eq (d : Declaration) : d.written = d.raw.written := by
  obtain ⟨p, u⟩ := d
  cases p <;> simp [Declaration.written, RawAttribute.written, raw]

theorem Declaration.raw_plain (h : ∀ p ∈ d.nsPrefix, IsName p) : Plain d.raw.name.toList := by
  obtain ⟨p, u⟩ := d
  have hx : Plain "xmlns".toList := ⟨by decide, List.all_eq_true.1 (by decide)⟩
  cases p with
  | none => exact hx
  | some p =>
    have hw : (Declaration.raw ⟨some p, u⟩).name.toList = "xmlns".toList ++ ':' :: p.toList := by
      simp [raw]
    rw [hw]
    exact hx.append (h p rfl).plain

theorem Declaration.declares?_raw (d : Declaration) : d.raw.declares? = some d.nsPrefix := by
  obtain ⟨p, u⟩ := d
  cases p with
  | none => rfl
  | some p =>
    have hne : "xmlns:" ++ p ≠ "xmlns" := by
      intro h
      have h := congrArg (List.length ∘ String.toList) h
      simp at h
    have hp : "xmlns:".toList.isPrefixOf ("xmlns:" ++ p).toList = true := by simp
    simp only [raw, RawAttribute.declares?, if_neg hne, hp, if_true]
    simp

theorem Declaration.declareIn_raw (d : Declaration) :
    RawAttribute.declareIn scope d.raw = d.extend scope := by
  rw [RawAttribute.declareIn, declares?_raw]
  obtain ⟨p, u⟩ := d
  cases p <;> rfl

/-- An attribute with a clear name is no declaration. -/
theorem Attribute.declares?_raw (h : a.name.Clear) : a.raw.declares? = none := by
  have hsplits := h.splitAt?_written
  obtain ⟨⟨uri, l, nsPrefix⟩, value⟩ := a
  have hx : ':' ∉ "xmlns".toList := by decide
  -- A name that begins with the word of the declarations and a colon has that word as its prefix.
  have hprefix : "xmlns:".toList.isPrefixOf (QName.written ⟨uri, l, nsPrefix⟩).toList = false := by
    rw [← Bool.not_eq_true, List.isPrefixOf_iff_prefix]
    rintro ⟨t, ht⟩
    have hsplit : splitAt? ':' (QName.written ⟨uri, l, nsPrefix⟩).toList =
        some ("xmlns".toList, t) := by
      rw [← ht]
      exact RawAttribute.splitAt?_append hx t
    obtain ⟨p, rfl, hp⟩ := Option.map_eq_some_iff.1 (hsplits.symm.trans hsplit)
    exact (h.nsPrefix p rfl).2.2 (String.toList_inj.1 (Prod.mk.inj hp).1)
  have hne : QName.written ⟨uri, l, nsPrefix⟩ ≠ "xmlns" := by
    cases nsPrefix with
    | none => exact (h.localName rfl).2
    | some p =>
      intro hw
      refine hx ?_
      rw [← hw]
      simp [QName.written]
  simp only [RawAttribute.declares?, raw, if_neg hne, hprefix, Bool.false_eq_true, if_false]

theorem Declaration.name_raw_ne (h : d.nsPrefix ≠ d'.nsPrefix) : d.raw.name ≠ d'.raw.name := by
  intro hn
  have hd : d.raw.declares? = d'.raw.declares? := by
    simp only [RawAttribute.declares?, hn]
  rw [declares?_raw, declares?_raw] at hd
  exact h (Option.some.inj hd)

theorem Declaration.name_raw_ne_attribute (h : a.raw.declares? = none) :
    d.raw.name ≠ a.raw.name := by
  intro hn
  have hd : d.raw.declares? = a.raw.declares? := by
    simp only [RawAttribute.declares?, hn]
  rw [declares?_raw, h] at hd
  cases hd

namespace Element.Clear

variable (h : e.Clear outer)
include h

/-- Inside the element a prefix that it needs stands for its namespace. -/
theorem lookup_inside {p u : String} (hd : ⟨some p, u⟩ ∈ e.needs) :
    (e.inside outer).lookup p = some u := by
  have hh := declare_holds (s := outer) h.agree _ hd
  by_cases hp : p = "xml"
  · have hu : u = xmlNamespace := h.reserved _ hd (by rw [hp])
    rw [Scope.lookup, if_pos hp, hu]
  · simpa [Declaration.holdsIn, hp, inside] using hh

theorem resolveElement : (e.inside outer).resolveElement e.name.written = .ok e.name := by
  refine (Scope.resolve_written h.name).2 ?_
  cases hp : e.name.nsPrefix with
  | none =>
    cases hu : e.name.uri with
    | none => exact (h.free hu).symm
    | some u =>
      have hd : (⟨none, u⟩ : Declaration) ∈ e.needs := by simp [needs, hu, hp]
      have hholds := declare_holds (s := outer) h.agree _ hd
      have hdefault : (e.inside outer).defaultUri = some u := by
        simpa [Declaration.holdsIn, inside] using hholds
      exact hdefault.symm
  | some p =>
    obtain ⟨u, hu⟩ := Option.isSome_iff_exists.1 (h.name.uri (Option.isSome_of_mem hp))
    rw [hu]
    exact (h.lookup_inside (by simp [needs, hu, hp])).symm

theorem resolveAttribute (ha : a ∈ e.attributes) :
    (e.inside outer).resolveAttribute a.name.written = .ok a.name := by
  obtain ⟨hname, hprefix⟩ := h.attributes a ha
  refine (Scope.resolve_written hname).2 ?_
  cases hp : a.name.nsPrefix with
  | none =>
    cases hu : a.name.uri with
    | none => rfl
    | some u => simp [hu, hp] at hprefix
  | some p =>
    obtain ⟨u, hu⟩ := Option.isSome_iff_exists.1 (hname.uri (Option.isSome_of_mem hp))
    rw [hu]
    refine (h.lookup_inside (List.mem_append_right _ (List.mem_filterMap.2 ⟨a, ha, ?_⟩))).symm
    rw [hp, hu]

/-- The declarations that are written on the element lead to the scope inside it. -/
theorem inner_written :
    outer.inner (declaredScope (declare outer e.needs).1) = e.inside outer := by
  rw [inner_declared (declare_distinct h.agree), inside, declare_scope]

end Element.Clear

namespace Element.Presentable

variable (h : e.Presentable outer)
include h

theorem clear : e.Clear outer where
  name := h.name.clear
  attributes a ha := ⟨(h.attributes a ha).1.clear, (h.attributes a ha).2⟩
  agree := h.agree
  reserved := h.reserved
  free := h.free

theorem raws_plain : ∀ x ∈ e.raws outer, Plain x.name.toList := by
  intro x hx
  rcases List.mem_append.1 hx with hx | hx
  · obtain ⟨d, hd, rfl⟩ := List.mem_map.1 hx
    exact Declaration.raw_plain (h.declared d (declare_subset outer e.needs hd))
  · obtain ⟨a, ha, rfl⟩ := List.mem_map.1 hx
    exact QName.written_plain (h.attributes a ha).1

theorem raws_distinct : (e.raws outer).Pairwise fun x y => x.name ≠ y.name := by
  refine List.pairwise_append.2 ⟨?_, ?_, ?_⟩
  · exact List.pairwise_map.2 ((declare_distinct h.agree).imp Declaration.name_raw_ne)
  · exact List.pairwise_map.2 h.distinct
  · intro x hx y hy
    obtain ⟨d, -, rfl⟩ := List.mem_map.1 hx
    obtain ⟨a, ha, rfl⟩ := List.mem_map.1 hy
    exact Declaration.name_raw_ne_attribute (Attribute.declares?_raw (h.clear.attributes a ha).1)

end Element.Presentable

/-- A tag that can be written can be told, whatever text its element holds. -/
theorem Element.Presentable.legible (h : Presentable outer { e with text := none }) :
    e.Legible outer where
  name := (QName.written_plain h.name).isTagName
  unquoted := (QName.written_plain h.name).unquoted
  raws x hx := ⟨(h.raws_plain x hx).isKey, (h.raws_plain x hx).unquoted⟩
  distinct := h.raws_distinct
  ends _ := ⟨(QName.written_plain h.name).getLast?_ne,
    Event.closingName_plain (QName.written_plain h.name)⟩
  plain a ha := Attribute.declares?_raw (h.clear.attributes a ha).1
  needed := declare_needed h.agree
  resolveElement := h.clear.resolveElement
  resolveAttribute _ ha := h.clear.resolveAttribute ha

namespace Element.Legible

variable (h : e.Legible outer)
include h

theorem declared_distinct :
    (declare outer e.needs).1.Pairwise fun d d' => d.nsPrefix ≠ d'.nsPrefix := by
  have hraws := List.pairwise_map.1 (List.pairwise_append.1 h.distinct).1
  refine hraws.imp ?_
  rintro d d' hne heq
  refine hne ?_
  simp only [Declaration.raw, heq]

/-- The declarations that are written on the element lead to the scope inside it. -/
theorem inner_written :
    outer.inner (declaredScope (declare outer e.needs).1) = e.inside outer := by
  rw [inner_declared h.declared_distinct, inside, declare_scope]

/-- The declarations that are read are those that were written. -/
theorem declared_raws : (e.raws outer).foldl RawAttribute.declareIn .empty =
    declaredScope (declare outer e.needs).1 := by
  have hd : ∀ (ds : List Declaration) (s : Scope),
      (ds.map Declaration.raw).foldl RawAttribute.declareIn s =
        ds.foldl (fun s d => d.extend s) s := by
    intro ds
    induction ds with
    | nil => exact fun _ => rfl
    | cons d r ih =>
      intro s
      rw [List.map_cons, List.foldl_cons, List.foldl_cons, ih, Declaration.declareIn_raw]
  have ha : ∀ (as : List Attribute) (s : Scope), (∀ a ∈ as, a.raw.declares? = none) →
      (as.map Attribute.raw).foldl RawAttribute.declareIn s = s := by
    intro as s has
    induction as with
    | nil => rfl
    | cons a r ih =>
      obtain ⟨ha, hr⟩ := List.forall_mem_cons.1 has
      have hs : RawAttribute.declareIn s a.raw = s := by
        rw [RawAttribute.declareIn, ha]
      rw [List.map_cons, List.foldl_cons, hs, ih hr]
  rw [Element.raws, List.foldl_append, hd, ha _ _ h.plain]
  rfl

/-- What is read and declares nothing are the attributes. -/
theorem filter_raws :
    (e.raws outer).filter (·.declares?.isNone) = e.attributes.map Attribute.raw := by
  rw [Element.raws, List.filter_append, List.filter_eq_nil_iff.2, List.nil_append,
    List.filter_eq_self.2]
  · intro x hx
    obtain ⟨a, ha, rfl⟩ := List.mem_map.1 hx
    rw [h.plain a ha]
    rfl
  · intro x hx
    obtain ⟨d, -, rfl⟩ := List.mem_map.1 hx
    rw [Declaration.declares?_raw]
    simp

/-- A tag that is written for an element is read as the element without what it holds. -/
theorem ofTag_written {blank : List Char} (hb : blank.dropWhile Text.isXmlSpace = []) :
    Element.ofTag outer e.name.written.toList
        ((e.raws outer).flatMap RawAttribute.written ++ blank) =
      .ok (⟨e.name, e.attributes, none, [], declaredScope (declare outer e.needs).1⟩,
        e.inside outer) := by
  have hread := RawAttribute.read_written (fun x hx => (h.raws x hx).1) h.distinct hb
  have hattributes : (e.attributes.map Attribute.raw).mapM (fun a => do
      let n ← (e.inside outer).resolveAttribute a.name
      return (⟨n, a.value⟩ : Attribute)) = .ok e.attributes := by
    rw [mapM_ok, List.forall₂_map_left_iff]
    refine List.forall₂_same.2 fun a ha => ?_
    have hr := h.resolveAttribute a ha
    change (do
      let n ← (e.inside outer).resolveAttribute a.name.written
      return (⟨n, a.value⟩ : Attribute)) = .ok a
    rw [hr]
    rfl
  simp only [Element.ofTag, bind_ok, pure_ok]
  refine ⟨_, hread, ?_⟩
  simp only [h.declared_raws, h.inner_written, h.filter_raws, String.ofList_toList]
  exact ⟨_, h.resolveElement, _, hattributes, rfl⟩

end Element.Legible

theorem Element.Framed.legible (h : e.Framed outer) : e.LegibleTree outer := by
  induction h with
  | intro itself children ih => exact .intro itself.legible ih

end Raw

section Reading

variable {outer : Scope} {e : Element} {stack : List OpenElement} {o : OpenElement}
  {os : List OpenElement} {root : Option Element} {name : List Char} {events : List Event}

/-- The scope around what is read next. -/
def Reader.scopeOf : List OpenElement → Scope
  | o :: _ => o.scope
  | [] => .empty

theorem asReadAll_eq (es : List Element) : asReadAll es = es.map (·.asRead) := by
  induction es with
  | nil => rfl
  | cons e r ih => rw [asReadAll, ih, List.map_cons]

theorem Element.restyle_asRead (p : Option String → Option String) (e : Element) :
    e.asRead.restyle p = ⟨e.name.restyle p, e.attributes.map (·.restyle p),
      textRead? (e.text.getD ""), e.children.map (·.asRead.restyle p), {}⟩ := by
  obtain ⟨name, attributes, text, children, declared⟩ := e
  rw [asRead, restyle_eq, asReadAll_eq, List.map_map]
  rfl

theorem rereadAll_eq (es : List Element) : rereadAll outer es = es.map (·.reread outer) := by
  induction es with
  | nil => rfl
  | cons e r ih => rw [rereadAll, ih, List.map_cons]

theorem Element.reread_eq (e : Element) : e.reread outer =
    ⟨e.name, e.attributes, textRead? (e.text.getD ""),
      e.children.map (·.reread (e.inside outer)), declaredScope (declare outer e.needs).1⟩ := by
  obtain ⟨name, attributes, text, children, declared⟩ := e
  rw [reread]
  simp only [rereadAll_eq]
  rfl

mutual
/-- What is read again has the names, the attributes and the texts that it should have. -/
theorem Element.restyle_reread (p : Option String → Option String) (outer : Scope) :
    (e : Element) → (e.reread outer).restyle p = e.asRead.restyle p
  | ⟨name, attributes, text, children, declared⟩ => by
    simp only [Element.reread, Element.asRead, Element.restyle, Element.mk.injEq, true_and,
      and_true]
    exact restyleAll_reread p _ children

theorem restyleAll_reread (p : Option String → Option String) (outer : Scope) :
    (es : List Element) → restyleAll p (rereadAll outer es) = restyleAll p (asReadAll es)
  | [] => rfl
  | e :: r => by
    rw [rereadAll, asReadAll, restyleAll, restyleAll, e.restyle_reread p outer,
      restyleAll_reread p outer r]
end

/-- The declarations that are written on an element do not hold around it. -/
theorem Element.LegibleTree.sparing (h : e.LegibleTree outer) :
    (e.reread outer).Sparing outer := by
  induction h with
  | @intro outer e itself children ih =>
    rw [reread_eq]
    refine .intro ?prefixes ?byDefault ?children
    case prefixes =>
      intro b hb
      rw [bindings_declaredScope itself.declared_distinct] at hb
      obtain ⟨d, hd, hb⟩ := List.mem_filterMap.1 hb
      obtain ⟨p, hp, rfl⟩ := Option.map_eq_some_iff.1 hb
      have hneeded := itself.needed d hd
      simp only [Declaration.holdsIn, hp, Bool.or_eq_false_iff, beq_eq_false_iff_ne] at hneeded
      exact hneeded.2
    case byDefault =>
      intro u hu
      have hneeded := itself.needed _ (mem_of_defaultUri hu)
      simpa [Declaration.holdsIn] using hneeded
    case children =>
      intro c hc
      obtain ⟨f, hf, rfl⟩ := List.mem_map.1 hc
      rw [itself.inner_written]
      exact ih f hf

/-- The text of an element that is written as one empty tag. -/
theorem Element.write_empty (ht : e.text.getD "" = "") (hc : e.children = []) :
    e.write outer = '<' :: (e.name.written.toList ++
      (e.raws outer).flatMap RawAttribute.written ++ [' ', '/', '>']) := by
  obtain ⟨name, attributes, text, children, declared⟩ := e
  obtain rfl : children = [] := hc
  have ht : text.getD "" = "" := ht
  have hd : Declaration.written = fun d => d.raw.written := funext Declaration.written_eq
  have ha : Attribute.written = fun a => a.raw.written := funext Attribute.written_eq
  simp [write, raws, needs, ht, hd, ha, List.flatMap_append, List.flatMap_map]

/-- The text of an element that is written as an opening and a closing tag. -/
theorem Element.write_filled (h : e.text.getD "" ≠ "" ∨ e.children ≠ []) :
    e.write outer = '<' :: (e.name.written.toList ++
      (e.raws outer).flatMap RawAttribute.written ++ '>' ::
        ((Text.escapeContent (e.text.getD "")).toList ++ (writeAll (e.inside outer) e.children ++
          '<' :: '/' :: (e.name.written.toList ++ ['>'])))) := by
  obtain ⟨name, attributes, text, children, declared⟩ := e
  have hne : (text.getD "").isEmpty = true → children.isEmpty = true → False := by
    intro ht hc
    rcases h with h | h
    · exact h (by simpa using ht)
    · exact h (List.isEmpty_iff.1 hc)
  have hd : Declaration.written = fun d => d.raw.written := funext Declaration.written_eq
  have ha : Attribute.written = fun a => a.raw.written := funext Attribute.written_eq
  have hi : (declare outer (needs ⟨name, attributes, text, [], declared⟩)).2 =
      inside outer ⟨name, attributes, text, children, declared⟩ := rfl
  have hr : (declare outer (needs ⟨name, attributes, text, [], declared⟩)).1.flatMap
        Declaration.written ++ attributes.flatMap Attribute.written =
      (raws outer ⟨name, attributes, text, children, declared⟩).flatMap RawAttribute.written := by
    rw [raws, List.flatMap_append, List.flatMap_map, List.flatMap_map, hd, ha]
    rfl
  have hb : ((text.getD "").isEmpty && children.isEmpty) = false := by
    rw [← Bool.not_eq_true, Bool.and_eq_true]
    exact fun hb => hne hb.1 hb.2
  simp only [write, hb, hi, Bool.false_eq_true, if_false]
  simp [← hr]

theorem Element.add_nil (e : Element) : e.add [] = e := by
  cases e
  simp [add]

theorem Element.head?_write : (e.write outer).head? = some '<' := by
  by_cases h : e.text.getD "" ≠ "" ∨ e.children ≠ []
  · rw [write_filled h]
    rfl
  · obtain ⟨name, attributes, text, children, declared⟩ := e
    simp only [not_or, not_not] at h
    obtain ⟨ht, rfl⟩ := h
    simp [write, show text.getD "" = "" from ht]

theorem head?_writeAll (cs : List Element) (rest : List Char) :
    ∀ c ∈ (writeAll outer cs ++ '<' :: rest).head?, c = '<' := by
  intro c hc
  cases cs with
  | nil => exact (Option.some.inj hc).symm
  | cons e r =>
    rw [writeAll, List.append_assoc, List.head?_append, Element.head?_write] at hc
    exact (Option.some.inj hc).symm

namespace Reader

theorem run_open {attributes : List Char} {scope : Scope}
    (h : Element.ofTag (scopeOf stack) name attributes = .ok (e, scope)) :
    run stack root (.opening name attributes false :: events) =
      run (⟨e, name, scope⟩ :: stack) root events := by
  cases stack <;> simp only [scopeOf] at h <;> simp only [run, h] <;> rfl

theorem run_closed {attributes : List Char} {scope : Scope}
    (h : Element.ofTag (scopeOf stack) name attributes = .ok (e, scope)) :
    run stack root (.opening name attributes true :: events) =
      run (place e root stack).1 (place e root stack).2 events := by
  cases stack <;> simp only [scopeOf] at h <;> simp only [run, h] <;> rfl

theorem run_closing : run (o :: os) root (.closing o.written :: events) =
    run (place o.element root os).1 (place o.element root os).2 events := by
  rw [run, if_pos rfl]

theorem run_text {raw cs : List Char} (h : Text.unescape raw = some cs) :
    run (o :: os) root (.text raw :: events) =
      run ({ o with element := appendText cs o.element } :: os) root events := by
  rw [run, h]

/-- An element that is written where `outer` is in force is read again wherever it stands, and
reading goes on behind it. -/
def Recovers (outer : Scope) (e : Element) : Prop :=
  ∀ stack root rest, scopeOf stack = outer →
    run stack root (Event.ofChars (e.write outer ++ rest)) =
      run (place (e.reread outer) root stack).1 (place (e.reread outer) root stack).2
        (Event.ofChars rest)

/-- Elements inside an open one are read again one after the other. -/
theorem run_writeAll {cs : List Element} (h : ∀ c ∈ cs, Recovers o.scope c) (rest : List Char) :
    run (o :: os) root (Event.ofChars (writeAll o.scope cs ++ rest)) =
      run ({ o with element := o.element.add (cs.map (·.reread o.scope)) } :: os) root
        (Event.ofChars rest) := by
  induction cs generalizing o with
  | nil =>
    rw [List.map_nil, Element.add_nil]
    rfl
  | cons c r ih =>
    obtain ⟨hc, hr⟩ := List.forall_mem_cons.1 h
    rw [writeAll, List.append_assoc, hc (o :: os) root _ rfl]
    refine (ih (o := { o with element := o.element.add [c.reread o.scope] }) hr).trans ?_
    simp [Element.add]

/-- The text of an element is read where it is written, without the blanks at its ends. -/
theorem run_escapeContent (t : String) {rest : List Char} (ho : o.element.text = none)
    (hrest : ∀ c ∈ rest.head?, c = '<') :
    run (o :: os) root (Event.ofChars ((Text.escapeContent t).toList ++ rest)) =
      run ({ o with element := { o.element with text := textRead? t } } :: os) root
        (Event.ofChars rest) := by
  obtain ⟨⟨name, attributes, text, children, declared⟩, written, scope⟩ := o
  obtain rfl : text = none := ho
  obtain ⟨a, b, hsplit, ha, hb⟩ := Text.strip_between Text.isXmlSpace t.toList
  -- the blanks at the ends are written as they are, and passed over
  rw [Text.escapeContent, String.toList_ofList, hsplit, Text.escapeWhere_append,
    Text.escapeWhere_append, Text.escapeWhere_blank ha, Text.escapeWhere_blank hb,
    List.append_assoc, List.append_assoc, Event.ofChars_blanks ha]
  have hhead : ∀ c ∈ (Text.strip Text.isXmlSpace t.toList).head?, Text.isXmlSpace c = false :=
    Text.head?_strip
  have hlast : ∀ c ∈ (Text.strip Text.isXmlSpace t.toList).getLast?, Text.isXmlSpace c = false :=
    Text.getLast?_strip
  simp only [textRead?]
  generalize Text.strip Text.isXmlSpace t.toList = cs at hhead hlast
  cases cs with
  | nil =>
    rw [show Text.escapeWhere _ [] = [] from rfl, List.nil_append, Event.ofChars_blanks hb]
    rfl
  | cons c r =>
    rw [Event.ofChars_text ?_ (Text.not_mem_escapeWhere rfl rfl (by decide))
        (Text.head?_escapeWhere hhead) (Text.getLast?_escapeWhere hlast) hb hrest,
      run_text (Text.unescape_escapeWhere rfl), appendText]
    · split
      · rfl
      · simp
    · rw [← List.singleton_append, Text.escapeWhere_append]
      exact List.append_ne_nil_of_left_ne_nil Text.escapeWhere_singleton_ne_nil _

/-- An element whose tags can be told is read again, by induction on the tree. -/
theorem recovers_of_legible (h : e.LegibleTree outer) : Recovers outer e := by
  induction h with
  | @intro outer e itself children ih =>
    rintro stack root rest rfl
    rw [Element.reread_eq]
    by_cases hfull : e.text.getD "" ≠ "" ∨ e.children ≠ []
    · -- The tag opens the element, which takes up its text and its children and is closed then.
      obtain ⟨hslash, hend⟩ := itself.ends hfull
      have hopen := itself.ofTag_written (show [].dropWhile Text.isXmlSpace = [] from rfl)
      rw [List.append_nil] at hopen
      have hassoc : e.write (scopeOf stack) ++ rest = '<' :: (e.name.written.toList ++
          (e.raws (scopeOf stack)).flatMap RawAttribute.written ++ '>' ::
            ((Text.escapeContent (e.text.getD "")).toList ++
              (writeAll (e.inside (scopeOf stack)) e.children ++
                '<' :: '/' :: (e.name.written.toList ++ '>' :: rest)))) := by
        simp [Element.write_filled hfull]
      have hchildren := @run_writeAll
        ⟨⟨e.name, e.attributes, textRead? (e.text.getD ""), [],
          declaredScope (declare (scopeOf stack) e.needs).1⟩,
          e.name.written.toList, e.inside (scopeOf stack)⟩ stack root e.children ih
        ('<' :: '/' :: (e.name.written.toList ++ '>' :: rest))
      rw [hassoc, Event.ofChars_open itself.name itself.unquoted hslash
          fun x hx => (itself.raws x hx).2, run_open hopen,
        run_escapeContent _ rfl (head?_writeAll _ _), hchildren,
        Event.ofChars_closing itself.unquoted hend, run_closing]
      rfl
    · -- The element holds nothing, so that its tag is all of it.
      simp only [not_or, not_not] at hfull
      have hassoc : e.write (scopeOf stack) ++ rest = '<' :: (e.name.written.toList ++
          (e.raws (scopeOf stack)).flatMap RawAttribute.written ++ ' ' :: '/' :: '>' :: rest) := by
        simp [Element.write_empty hfull.1 hfull.2]
      rw [hassoc, Event.ofChars_closed itself.name itself.unquoted fun x hx => (itself.raws x hx).2,
        run_closed (itself.ofTag_written (show [' '].dropWhile Text.isXmlSpace = [] from rfl)),
        hfull.1, hfull.2]
      rfl

end Reader

/-- A tree whose tags can be told is read again from its text. -/
theorem Element.ofXml_toXml_legible (h : e.LegibleTree .empty) :
    Element.ofXml e.toXml = .ok (e.reread .empty) := by
  have hrun := Reader.recovers_of_legible h [] none [] rfl
  have hdocument : Event.ofDocument e.toXml = Event.ofChars (e.write .empty) := by
    have hhead : (e.write .empty).head? = some '<' := Element.head?_write
    obtain ⟨r, hr⟩ := List.head?_eq_some_iff.1 hhead
    rw [Event.ofDocument, Element.toXml, String.toList_ofList, hr]
    split
    · rename_i heq
      cases heq
    · rfl
  rw [List.append_nil, Event.ofChars_nil] at hrun
  simp only [Element.ofXml, readDocument, bind_ok]
  refine ⟨some (e.reread .empty), ?_, rfl⟩
  rw [hdocument, hrun]
  rfl

/-- A tree that can be written but for its texts is read back with these as they are read, the
declarations on it aside, and no declaration is written that is not needed where it stands. -/
theorem Element.ofXml_toXml_framed (h : e.Framed .empty) :
    ∃ e' : Element, Element.ofXml e.toXml = .ok e' ∧ e'.restyle id = e.asRead.restyle id ∧
      e'.Sparing .empty :=
  ⟨_, ofXml_toXml_legible h.legible, e.restyle_reread id .empty, h.legible.sparing⟩

/-- A text that begins and ends with no white space, and is not empty, is read as it is. -/
theorem textRead?_of_trim {t : String} (hne : t ≠ "") (h : Text.trim t = t) :
    textRead? t = some t := by
  have hxml : ∀ c, Text.isSpace c = false → Text.isXmlSpace c = false := by
    intro c hc
    rw [← Bool.not_eq_true] at hc ⊢
    exact mt Text.isSpace_of_isXmlSpace hc
  have hstrip : Text.strip Text.isXmlSpace t.toList = t.toList :=
    Text.strip_of_ends (fun c hc => hxml c (Text.head?_of_trim h c hc))
      fun c hc => hxml c (Text.getLast?_of_trim h c hc)
  obtain ⟨c, r, hcr⟩ := List.exists_cons_of_ne_nil (show t.toList ≠ [] by simpa using hne)
  have hblank : t.toList.all Text.isSpace = false := by
    rw [hcr, List.all_cons, Text.head?_of_trim h c (by rw [hcr]; rfl), Bool.false_and]
  simp [textRead?, hstrip, hblank]

/-- A writable element is framed, and its texts are read as they are. -/
theorem Element.Writable.framed (h : e.Writable outer) : e.Framed outer ∧ e.asRead = e := by
  induction h with
  | @intro outer e itself children ih =>
    obtain ⟨name, attributes, text, cs, declared⟩ := e
    constructor
    · exact .intro ⟨itself.name, itself.attributes, itself.distinct, itself.declared, itself.agree,
        itself.reserved, by simp, itself.free⟩ fun c hc => (ih c hc).1
    · have htext : textRead? (text.getD "") = text := by
        cases text with
        | none => rfl
        | some t => exact textRead?_of_trim (itself.text t rfl).1 (itself.text t rfl).2
      have hchildren : cs.map (·.asRead) = cs := by
        conv_rhs => rw [← List.map_id cs]
        exact List.map_congr_left fun c hc => (ih c hc).2
      rw [asRead, htext, asReadAll_eq, hchildren]

/-- A writable tree is read back from its text, the declarations on it aside, and no declaration is
written that is not needed where it stands. -/
theorem Element.ofXml_toXml_sparing (h : e.Writable .empty) :
    ∃ e' : Element, Element.ofXml e.toXml = .ok e' ∧ e'.restyle id = e.restyle id ∧
      e'.Sparing .empty := by
  obtain ⟨hframed, hread⟩ := h.framed
  rw [← congrArg (Element.restyle id) hread]
  exact ofXml_toXml_framed hframed

/-- A writable tree is read back from its text, the declarations on it aside. -/
theorem Element.ofXml_toXml (h : e.Writable .empty) :
    ∃ e' : Element, Element.ofXml e.toXml = .ok e' ∧ e'.restyle id = e.restyle id := by
  obtain ⟨e', hread, he', -⟩ := ofXml_toXml_sparing h
  exact ⟨e', hread, he'⟩

end Reading

end DiscoveryMetadata.Xml
