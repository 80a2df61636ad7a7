import DiscoveryMetadata.Proofs.Xml.Root
/-
  Trees that were read, written and read again.

  An element was read from a tag whose names meant what they do on the element where its own
  declarations are in force (`Element.TagRead`). For the root of a document this holds all the way
  down (`Element.ReadIn`), since each event keeps it for the open elements and the root
  (`step_read`, `run_read`). The writer leaves out declarations that hold already, and yet each
  prefix stands inside the element for what it stood for (`TagRead.inside_same`). So the tags that
  are written can be told and read (`ReadIn.legible`), unless a name in them holds a character that
  ends it where it is written, which reading lets through (`Element.Orderly`).

  The main statement is `reread_but_for_blanks`. Texts lose the blanks at their ends, which were
  read there from a section or from a reference, and nothing else changes. After that nothing
  changes at all.
-/
namespace DiscoveryMetadata.Xml

open Text (isXmlSpace)

namespace Event

/-- The name in a tag is one that stays what it is where it is written. -/
def Named : Event → Prop
  | .opening name _ _ => IsTagName name
  | .closing name => closingName name = name
  | _ => True

/-- The data that the event adds to the element around it. -/
def data? : Event → Option (List Char)
  | .text raw => Text.unescape raw
  | .verbatim cs => some cs
  | _ => none

/-- A text with the property still has it when the data of the event is added, unless this is white
space all through and passed over. -/
def Keeps (P : String → Prop) (x : Event) : Prop :=
  ∀ cs ∈ x.data?, cs.all Text.isSpace = false →
    ∀ t : String, t = "" ∨ P t → P (t ++ String.ofList cs)

variable {cs rest : List Char} {e : Event}

theorem closingName_closingName (cs : List Char) :
    closingName (closingName cs) = closingName cs := by
  cases h : cs.reverse.dropWhile fun c => isXmlSpace c || c == '\x0c' with
  | nil =>
    have hself : closingName cs = cs := by simp only [closingName, h]
    rw [hself, hself]
  | cons c r =>
    have hkept := List.head?_dropWhile_not (fun c => isXmlSpace c || c == '\x0c') cs.reverse
    rw [h] at hkept
    have hname : closingName cs = (c :: r).reverse := by simp only [closingName, h]
    rw [hname, closingName, List.reverse_reverse, List.dropWhile_cons_of_neg (by simpa using hkept)]

theorem isTagName_of_prefix {name inside : List Char} (h : name <+: inside)
    (hspace : ∀ c ∈ name, isXmlSpace c = false)
    (hinside : ∀ c ∈ inside.head?, c ≠ '!' ∧ c ≠ '/' ∧ c ≠ '?') : IsTagName name := by
  refine ⟨hspace, ?_⟩
  obtain ⟨rest, rfl⟩ := h
  cases name with
  | nil => simp
  | cons c r => exact hinside

theorem named_ofTag {inside : List Char}
    (hinside : ∀ c ∈ inside.head?, c ≠ '!' ∧ c ≠ '/' ∧ c ≠ '?') : (ofTag inside).Named := by
  have hspace : ∀ c ∈ inside.takeWhile (!isXmlSpace ·), isXmlSpace c = false :=
    fun c hc => by simpa using List.mem_takeWhile_imp hc
  have hprefix : inside.takeWhile (!isXmlSpace ·) <+: inside := List.takeWhile_prefix _
  have hname := isTagName_of_prefix hprefix hspace hinside
  unfold ofTag
  simp only
  split
  case isTrue =>
    split
    case isTrue =>
      have hinit : (inside.takeWhile (!isXmlSpace ·)).dropLast <+:
          inside.takeWhile (!isXmlSpace ·) := List.dropLast_prefix _
      exact isTagName_of_prefix (hinit.trans hprefix)
        (fun c hc => hspace c (hinit.sublist.subset hc)) hinside
    case isFalse => exact hname
  case isFalse => exact hname

theorem named_of_markup? (h : markup? cs = some (some e, rest)) : e.Named := by
  unfold markup? at h
  split at h
  case h_1 =>
    unfold comment? at h
    split at h
    · split at h <;> cases h
    · cases h
  case h_2 =>
    unfold section? at h
    split at h
    · simp only at h
      split at h
      · cases h
        trivial
      · cases h
    · cases h
  case h_3 =>
    split at h
    · unfold doctype? at h
      split at h
      · simp only at h
        split at h <;> cases h
      · cases h
    · cases h
  case h_4 => cases h
  case h_5 t =>
    obtain rfl : closing (closingName (toAngle t).1) = e :=
      Option.some.inj (Prod.mk.inj (Option.some.inj h)).1
    exact closingName_closingName _
  case h_6 =>
    simp only at h
    split at h <;> cases h
  case h_7 h3 h4 h5 h6 =>
    obtain ⟨⟨inside, r⟩, htag, heq⟩ := Option.map_eq_some_iff.1 h
    obtain rfl : ofTag inside = e := Option.some.inj (Prod.mk.inj heq).1
    obtain ⟨rfl, -⟩ := tagEnd?_some htag
    refine named_ofTag fun c hc => ?_
    exact head?_of_default h3 h4 h5 h6 c (List.mem_head?_append_of_mem_head? hc)

theorem named_of_ofChars (cs : List Char) : ∀ e ∈ ofChars cs, e.Named := by
  fun_induction ofChars cs with
  | case1 | case2 => simp
  | case3 _ _ _ _ e rest hmarkup ih => exact List.forall_mem_cons.2 ⟨named_of_markup? hmarkup, ih⟩
  | case4 _ _ _ _ _ _ ih => exact ih
  | case5 => simp [Named]
  | case6 _ _ _ _ _ _ _ ih => exact List.forall_mem_cons.2 ⟨trivial, ih⟩

theorem named_of_ofDocument (xml : String) : ∀ e ∈ ofDocument xml, e.Named := by
  rw [ofDocument]
  split <;> exact named_of_ofChars _

end Event

section Read

variable {P : String → Prop} {outer scope : Scope} {written attributes : List Char} {e : Element}

/-- Where `outer` is in force, a tag with this name was read as the element without its contents. -/
structure Element.TagRead (outer : Scope) (written : List Char) (e : Element) : Prop where
  name : IsTagName written
  raws : ∃ as : List RawAttribute, as.Pairwise (fun a b => a.name ≠ b.name) ∧
    (∀ a ∈ as, IsKey a.name.toList) ∧ e.declared = as.foldl RawAttribute.declareIn .empty ∧
      (as.filter (·.declares?.isNone)).mapM (fun a => do
        let n ← (outer.inner e.declared).resolveAttribute a.name
        return (⟨n, a.value⟩ : Attribute)) = .ok e.attributes
  resolved : (outer.inner e.declared).resolveElement (String.ofList written) = .ok e.name

/-- The element and all below it were read where `outer` is in force, with texts that have the
property. -/
inductive Element.ReadIn (P : String → Prop) : Scope → Element → Prop where
  | intro {outer : Scope} {e : Element} {written : List Char} (tag : e.TagRead outer written)
      (text : ∀ t ∈ e.text, P t)
      (ends : e.text.isSome ∨ e.children ≠ [] → Event.closingName written = written)
      (children : ∀ c ∈ e.children, Element.ReadIn P (outer.inner e.declared) c) :
      Element.ReadIn P outer e

/-- What is known of the elements that are open. -/
inductive Reader.StackRead (P : String → Prop) : List OpenElement → Prop where
  | nil : StackRead P []
  | cons {o : OpenElement} {os : List OpenElement}
      (tag : o.element.TagRead (scopeOf os) o.written)
      (scope : o.scope = (scopeOf os).inner o.element.declared)
      (text : ∀ t ∈ o.element.text, P t)
      (children : ∀ c ∈ o.element.children, c.ReadIn P o.scope) (rest : StackRead P os) :
      StackRead P (o :: os)

theorem Element.tagRead_of_ofTag (h : Element.ofTag outer written attributes = .ok (e, scope))
    (hname : IsTagName written) : e.TagRead outer written ∧ scope = outer.inner e.declared ∧
      e.text = none ∧ e.children = [] := by
  simp only [ofTag, bind_ok, pure_ok, Prod.mk.injEq] at h
  obtain ⟨as, has, n, hn, plain, hplain, rfl, rfl⟩ := h
  exact ⟨⟨hname, ⟨as, (RawAttribute.readFrom_distinct has).1, RawAttribute.isKey_of_readFrom has,
    rfl, hplain⟩, hn⟩, rfl, rfl, rfl⟩

open Reader

variable {stack : List OpenElement} {root : Option Element} {x : Event}
  {s : List OpenElement × Option Element}

theorem Element.TagRead.congr {e' : Element} (h : e.TagRead outer written)
    (hname : e'.name = e.name) (hattributes : e'.attributes = e.attributes)
    (hdeclared : e'.declared = e.declared) : e'.TagRead outer written := by
  obtain ⟨h1, h2, h3⟩ := h
  exact ⟨h1, by rwa [hattributes, hdeclared], by rwa [hname, hdeclared]⟩

theorem Reader.StackRead.place (h : StackRead P stack) (he : e.ReadIn P (scopeOf stack))
    (hroot : ∀ f ∈ root, f.ReadIn P .empty) : StackRead P (place e root stack).1 ∧
      ∀ f ∈ (Reader.place e root stack).2, f.ReadIn P .empty := by
  cases h with
  | nil =>
    refine ⟨.nil, ?_⟩
    intro f hf
    obtain rfl := Option.some.inj hf
    exact he
  | cons tag scope text children rest =>
    refine ⟨.cons (tag.congr rfl rfl rfl) scope text ?_ rest, hroot⟩
    exact List.forall_mem_append.2 ⟨children, List.forall_mem_singleton.2 he⟩

theorem Reader.StackRead.appendText {o : OpenElement} {os : List OpenElement}
    (h : StackRead P (o :: os)) {cs : List Char} (hx : x.Keeps P) (hcs : x.data? = some cs) :
    StackRead P ({ o with element := appendText cs o.element } :: os) := by
  rw [Reader.appendText]
  split
  case isTrue => exact h
  case isFalse hblank =>
    cases h with
    | cons tag scope text children rest =>
      refine .cons (tag.congr rfl rfl rfl) scope ?_ children rest
      intro t ht
      obtain rfl := Option.some.inj ht
      refine hx cs hcs ((Bool.not_eq_true _).mp hblank) _ ?_
      cases htext : o.element.text with
      | none => exact .inl rfl
      | some t => exact .inr (text t htext)

/-- Each event keeps what is known of the open elements and of the root. -/
theorem step_read (hx : x.Named) (hkeeps : x.Keeps P) (h : StackRead P stack)
    (hroot : ∀ f ∈ root, f.ReadIn P .empty) (hs : step stack root x = .ok s) :
    StackRead P s.1 ∧ ∀ f ∈ s.2, f.ReadIn P .empty := by
  cases x with
  | malformed => cases hs
  | opening name attributes closed =>
    simp only [step, bind_ok, pure_ok] at hs
    obtain ⟨⟨e, scope⟩, htag, rfl⟩ := hs
    obtain ⟨hread, rfl, htext, hchildren⟩ := Element.tagRead_of_ofTag htag hx
    cases closed with
    | true =>
      refine h.place (.intro hread (by simp [htext]) ?_ (by simp [hchildren])) hroot
      simp [htext, hchildren]
    | false => exact ⟨.cons hread rfl (by simp [htext]) (by simp [hchildren]) h, hroot⟩
  | closing name =>
    cases h with
    | nil => cases hs
    | cons tag scope text children rest =>
      simp only [step] at hs
      split at hs
      case isTrue hwritten =>
        obtain rfl := Except.ok.inj hs
        rw [scope] at children
        -- the element is complete, and goes to the one around it or becomes the root
        refine rest.place (.intro tag text (fun _ => ?_) children) hroot
        rw [hwritten]
        exact hx
      case isFalse => cases hs
  | text raw =>
    cases h with
    | nil =>
      obtain rfl := Except.ok.inj hs
      exact ⟨.nil, hroot⟩
    | cons tag scope text children rest =>
      simp only [step] at hs
      split at hs
      case h_1 => cases hs
      case h_2 cs hcs =>
        obtain rfl := Except.ok.inj hs
        exact ⟨(StackRead.cons tag scope text children rest).appendText hkeeps hcs, hroot⟩
  | verbatim cs =>
    cases h with
    | nil =>
      obtain rfl := Except.ok.inj hs
      exact ⟨.nil, hroot⟩
    | cons tag scope text children rest =>
      obtain rfl := Except.ok.inj hs
      exact ⟨(StackRead.cons tag scope text children rest).appendText hkeeps rfl, hroot⟩

theorem run_read {events : List Event} (hevents : ∀ x ∈ events, x.Named ∧ x.Keeps P)
    (h : StackRead P stack) (hroot : ∀ f ∈ root, f.ReadIn P .empty) {r : Option Element}
    (hr : run stack root events = .ok r) : ∀ f ∈ r, f.ReadIn P .empty := by
  induction events generalizing stack root with
  | nil =>
    cases h with
    | nil =>
      obtain rfl := Except.ok.inj hr
      exact hroot
    | cons => cases hr
  | cons x events ih =>
    obtain ⟨hx, hevents⟩ := List.forall_mem_cons.1 hevents
    obtain ⟨s, hs, hr⟩ := run_cons_ok.1 hr
    obtain ⟨hstack, hroot⟩ := step_read hx.1 hx.2 h hroot hs
    exact ih hevents hstack hroot hr

/-- The root of a document was read where nothing is in force. -/
theorem readIn_of_readDocument {xml : String} (h : readDocument xml = .ok (some e))
    (hkeeps : ∀ x ∈ Event.ofDocument xml, x.Keeps P) : e.ReadIn P .empty :=
  run_read (fun x hx => ⟨Event.named_of_ofDocument xml x hx, hkeeps x hx⟩) .nil (by simp) h e rfl

end Read

section Family

mutual
/-- The element and all elements below it. -/
def Element.family : Element → List Element
  | ⟨name, attributes, text, children, declared⟩ =>
    ⟨name, attributes, text, children, declared⟩ :: familyAll children

/-- The elements and all elements below them. -/
def familyAll : List Element → List Element
  | [] => []
  | e :: r => e.family ++ familyAll r
end

theorem mem_familyAll {f : Element} {es : List Element} :
    f ∈ familyAll es ↔ ∃ e ∈ es, f ∈ e.family := by
  induction es with
  | nil => simp [familyAll]
  | cons e r ih => simp [familyAll, ih]

theorem Element.forall_family {p : Element → Prop} {e : Element} :
    (∀ f ∈ e.family, p f) ↔ p e ∧ ∀ c ∈ e.children, ∀ f ∈ c.family, p f := by
  obtain ⟨name, attributes, text, children, declared⟩ := e
  rw [family, List.forall_mem_cons]
  simp only [mem_familyAll, forall_exists_index, and_imp]
  exact and_congr_right fun _ => ⟨fun h c hc f hf => h f c hc hf, fun h f c hc hf => h c hc f hf⟩

end Family

section Scopes

variable {s s' w outer : Scope} {e : Element} {written : List Char} {p : Option String}

/-- In both scopes each prefix stands for the same, and the default namespace is the same. -/
def Scope.Same (s s' : Scope) : Prop := ∀ p, s.boundTo p = s'.boundTo p

theorem Scope.Same.resolve (h : s.Same s') (unprefixed : Option String) (n : String) :
    s.resolve unprefixed n = s'.resolve unprefixed n := by
  have hlookup : ∀ p, s.lookup p = s'.lookup p := fun p => h (some p)
  simp only [Scope.resolve, hlookup]

theorem Scope.Same.resolveElement (h : s.Same s') (n : String) :
    s.resolveElement n = s'.resolveElement n := by
  have hdefault : s.defaultUri = s'.defaultUri := h none
  rw [Scope.resolveElement, Scope.resolveElement, hdefault, h.resolve]

theorem Scope.Same.resolveAttribute (h : s.Same s') (n : String) :
    s.resolveAttribute n = s'.resolveAttribute n := h.resolve none n

/-- A name is resolved to one that is written as it was, and to the namespace that its prefix stands
for, if no prefix is empty. -/
theorem Scope.resolve_some {unprefixed : Option String} {n : String} {q : QName}
    (h : s.resolve unprefixed n = .ok q) (hempty : s.boundTo (some "") = none) : q.written = n ∧
      (q.nsPrefix = none ∧ q.uri = unprefixed ∨
        ∃ p u, q.nsPrefix = some p ∧ q.uri = some u ∧ s.boundTo (some p) = some u) := by
  rw [← String.ofList_toList (s := n)] at h ⊢
  rcases noColon_or_prefixed n.toList with hcolon | ⟨p, l, hp, hn⟩
  · rw [resolve, String.toList_ofList, splitAt?_none hcolon] at h
    obtain rfl := Except.ok.inj h
    exact ⟨rfl, .inl ⟨rfl, rfl⟩⟩
  · rw [hn, resolve_prefixed hp] at h
    rw [hn]
    split at h
    case h_1 => cases h
    case h_2 u hu =>
      obtain rfl := Except.ok.inj h
      have hne : p.isEmpty = false := by
        rw [← Bool.not_eq_true, String.isEmpty_iff]
        rintro rfl
        cases hempty.symm.trans hu
      refine ⟨?_, .inr ⟨p, u, by simp [QName.prefixed, hne], rfl, hu⟩⟩
      simp [QName.prefixed, hne, QName.written, String.ext_iff]

namespace Element.TagRead

/-- The declarations that were read in a tag. -/
theorem declarations (h : e.TagRead outer written) : ∃ ds : List Declaration,
    e.declared = declaredScope ds ∧ (ds.Pairwise fun d d' => d.nsPrefix ≠ d'.nsPrefix) ∧
      ∀ d ∈ ds, IsKey d.raw.name.toList := by
  obtain ⟨as, hdistinct, hkeys, hdeclared, -⟩ := h.raws
  refine ⟨as.filterMap RawAttribute.declaration?, hdeclared.trans (declared_eq as),
    RawAttribute.declarations_distinct hdistinct, ?_⟩
  intro d hd
  obtain ⟨a, ha, hd⟩ := List.mem_filterMap.1 hd
  obtain ⟨p, hp, rfl⟩ := Option.map_eq_some_iff.1 hd
  rw [← RawAttribute.eq_raw hp]
  exact hkeys a ha

variable (hempty : (outer.inner e.declared).boundTo (some "") = none)
include hempty

/-- The attributes that were read are written as they were. -/
theorem attributes (h : e.TagRead outer written) :
    (e.attributes.map Attribute.raw).Pairwise (fun a b => a.name ≠ b.name) ∧
      ∀ a ∈ e.attributes, IsKey a.raw.name.toList ∧ a.raw.declares? = none ∧
        (outer.inner e.declared).resolveAttribute a.name.written = .ok a.name := by
  obtain ⟨as, hdistinct, hkeys, -, hattributes⟩ := h.raws
  have hread := mapM_ok.1 hattributes
  have hstep : ∀ (r : RawAttribute) (a : Attribute), (do
        let n ← (outer.inner e.declared).resolveAttribute r.name
        return (⟨n, r.value⟩ : Attribute)) = .ok a →
      a.raw = r ∧ (outer.inner e.declared).resolveAttribute a.name.written = .ok a.name := by
    intro r a ha
    simp only [bind_ok, pure_ok] at ha
    obtain ⟨n, hn, rfl⟩ := ha
    obtain ⟨hwritten, -⟩ := Scope.resolve_some hn hempty
    exact ⟨by rw [Attribute.raw, hwritten], by rwa [hwritten]⟩
  have hraws : as.filter (·.declares?.isNone) = e.attributes.map Attribute.raw := by
    rw [← List.forall₂_eq_eq_eq, List.forall₂_map_right_iff]
    exact hread.imp fun r a ha => (hstep r a ha).1.symm
  refine ⟨hraws ▸ hdistinct.filter _, mapM_all ?_ hattributes⟩
  intro r hr a ha
  obtain ⟨hin, hdeclares⟩ := List.mem_filter.1 hr
  obtain ⟨rfl, hresolved⟩ := hstep r a ha
  exact ⟨hkeys _ hin, Option.isNone_iff_eq_none.1 hdeclares, hresolved⟩

/-- What the element needs holds inside it, but for what is said of the reserved prefix. -/
theorem needs_hold (h : e.TagRead outer written) {d : Declaration} (hd : d ∈ e.needs)
    (hxml : d.nsPrefix ≠ some "xml") :
    (outer.inner e.declared).boundTo d.nsPrefix = some d.uri := by
  obtain ⟨ds, hds, hdistinct, -⟩ := h.declarations
  have hdeclared : ∀ d ∈ ds, d.nsPrefix ≠ some "xml" →
      (outer.inner e.declared).boundTo d.nsPrefix = some d.uri := by
    intro d hd hxml
    rw [hds, inner_declared hdistinct]
    exact boundTo_extends_mem hxml hdistinct hd
  simp only [Element.needs, List.mem_append, or_assoc] at hd
  -- what is needed for the name, for the prefixes declared, for the default, for an attribute
  rcases hd with hd | hd | hd | hd
  case inl =>
    obtain ⟨u, hu, rfl⟩ : ∃ u, e.name.uri = some u ∧ ⟨e.name.nsPrefix, u⟩ = d := by
      simpa using hd
    rcases (Scope.resolve_some h.resolved hempty).2 with ⟨hp, huri⟩ | ⟨p, v, hp, hv, hbound⟩
    · simp only [hp]
      exact huri.symm.trans hu
    · simp only [hp]
      rw [hbound, ← hv, hu]
  case inr.inl =>
    rw [hds, bindings_declaredScope hdistinct] at hd
    obtain ⟨b, hb, rfl⟩ := List.mem_map.1 hd
    obtain ⟨n, hn, hb⟩ := List.mem_filterMap.1 hb
    obtain ⟨p, hp, rfl⟩ := Option.map_eq_some_iff.1 hb
    have hbound := hdeclared n hn
    rw [hp] at hbound
    exact hbound hxml
  case inr.inr.inl =>
    obtain ⟨u, hu, rfl⟩ : ∃ u, e.declared.defaultUri = some u ∧ ⟨none, u⟩ = d := by
      simpa using hd
    rw [hds] at hu
    exact hdeclared _ (mem_of_defaultUri hu) hxml
  case inr.inr.inr =>
    obtain ⟨a, ha, hd⟩ := List.mem_filterMap.1 hd
    split at hd
    case h_1 p u hp hu =>
      obtain rfl := Option.some.inj hd
      have hresolved := ((h.attributes hempty).2 a ha).2.2
      rcases (Scope.resolve_some hresolved hempty).2 with ⟨hq, -⟩ | ⟨q, v, hq, hv, hbound⟩
      · cases hp.symm.trans hq
      · obtain rfl := Option.some.inj (hp.symm.trans hq)
        rw [← hu, hv]
        exact hbound
    case h_2 => cases hd

end Element.TagRead

/-- What is declared on an element it needs. -/
theorem Element.mem_needs {ds : List Declaration} {d : Declaration}
    (hds : e.declared = declaredScope ds)
    (hdistinct : ds.Pairwise fun d d' => d.nsPrefix ≠ d'.nsPrefix) (hd : d ∈ ds) :
    d ∈ e.needs ∧ ∀ q ∈ d.nsPrefix, (q, d.uri) ∈ e.declared.bindings := by
  simp only [Element.needs, List.mem_append]
  obtain ⟨q, u⟩ := d
  cases q with
  | none =>
    have hdefault : (declaredScope ds).defaultUri = some u :=
      boundTo_extends_mem (s := .empty) (d := ⟨none, u⟩) (by simp) hdistinct hd
    rw [hds, hdefault]
    exact ⟨by simp, by simp⟩
  | some q =>
    have hbinding : (q, u) ∈ e.declared.bindings := by
      rw [hds, bindings_declaredScope hdistinct]
      exact List.mem_filterMap.2 ⟨_, hd, rfl⟩
    refine ⟨.inl (.inl (.inr (List.mem_map.2 ⟨_, hbinding, rfl⟩))), ?_⟩
    intro q' hq
    obtain rfl := Option.some.inj hq
    exact hbinding

/-- The needs that are looked at: the reserved prefix is never declared. -/
theorem declare_filter (s : Scope) (needs : List Declaration) :
    declare s needs = declare s (needs.filter (·.nsPrefix ≠ some "xml")) := by
  induction needs generalizing s with
  | nil => rfl
  | cons d r ih =>
    by_cases hd : d.nsPrefix = some "xml"
    · have hholds : d.holdsIn s = true := by simp [Declaration.holdsIn, hd]
      rw [declare_cons, if_pos hholds, ih, List.filter_cons_of_neg (by simpa using hd)]
    · rw [List.filter_cons_of_pos (by simpa using hd), declare_cons, declare_cons, ih, ih]

section Inside

variable (h : e.TagRead outer written) (hw : w.Same outer)
  (hempty : (outer.inner e.declared).boundTo (some "") = none)
include h hempty

theorem Element.TagRead.agree : ∀ d ∈ e.needs.filter (·.nsPrefix ≠ some "xml"),
    ∀ d' ∈ e.needs.filter (·.nsPrefix ≠ some "xml"), d.Agrees d' := by
  intro d hd d' hd' hp
  simp only [List.mem_filter, decide_eq_true_eq] at hd hd'
  have hu := h.needs_hold hempty hd.1 hd.2
  have hu' := h.needs_hold hempty hd'.1 hd'.2
  rw [hp, hu'] at hu
  exact (Option.some.inj hu).symm

include hw

/-- Where each prefix stands for the same around an element, it does so inside it. -/
theorem Element.TagRead.inside_same : (e.inside w).Same (outer.inner e.declared) := by
  intro p
  by_cases hxml : p = some "xml"
  · rw [hxml, Scope.boundTo_xml, Scope.boundTo_xml]
  by_cases hneed : ∃ d ∈ e.needs, d.nsPrefix = p
  · obtain ⟨d, hd, rfl⟩ := hneed
    have hd' : d ∈ e.needs.filter (·.nsPrefix ≠ some "xml") := by simp [hd, hxml]
    have hholds := declare_holds (s := w) (h.agree hempty) d hd'
    rw [← declare_filter] at hholds
    rw [h.needs_hold hempty hd hxml]
    exact (Declaration.holdsIn_iff hxml).1 hholds
  · have hnone : ∀ d ∈ e.needs, d.nsPrefix ≠ p := fun d hd hp => hneed ⟨d, hd, hp⟩
    obtain ⟨ds, hds, hdistinct, -⟩ := h.declarations
    rw [hds, inner_declared hdistinct, Element.inside, declare_scope,
      boundTo_extends hxml fun d hd => hnone d (declare_subset _ _ hd),
      boundTo_extends hxml fun d hd => hnone d (Element.mem_needs hds hdistinct hd).1]
    exact hw p

/-- What is written on the element for its needs was declared on it when it was read. -/
theorem Element.TagRead.declared {d : Declaration} (hd : d ∈ (declare w e.needs).1) :
    IsKey d.raw.name.toList ∧ ∀ q ∈ d.nsPrefix, ∃ u, (q, u) ∈ e.declared.bindings := by
  obtain ⟨ds, hds, hdistinct, hkeys⟩ := h.declarations
  rw [declare_filter] at hd
  obtain ⟨hneed, hxml⟩ : d ∈ e.needs ∧ d.nsPrefix ≠ some "xml" := by
    simpa using declare_subset _ _ hd
  have hneeded := declare_needed (h.agree hempty) d hd
  by_cases hdeclared : ∃ d' ∈ ds, d'.nsPrefix = d.nsPrefix
  · obtain ⟨d', hd', hp⟩ := hdeclared
    have hname : d'.raw.name = d.raw.name := by simp only [Declaration.raw, hp]
    refine ⟨hname ▸ hkeys d' hd', fun q hq => ⟨d'.uri, ?_⟩⟩
    exact (Element.mem_needs hds hdistinct hd').2 q (hp ▸ hq)
  · -- what was not declared held around the element, and holds there still
    have hnone : ∀ d' ∈ ds, d'.nsPrefix ≠ d.nsPrefix := fun d' hd' hp => hdeclared ⟨d', hd', hp⟩
    have hholds := h.needs_hold hempty hneed hxml
    rw [hds, inner_declared hdistinct, boundTo_extends hxml hnone, ← hw,
      ← Declaration.holdsIn_iff hxml, hneeded] at hholds
    cases hholds

end Inside

instance (cs : List Char) : Decidable (Unquoted cs) :=
  List.decidableBAll (fun c => c ≠ '>' ∧ c ≠ '"' ∧ c ≠ '\'') cs

/-- The names in the tag of the element can be told where they are written: none holds a quotation
mark or the end of a tag, no prefix is empty, and the name of an element that is not empty does not
end as the tag of an empty one does. -/
structure Element.OrderlyTag (e : Element) : Prop where
  name : Unquoted e.name.written.toList
  attributes : ∀ a ∈ e.attributes, Unquoted a.name.written.toList
  prefixes : ∀ b ∈ e.declared.bindings, b.1 ≠ "" ∧ Unquoted b.1.toList
  slash : e.text.isSome ∨ e.children ≠ [] → e.name.written.toList.getLast? ≠ some '/'

instance (e : Element) : Decidable e.OrderlyTag :=
  decidable_of_iff
    (Unquoted e.name.written.toList ∧
      (∀ a ∈ e.attributes, Unquoted a.name.written.toList) ∧
      (∀ b ∈ e.declared.bindings, b.1 ≠ "" ∧ Unquoted b.1.toList) ∧
      (e.text.isSome ∨ e.children ≠ [] → e.name.written.toList.getLast? ≠ some '/'))
    ⟨fun ⟨h₁, h₂, h₃, h₄⟩ => ⟨h₁, h₂, h₃, h₄⟩,
      fun h => ⟨h.name, h.attributes, h.prefixes, h.slash⟩⟩

/-- The names in all tags of the element can be told where they are written. -/
def Element.Orderly (e : Element) : Prop := ∀ f ∈ e.family, f.OrderlyTag

instance (e : Element) : Decidable e.Orderly :=
  inferInstanceAs (Decidable (∀ f ∈ e.family, f.OrderlyTag))

/-- A declaration is written without quotation marks if its prefix is. -/
theorem Declaration.raw_unquoted {d : Declaration} (h : ∀ q ∈ d.nsPrefix, Unquoted q.toList) :
    Unquoted d.raw.name.toList := by
  obtain ⟨p, u⟩ := d
  have hx : Unquoted "xmlns:".toList := by decide
  intro c hc
  cases p with
  | none =>
    have hword : "xmlns".toList ⊆ "xmlns:".toList := by decide
    exact hx c (hword hc)
  | some p =>
    rw [Declaration.raw, String.toList_append, List.mem_append] at hc
    exact hc.elim (hx c) (h p rfl c)

theorem Element.TagRead.legible (h : e.TagRead outer written) (hw : w.Same outer)
    (hempty : (outer.inner e.declared).boundTo (some "") = none) (ho : e.OrderlyTag)
    (hends : e.text.isSome ∨ e.children ≠ [] → Event.closingName written = written) :
    e.Legible w := by
  have hname : e.name.written.toList = written := by
    rw [(Scope.resolve_some h.resolved hempty).1, String.toList_ofList]
  have hsame := h.inside_same hw hempty
  have hfull : e.text.getD "" ≠ "" ∨ e.children ≠ [] → e.text.isSome ∨ e.children ≠ [] := by
    refine Or.imp_left fun ht => ?_
    cases htext : e.text with
    | none => simp [htext] at ht
    | some t => rfl
  obtain ⟨hdistinct, hattributes⟩ := h.attributes hempty
  refine ⟨hname ▸ h.name, ho.name, ?raws, ?distinct, ?ends,
    fun a ha => (hattributes a ha).2.1, ?needed, ?resolveElement, ?resolveAttribute⟩
  case raws =>
    refine List.forall_mem_append.2 ⟨?_, ?_⟩
    · intro x hx
      obtain ⟨d, hd, rfl⟩ := List.mem_map.1 hx
      obtain ⟨hkey, hbinding⟩ := h.declared hw hempty hd
      exact ⟨hkey, Declaration.raw_unquoted fun q hq =>
        (ho.prefixes _ (hbinding q hq).choose_spec).2⟩
    · intro x hx
      obtain ⟨a, ha, rfl⟩ := List.mem_map.1 hx
      exact ⟨(hattributes a ha).1, ho.attributes a ha⟩
  case distinct =>
    -- two declarations differ in their prefixes, and no attribute is taken for a declaration
    refine List.pairwise_append.2 ⟨?_, hdistinct, ?_⟩
    · rw [declare_filter]
      exact List.pairwise_map.2
        ((declare_distinct (h.agree hempty)).imp Declaration.name_raw_ne)
    · intro x hx y hy
      obtain ⟨d, -, rfl⟩ := List.mem_map.1 hx
      obtain ⟨a, ha, rfl⟩ := List.mem_map.1 hy
      exact Declaration.name_raw_ne_attribute (hattributes a ha).2.1
  case ends =>
    intro hcontent
    rw [hname]
    exact ⟨hname ▸ ho.slash (hfull hcontent), hends (hfull hcontent)⟩
  case needed =>
    rw [declare_filter]
    exact declare_needed (h.agree hempty)
  case resolveElement =>
    rw [hsame.resolveElement, (Scope.resolve_some h.resolved hempty).1]
    exact h.resolved
  case resolveAttribute =>
    intro a ha
    rw [hsame.resolveAttribute]
    exact (hattributes a ha).2.2

/-- Where no empty prefix stands for anything, none does inside an orderly tag. -/
theorem Element.TagRead.empty_inside (h : e.TagRead outer written) (ho : e.OrderlyTag)
    (hempty : outer.boundTo (some "") = none) :
    (outer.inner e.declared).boundTo (some "") = none := by
  obtain ⟨ds, hds, hdistinct, -⟩ := h.declarations
  have hnone : ∀ d ∈ ds, d.nsPrefix ≠ some "" := fun d hd hp =>
    (ho.prefixes _ ((mem_needs hds hdistinct hd).2 "" hp)).1 rfl
  rw [hds, inner_declared hdistinct, boundTo_extends (by decide) hnone]
  exact hempty

/-- What is read again where an orderly tag was written is orderly. -/
theorem Element.TagRead.orderly_again (h : e.TagRead outer written) (hw : w.Same outer)
    (hempty : (outer.inner e.declared).boundTo (some "") = none) (ho : e.OrderlyTag)
    (hl : e.Legible w) : (e.reread w).OrderlyTag := by
  rw [reread_eq]
  refine ⟨ho.name, ho.attributes, ?prefixes,
    fun hcontent => ho.slash (hcontent.imp ?text ?children)⟩
  case prefixes =>
    intro b hb
    rw [bindings_declaredScope hl.declared_distinct] at hb
    obtain ⟨d, hd, hb⟩ := List.mem_filterMap.1 hb
    obtain ⟨q, hq, rfl⟩ := Option.map_eq_some_iff.1 hb
    obtain ⟨u, hu⟩ := (h.declared hw hempty hd).2 q hq
    exact ho.prefixes (q, u) hu
  case text =>
    intro htext
    cases hnone : e.text with
    | none => simp [hnone, textRead?, Text.strip] at htext
    | some t => rfl
  case children =>
    intro hchildren hnil
    simp [hnil] at hchildren

/-- An orderly element that was read can be told from its text, and is orderly when it is read
again. -/
theorem Element.ReadIn.legible {P : String → Prop} (h : e.ReadIn P outer) (hw : w.Same outer)
    (hempty : outer.boundTo (some "") = none) (ho : e.Orderly) :
    e.LegibleTree w ∧ (e.reread w).Orderly := by
  induction h generalizing w with
  | @intro outer e written tag text ends children ih =>
    obtain ⟨hself, hbelow⟩ := Element.forall_family.1 ho
    have hinner := tag.empty_inside hself hempty
    have hl := tag.legible hw hinner hself ends
    have hchildren : ∀ c ∈ e.children,
        c.LegibleTree (e.inside w) ∧ (c.reread (e.inside w)).Orderly := fun c hc =>
      ih c hc (tag.inside_same hw hinner) hinner (hbelow c hc)
    refine ⟨.intro hl fun c hc => (hchildren c hc).1, ?_⟩
    refine Element.forall_family.2 ⟨tag.orderly_again hw hinner hself hl, ?_⟩
    rw [reread_eq]
    exact List.forall_mem_map.2 fun c hc => (hchildren c hc).2

end Scopes

section Texts

/-- The text holds more than white space. -/
def Inked (t : String) : Prop := t.toList.all Text.isSpace = false

/-- The text neither begins nor ends with a blank. -/
def Bare (t : String) : Prop := Text.strip isXmlSpace t.toList = t.toList

/-- No text in the element or below it begins or ends with a blank. -/
def Element.Trimmed (e : Element) : Prop := ∀ f ∈ e.family, ∀ t ∈ f.text, Bare t

instance (t : String) : Decidable (Bare t) := inferInstanceAs (Decidable (_ = _))

instance (e : Element) : Decidable e.Trimmed :=
  inferInstanceAs (Decidable (∀ f ∈ e.family, ∀ t ∈ f.text, Bare t))

variable {outer : Scope} {e : Element} {t : String}

theorem textRead?_eq (h : Inked t) :
    textRead? t = some (String.ofList (Text.strip isXmlSpace t.toList)) := by
  obtain ⟨a, b, hsplit, ha, hb⟩ := Text.strip_between isXmlSpace t.toList
  rw [textRead?, if_neg]
  rw [Inked, hsplit, List.all_append, List.all_append,
    List.all_eq_true.2 fun c hc => Text.isSpace_of_isXmlSpace (ha c hc),
    List.all_eq_true.2 fun c hc => Text.isSpace_of_isXmlSpace (hb c hc)] at h
  simpa using h

theorem keeps_inked (x : Event) : x.Keeps Inked := by
  intro cs _ hcs t _
  rw [Inked, String.toList_append, String.toList_ofList, List.all_append, hcs, Bool.and_false]

theorem bare_iff : Bare t ↔ (∀ c ∈ t.toList.head?, isXmlSpace c = false) ∧
    ∀ c ∈ t.toList.getLast?, isXmlSpace c = false := by
  refine ⟨fun h => ?_, fun h => Text.strip_of_ends h.1 h.2⟩
  rw [← (h : Text.strip isXmlSpace t.toList = t.toList)]
  exact ⟨Text.head?_strip, Text.getLast?_strip⟩

theorem keeps_bare {x : Event} (h : ∀ cs ∈ x.data?, Bare (String.ofList cs)) : x.Keeps Bare := by
  intro cs hcs _ t ht
  obtain ⟨hhead, hlast⟩ := bare_iff.1 (h cs hcs)
  obtain ⟨hhead', hlast'⟩ : (∀ c ∈ t.toList.head?, isXmlSpace c = false) ∧
      ∀ c ∈ t.toList.getLast?, isXmlSpace c = false := by
    rcases ht with rfl | ht
    · simp
    · exact bare_iff.1 ht
  refine bare_iff.2 ⟨fun c hc => ?_, fun c hc => ?_⟩
  · rw [String.toList_append, List.head?_append, Option.mem_def, Option.or_eq_some_iff] at hc
    exact hc.elim (hhead' c) fun hc => hhead c hc.2
  · rw [String.toList_append, List.getLast?_append, Option.mem_def, Option.or_eq_some_iff] at hc
    exact hc.elim (hlast c) fun hc => hlast' c hc.2

/-- A document without data that begins or ends with a blank is read with such texts. -/
theorem Element.ReadIn.trimmed (h : e.ReadIn Bare outer) : e.Trimmed := by
  induction h with
  | intro _ text _ _ ih => exact Element.forall_family.2 ⟨text, ih⟩

/-- The texts of an element are read as they are just if none begins or ends with a blank. -/
theorem Element.ReadIn.asRead_iff (h : e.ReadIn Inked outer) :
    e.asRead.restyle id = e.restyle id ↔ e.Trimmed := by
  induction h with
  | @intro outer e written tag text ends children ih =>
    have htext : textRead? (e.text.getD "") = e.text ↔
        ∀ t ∈ e.text, Bare t := by
      cases ht : e.text with
      | none => simp [textRead?, Text.strip]
      | some t =>
        rw [Option.getD_some, textRead?_eq (text t ht), Option.some.injEq, ← String.toList_inj,
          String.toList_ofList]
        simp [Bare]
    have hchildren : e.children.map (·.asRead.restyle id) = e.children.map (·.restyle id) ↔
        ∀ c ∈ e.children, c.Trimmed :=
      List.map_inj_left.trans (forall₂_congr ih)
    rw [restyle_asRead, restyle_eq]
    simp only [mk.injEq, true_and, and_true, htext, hchildren]
    exact (forall_family (p := fun f => ∀ t ∈ f.text, Bare t)).symm

mutual
/-- No text that was read again begins or ends with a blank. -/
theorem Element.trimmed_reread (w : Scope) : (e : Element) → (e.reread w).Trimmed
  | ⟨name, attributes, text, children, declared⟩ => by
    rw [Element.reread]
    refine Element.forall_family.2 ⟨fun t ht => ?_, trimmed_rereadAll _ children⟩
    simp only [textRead?] at ht
    split at ht
    · cases ht
    · obtain rfl := Option.some.inj ht
      rw [Bare, String.toList_ofList]
      exact Text.strip_of_ends Text.head?_strip Text.getLast?_strip

theorem trimmed_rereadAll (w : Scope) : (es : List Element) → ∀ c ∈ rereadAll w es, c.Trimmed
  | [] => by simp [rereadAll]
  | e :: r => by
    rw [rereadAll]
    exact List.forall_mem_cons.2 ⟨e.trimmed_reread w, trimmed_rereadAll w r⟩
end

theorem ofXml_ok {xml : String} :
    Element.ofXml xml = .ok e ↔ readDocument xml = .ok (some e) := by
  rw [Element.ofXml, bind_ok]
  constructor
  · rintro ⟨r, hr, he⟩
    cases r with
    | none => cases he
    | some f =>
      obtain rfl := Except.ok.inj he
      exact hr
  · exact fun h => ⟨some e, h, rfl⟩

end Texts

/-- A document that was read with orderly tags is read again from its text with the same names,
attributes and children, and with all texts but for the blanks at their ends: it is the same
tree just if there are none, as where no data in the document begins or ends with blanks. What is
read then stays as it is. -/
theorem reread_but_for_blanks {xml : String} {e : Element}
    (h : readDocument xml = .ok (some e)) (ho : e.Orderly) :
    (∃ e' : Element, Element.ofXml e.toXml = .ok e' ∧ e'.restyle id = e.asRead.restyle id ∧
      (e'.restyle id = e.restyle id ↔ e.Trimmed) ∧
      ∃ e'' : Element, Element.ofXml e'.toXml = .ok e'' ∧ e''.restyle id = e'.restyle id) ∧
    ((∀ x ∈ Event.ofDocument xml, ∀ cs ∈ x.data?, Bare (String.ofList cs)) → e.Trimmed) := by
  have hread := readIn_of_readDocument h fun x _ => keeps_inked x
  obtain ⟨hlegible, horderly⟩ := hread.legible (fun _ => rfl) rfl ho
  have hagain := Element.ofXml_toXml_legible hlegible
  have hread' := readIn_of_readDocument (ofXml_ok.1 hagain) fun x _ => keeps_inked x
  have hlegible' := (hread'.legible (fun _ => rfl) rfl horderly).1
  have hsame := e.restyle_reread id .empty
  refine ⟨⟨e.reread .empty, hagain, hsame, hsame ▸ hread.asRead_iff, _,
    Element.ofXml_toXml_legible hlegible', ?_⟩, ?_⟩
  · rw [Element.restyle_reread, hread'.asRead_iff]
    exact e.trimmed_reread .empty
  · exact fun hbare => (readIn_of_readDocument h fun x hx => keeps_bare (hbare x hx)).trimmed

/-- A document with a prefix that is used for two namespaces, and with a text in two pieces. -/
def patched : String :=
  "<p:a xmlns:p='urn:u'> x<p:b xmlns:p='urn:v' p:k='&lt;'/><![CDATA[ y ]]></p:a>"

theorem reread_but_for_blanks_patched : ∃ e e' : Element,
    readDocument patched = .ok (some e) ∧ e.Orderly ∧ Element.ofXml e.toXml = .ok e' ∧
      e'.restyle id ≠ e.restyle id ∧
        ∃ e'' : Element, Element.ofXml e'.toXml = .ok e'' ∧ e''.restyle id = e'.restyle id := by
  have hread : ((readDocument patched).toOption.bind id).any
      (fun e => e.Orderly ∧ ¬e.Trimmed) = true := by decide +kernel
  obtain ⟨e, he, hboth⟩ := (Option.any_eq_true _ _).1 hread
  obtain ⟨horderly, hblank⟩ := of_decide_eq_true hboth
  obtain ⟨r, hr, rfl⟩ := Option.bind_eq_some_iff.1 he
  obtain ⟨⟨e', hagain, -, hsame, htwice⟩, -⟩ := reread_but_for_blanks (toOption_ok.1 hr) horderly
  exact ⟨e, e', toOption_ok.1 hr, horderly, hagain, fun h => hblank (hsame.1 h), htwice⟩

/-- A section whose blanks are lost where the text of its element is read again. -/
theorem blanks_lost_again : ¬∀ (xml : String) (e : Element), readDocument xml = .ok (some e) →
    ∃ e' : Element, Element.ofXml e.toXml = .ok e' ∧ e'.restyle id = e.restyle id := by
  intro h
  have hread : ((readDocument "<a><![CDATA[ x ]]></a>").toOption.bind id).map
      (fun e => (e.text, e.toXml)) = some (some " x ", "<a> x </a>") := by decide +kernel
  have hagain : (Element.ofXml "<a> x </a>").toOption.map (·.text) = some (some "x") := by
    decide +kernel
  obtain ⟨e, he, hboth⟩ := Option.map_eq_some_iff.1 hread
  obtain ⟨r, hr, rfl⟩ := Option.bind_eq_some_iff.1 he
  obtain ⟨htext, hxml⟩ := Prod.mk.inj hboth
  obtain ⟨e', he', hsame⟩ := h _ e (toOption_ok.1 hr)
  have hkept : e'.text = e.text := by
    have hboth := congrArg Element.text hsame
    rwa [Element.restyle_eq, Element.restyle_eq] at hboth
  rw [hxml] at he'
  rw [he', Except.toOption, Option.map_some, hkept, htext] at hagain
  exact absurd hagain (by decide)

end DiscoveryMetadata.Xml
