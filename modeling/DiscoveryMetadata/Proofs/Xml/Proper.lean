import DiscoveryMetadata.Proofs.Xml.Written
import DiscoveryMetadata.Text.Names
import DiscoveryMetadata.Xml.Strict
/-
  Trees that can be written, whoever put them together.

  `Proper` asks of an element what can be seen on it and on the elements around it, without the
  scopes that the writer goes through: which names stand on it, what each prefix is used for there,
  and which default namespace is in force. The absent prefix counts as one, that of the default
  namespace. A tree of such elements is writable, since the default namespace inside an element is
  the one that the writer arrives at (`defaultUri_inside`). So it is read back from its text, and
  each declaration in that text changes a binding (`Element.proper_reread`).
-/
namespace DiscoveryMetadata.Xml

/-- The text is a name of XML without a colon. -/
def isXmlName (s : String) : Bool :=
  match s.toList with
  | [] => false
  | c :: r => Strict.isNameStart c && r.all Strict.isNamePart

/-- The names that a qualified name is made of. -/
def QName.parts (q : QName) : List String := q.localName :: q.nsPrefix.toList

namespace Element

/-- The qualified names in the tag of an element. -/
def qnames (e : Element) : List QName := e.name :: e.attributes.map (·.name)

/-- The names in the tag of an element, with the prefixes that are declared there. -/
def names (e : Element) : List String :=
  e.qnames.flatMap (·.parts) ++ e.declared.bindings.map Prod.fst

/-- The prefixes on an element, each with a namespace that it is used for. -/
def uses (e : Element) : List (Option String × String) :=
  e.qnames.filterMap (fun q => q.uri.map (q.nsPrefix, ·)) ++
    e.declared.bindings.map (fun b => (some b.1, b.2)) ++
    (e.declared.defaultUri.map (none, ·)).toList

/-- The default namespace in force on an element, where `outer` is the one around it. -/
def defaultIn (outer : Option String) (e : Element) : Option String :=
  ((if e.name.nsPrefix = none then e.name.uri else none).or e.declared.defaultUri).or outer

/-- The element itself means what its text will say, where `outer` is the default namespace. -/
structure Proper (outer : Option String) (e : Element) : Prop where
  names : ∀ n ∈ e.names, isXmlName n = true ∧ n ≠ "xmlns"
  agree : ∀ x ∈ e.uses, ∀ y ∈ e.uses, x.1 = y.1 → x.2 = y.2
  reserved : ∀ x ∈ e.uses, x.1 = some "xml" → x.2 = xmlNamespace
  qualified : ∀ q ∈ e.qnames, q.nsPrefix.isSome → q.uri.isSome
  attributes : ∀ a ∈ e.attributes, a.name.uri.isSome → a.name.nsPrefix.isSome
  distinct : e.attributes.Pairwise fun a b => a.name.written ≠ b.name.written
  free : e.name.nsPrefix = none → e.name.uri = none → e.defaultIn outer = none
  text : ∀ t ∈ e.text, t ≠ "" ∧ Text.trim t = t

instance (outer : Option String) (e : Element) : Decidable (e.Proper outer) :=
  decidable_of_iff
    ((∀ n ∈ e.names, isXmlName n = true ∧ n ≠ "xmlns") ∧
      (∀ x ∈ e.uses, ∀ y ∈ e.uses, x.1 = y.1 → x.2 = y.2) ∧
      (∀ x ∈ e.uses, x.1 = some "xml" → x.2 = xmlNamespace) ∧
      (∀ q ∈ e.qnames, q.nsPrefix.isSome → q.uri.isSome) ∧
      (∀ a ∈ e.attributes, a.name.uri.isSome → a.name.nsPrefix.isSome) ∧
      (e.attributes.Pairwise fun a b => a.name.written ≠ b.name.written) ∧
      (e.name.nsPrefix = none → e.name.uri = none → e.defaultIn outer = none) ∧
      ∀ t ∈ e.text, t ≠ "" ∧ Text.trim t = t)
    ⟨fun ⟨h₁, h₂, h₃, h₄, h₅, h₆, h₇, h₈⟩ => ⟨h₁, h₂, h₃, h₄, h₅, h₆, h₇, h₈⟩,
      fun h => ⟨h.names, h.agree, h.reserved, h.qualified, h.attributes, h.distinct, h.free,
        h.text⟩⟩

/-- So do the element and all elements below it. -/
inductive ProperTree : Option String → Element → Prop where
  | intro {outer : Option String} {e : Element} (itself : e.Proper outer)
      (children : ∀ c ∈ e.children, ProperTree (e.defaultIn outer) c) : ProperTree outer e

end Element

section Names

variable {s : String} {c : Char}

theorem Strict.isNamePart_of_isNameStart (h : isNameStart c = true) : isNamePart c = true := by
  simp [isNamePart, h]

/-- A character of a name stands for nothing but itself in a tag. -/
theorem isPlain_of_isNamePart (h : Strict.isNamePart c = true) : isPlain c = true ∧ c ≠ ':' := by
  have hall : [' ', '\t', '\n', '\r', '<', '>', '=', '"', '\'', '/', '!', '?', '\x0c', ':'].all
      (fun m => !Strict.isNamePart m) = true := by decide
  have hne : ∀ m ∈ [' ', '\t', '\n', '\r', '<', '>', '=', '"', '\'', '/', '!', '?', '\x0c', ':'],
      c ≠ m := by
    rintro m hm rfl
    simpa [h] using List.all_eq_true.1 hall c hm
  simp only [List.forall_mem_cons, List.not_mem_nil, false_imp_iff, implies_true] at hne
  simp [isPlain, Text.isXmlSpace, hne]

theorem IsName.of_xmlName (h : isXmlName s = true) (hx : s ≠ "xmlns") : IsName s := by
  unfold isXmlName at h
  split at h
  case h_1 => cases h
  case h_2 c r hs =>
    simp only [Bool.and_eq_true, List.all_eq_true] at h
    have hall : ∀ x ∈ s.toList, Strict.isNamePart x = true := by
      rw [hs]
      exact List.forall_mem_cons.2 ⟨Strict.isNamePart_of_isNameStart h.1, h.2⟩
    exact ⟨⟨by simp [hs], fun x hx => (isPlain_of_isNamePart (hall x hx)).1⟩,
      fun hc => (isPlain_of_isNamePart (hall _ hc)).2 rfl, hx⟩

theorem Strict.isNameStart_of_text (h : Text.isNameStart c = true) : isNameStart c = true := by
  simp only [Text.isNameStart, isNameStart, Bool.or_eq_true] at h ⊢
  simp only [h, true_or]

theorem Strict.isNamePart_of_text (h : Text.isNamePart c = true) : isNamePart c = true := by
  have hstart := Strict.isNameStart_of_text (c := c)
  simp only [Text.isNamePart, isNamePart, Bool.or_eq_true] at h ⊢
  tauto

/-- The names without a colon that the schemas allow are names of XML. -/
theorem isXmlName_of_isNCName (h : Text.isNCName s = true) : isXmlName s = true := by
  cases hs : s.toList with
  | nil => simp [Text.isNCName, hs] at h
  | cons c r =>
    simp only [Text.isNCName, isXmlName, hs, Bool.and_eq_true, List.all_eq_true] at h ⊢
    exact ⟨Strict.isNameStart_of_text h.1, fun x hx => Strict.isNamePart_of_text (h.2 x hx)⟩

end Names

namespace Element

variable {outer : Option String} {s : Scope} {e : Element} {d : Declaration}

/-- What an element needs is what its prefixes are used for. -/
theorem mem_uses (h : d ∈ e.needs) : (d.nsPrefix, d.uri) ∈ e.uses := by
  simp only [needs, List.mem_append, Option.mem_toList, Option.map_eq_some_iff,
    List.mem_map, List.mem_filterMap, or_assoc] at h
  simp only [uses, qnames, List.mem_append, List.mem_filterMap, List.mem_map, Option.mem_toList,
    Option.map_eq_some_iff, List.mem_cons, or_assoc]
  rcases h with ⟨u, hu, rfl⟩ | ⟨b, hb, rfl⟩ | ⟨u, hu, rfl⟩ | ⟨a, ha, hd⟩
  · exact .inl ⟨e.name, .inl rfl, u, hu, rfl⟩
  · exact .inr (.inl ⟨b, hb, rfl⟩)
  · exact .inr (.inr ⟨u, hu, rfl⟩)
  · split at hd
    case h_1 p u hp hu =>
      obtain rfl := Option.some.inj hd
      exact .inl ⟨a.name, .inr ⟨a, ha, rfl⟩, u, hu, by rw [hp]⟩
    case h_2 => cases hd

theorem mem_names {p u : String} (h : (some p, u) ∈ e.uses) : p ∈ e.names := by
  simp only [uses, List.mem_append, List.mem_filterMap, List.mem_map, Option.mem_toList,
    Option.map_eq_some_iff, Prod.mk.injEq, or_assoc] at h
  rcases h with ⟨q, hq, -, -, hp, -⟩ | ⟨b, hb, hp, -⟩ | ⟨-, -, hp, -⟩
  · exact List.mem_append_left _ (List.mem_flatMap.2 ⟨q, hq, by simp [QName.parts, hp]⟩)
  · obtain rfl := Option.some.inj hp
    exact List.mem_append_right _ (List.mem_map_of_mem hb)
  · cases hp

namespace Proper

theorem isName (h : e.Proper outer) {n : String} (hn : n ∈ e.names) : IsName n :=
  .of_xmlName (h.names n hn).1 (h.names n hn).2

theorem writable (h : e.Proper outer) {q : QName} (hq : q ∈ e.qnames) : q.Writable := by
  have hparts : ∀ n ∈ q.parts, IsName n := fun n hn =>
    h.isName (List.mem_append_left _ (List.mem_flatMap.2 ⟨q, hq, hn⟩))
  exact ⟨hparts _ (by simp [QName.parts]), fun p hp =>
    hparts p (List.mem_cons_of_mem _ (Option.mem_toList.2 hp)), h.qualified q hq⟩

theorem agrees (h : e.Proper outer) : ∀ d ∈ e.needs, ∀ d' ∈ e.needs, d.Agrees d' :=
  fun _ hd _ hd' => h.agree _ (mem_uses hd) _ (mem_uses hd')

end Proper

/-- The writer arrives at the default namespace that is in force on the element. -/
theorem defaultUri_inside (h : e.Proper s.defaultUri) :
    (e.inside s).defaultUri = e.defaultIn s.defaultUri := by
  have hnone : ∀ ds : List Declaration, (∀ d ∈ ds, d.nsPrefix ≠ none) →
      ds.find? (·.nsPrefix.isNone) = none := by simp
  rw [inside, defaultUri_declare h.agrees, defaultIn, needs, List.find?_append, List.find?_append,
    List.find?_append, hnone (e.declared.bindings.map _) ?bindings,
    hnone (e.attributes.filterMap _) ?attributes]
  case bindings => exact List.forall_mem_map.2 fun b _ => Option.some_ne_none _
  case attributes =>
    intro d hd
    obtain ⟨a, -, hd⟩ := List.mem_filterMap.1 hd
    split at hd
    · simp [← Option.some.inj hd]
    · cases hd
  congr 1
  cases e.name.nsPrefix <;> cases e.name.uri <;> cases e.declared.defaultUri <;> rfl

theorem Proper.presentable (h : e.Proper s.defaultUri) : e.Presentable s where
  name := h.writable List.mem_cons_self
  attributes a ha :=
    ⟨h.writable (List.mem_cons_of_mem _ (List.mem_map_of_mem ha)), h.attributes a ha⟩
  distinct := h.distinct
  declared d hd p hp := h.isName (mem_names (u := d.uri) (Option.mem_def.1 hp ▸ mem_uses hd))
  agree := h.agrees
  reserved _ hd hp := h.reserved _ (mem_uses hd) hp
  text := h.text
  free hu := by
    have hp : e.name.nsPrefix = none := by
      by_contra hp
      simpa [hu] using h.qualified _ List.mem_cons_self (Option.isSome_iff_ne_none.2 hp)
    rw [defaultUri_inside h]
    exact h.free hp hu

theorem ProperTree.writable (h : e.ProperTree outer) (hs : s.defaultUri = outer) :
    e.Writable s := by
  induction h generalizing s with
  | intro itself _ ih =>
    subst hs
    exact .intro itself.presentable fun c hc => ih c hc (defaultUri_inside itself)

/-- A proper tree is read back from its text, the declarations on it aside (`restyle id` drops just
these), and in that text an element declares only what differs from what is in force around it. -/
theorem proper_reread (h : e.ProperTree none) :
    ∃ e' : Element, Element.ofXml e.toXml = .ok e' ∧ e'.restyle id = e.restyle id ∧
      e'.Sparing .empty :=
  ofXml_toXml_sparing (h.writable rfl)

/-- A tree in which a prefix and the default namespace change their meaning on the way down. -/
def layered : Element where
  name := .prefixed "a" "urn:one" "root"
  attributes := [⟨.prefixed "b" "urn:two" "k", "1 < 2"⟩, ⟨.unqualified "k", "\"2\""⟩]
  text := some "one & all"
  declared := { bindings := [("b", "urn:two")], defaultUri := some "urn:three" }
  children :=
    [{ name := .prefixed "a" "urn:four" "inner"
       children := [{ name := ⟨some "urn:three", "leaf", none⟩ }] },
     { name := ⟨some "urn:four", "last", none⟩ }]

theorem proper_reread_layered :
    ∃ e' : Element, Element.ofXml layered.toXml = .ok e' ∧ e'.restyle id = layered.restyle id ∧
      e'.Sparing .empty := by
  refine proper_reread (.intro (by decide) ?_)
  simp only [layered, List.forall_mem_cons, List.not_mem_nil, false_imp_iff, implies_true, and_true]
  refine ⟨.intro (by decide) ?_, .intro (by decide) (by simp)⟩
  simp only [List.forall_mem_cons, List.not_mem_nil, false_imp_iff, implies_true, and_true]
  exact .intro (by decide) (by simp)

end Element

end DiscoveryMetadata.Xml
