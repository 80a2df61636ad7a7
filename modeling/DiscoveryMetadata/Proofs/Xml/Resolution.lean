import DiscoveryMetadata.Proofs.Xml.Written
/-
  What the names in a document mean.

  `Spelled` says which elements the events of a document make up, names as they are written: every
  tag can be taken apart, and tags match. `Bound` says what a prefix stands for inside a tag, given
  the tags that are open around it: what the innermost tag that declares it binds it to. Only the
  open tags count, so a declaration in an element that is closed is of no effect; and a tag counts
  as a whole, so it does not matter where in it a declaration stands. From these `Resolves` says
  which tree an element stands for, and `Unbound` that it uses a prefix that stands for nothing.

  A reader goes through the events once, with a scope for each open element. That a scope holds
  just the bindings of the tags around (`Agrees`) is kept from tag to tag (`Agrees.inner`), so by
  induction on the elements of a document they are resolved, or the first prefix that stands for
  nothing is refused (`reads_of_spelled`). What is accepted is spelled (`spelled_of_accepted`).

  Main statement: `names_by_nearest_declaration`.
-/
namespace DiscoveryMetadata.Xml

/-- An element of a document, with its names as they are written. -/
structure Outline where
  name : List Char
  attributes : List RawAttribute
  children : List Outline

/-- The events are those of the elements, one after the other, and of character data around them.
It is given whether they stand in an element: elsewhere no reference in character data is read. -/
inductive Spelled : Bool → List Outline → List Event → Prop
  | nil {inside : Bool} : Spelled inside [] []
  | text {inside : Bool} {raw : List Char} {ns : List Outline} {events : List Event}
      (hraw : inside = true → (Text.unescape raw).isSome) (rest : Spelled inside ns events) :
      Spelled inside ns (.text raw :: events)
  | verbatim {inside : Bool} {cs : List Char} {ns : List Outline} {events : List Event}
      (rest : Spelled inside ns events) : Spelled inside ns (.verbatim cs :: events)
  | empty {inside : Bool} {name attributes : List Char} {as : List RawAttribute}
      {ns : List Outline} {events : List Event} (hread : RawAttribute.read attributes = .ok as)
      (rest : Spelled inside ns events) :
      Spelled inside (⟨name, as, []⟩ :: ns) (.opening name attributes true :: events)
  | filled {inside : Bool} {name attributes : List Char} {as : List RawAttribute}
      {cs ns : List Outline} {content events : List Event}
      (hread : RawAttribute.read attributes = .ok as) (children : Spelled true cs content)
      (rest : Spelled inside ns events) :
      Spelled inside (⟨name, as, cs⟩ :: ns)
        (.opening name attributes false :: (content ++ .closing name :: events))

/-- What a prefix is bound to in the innermost of some tags that stand one in another, where none
stands for the default namespace. -/
inductive Bound : List (List RawAttribute) → Option String → String → Prop
  | reserved {path : List (List RawAttribute)} : Bound path (some "xml") xmlNamespace
  | here {tag : List RawAttribute} {path : List (List RawAttribute)} {a : RawAttribute}
      {p : Option String} (ha : a ∈ tag) (hd : a.declares? = some p) (hp : p ≠ some "xml") :
      Bound (tag :: path) p a.value
  | around {tag : List RawAttribute} {path : List (List RawAttribute)} {p : Option String}
      {u : String} (hd : ∀ a ∈ tag, a.declares? ≠ some p) (h : Bound path p u) :
      Bound (tag :: path) p u

/-- The written name begins with the prefix. -/
def HasPrefix (written : List Char) (p : String) : Prop :=
  ':' ∉ p.toList ∧ ∃ l, written = p.toList ++ ':' :: l

/-- What the written name of an element means. -/
inductive ElementNamed (path : List (List RawAttribute)) (written : List Char) : QName → Prop
  | prefixed {p u : String} {l : List Char} (hp : ':' ∉ p.toList)
      (hw : written = p.toList ++ ':' :: l) (hu : Bound path (some p) u) :
      ElementNamed path written (.prefixed p u (String.ofList l))
  | byDefault {u : String} (hw : ':' ∉ written) (hu : Bound path none u) :
      ElementNamed path written ⟨some u, String.ofList written, none⟩
  | unqualified (hw : ':' ∉ written) (hu : ∀ u, ¬Bound path none u) :
      ElementNamed path written ⟨none, String.ofList written, none⟩

/-- What the written name of an attribute means. -/
inductive AttributeNamed (path : List (List RawAttribute)) (written : List Char) : QName → Prop
  | prefixed {p u : String} {l : List Char} (hp : ':' ∉ p.toList)
      (hw : written = p.toList ++ ':' :: l) (hu : Bound path (some p) u) :
      AttributeNamed path written (.prefixed p u (String.ofList l))
  | unqualified (hw : ':' ∉ written) :
      AttributeNamed path written ⟨none, String.ofList written, none⟩

/-- The attribute has the value that was written, and a name that means what was written. -/
structure AttributeResolves (path : List (List RawAttribute)) (r : RawAttribute) (a : Attribute) :
    Prop where
  name : AttributeNamed path r.name.toList a.name
  value : a.value = r.value

/-- Inside the tags of `path`, the element with its written names stands for the tree: its names
and those of its attributes mean what they mean in its own tag, which counts as one around the
children. -/
inductive Outline.Resolves : List (List RawAttribute) → Outline → Element → Prop
  | intro {path : List (List RawAttribute)} {n : Outline} {e : Element}
      (name : ElementNamed (n.attributes :: path) n.name e.name)
      (attributes : List.Forall₂ (AttributeResolves (n.attributes :: path))
        (n.attributes.filter (·.declares?.isNone)) e.attributes)
      (count : n.children.length = e.children.length)
      (children : ∀ c f, (c, f) ∈ n.children.zip e.children →
        Outline.Resolves (n.attributes :: path) c f) : Outline.Resolves path n e

/-- The tag, which stands innermost, uses a prefix that stands for nothing. -/
inductive TagUnbound (path : List (List RawAttribute)) (name : List Char) (as : List RawAttribute)
    (p : String) : Prop
  | ofElement (hp : HasPrefix name p) (hu : ∀ u, ¬Bound path (some p) u)
  | ofAttribute {a : RawAttribute} (ha : a ∈ as) (hd : a.declares? = none)
      (hp : HasPrefix a.name.toList p) (hu : ∀ u, ¬Bound path (some p) u)

/-- Inside the tags of `path`, the element or one below it uses a prefix that stands for nothing. -/
inductive Outline.Unbound : List (List RawAttribute) → Outline → String → Prop
  | tag {path : List (List RawAttribute)} {n : Outline} {p : String}
      (h : TagUnbound (n.attributes :: path) n.name n.attributes p) : Outline.Unbound path n p
  | child {path : List (List RawAttribute)} {n c : Outline} {p : String} (hc : c ∈ n.children)
      (h : Outline.Unbound (n.attributes :: path) c p) : Outline.Unbound path n p

/-- What is said of a prefix that stands for nothing. -/
def unknownPrefix (p : String) : Fault := .xml ("Unknown prefix: " ++ p)

section Tags

variable {cs : List Char} {as : List RawAttribute} {a b : RawAttribute} {p q : Option String}

theorem RawAttribute.eq_raw (h : a.declares? = some p) : a = Declaration.raw ⟨p, a.value⟩ := by
  obtain ⟨name, value⟩ := a
  unfold declares? at h
  split at h
  case isTrue hname =>
    obtain rfl : none = p := Option.some.inj h
    rw [Declaration.raw, ← hname]
  case isFalse =>
    split at h
    case isTrue hhas =>
      obtain ⟨t, ht⟩ := List.isPrefixOf_iff_prefix.1 hhas
      obtain rfl := Option.some.inj h
      have hname : name = "xmlns:" ++ String.ofList (name.toList.drop 6) := by
        apply String.toList_inj.1
        rw [← ht]
        simp
      exact congrArg (RawAttribute.mk · value) hname
    case isFalse => cases h

/-- Attributes that declare the same have the same name. -/
theorem RawAttribute.name_eq (ha : a.declares? = some p) (hb : b.declares? = some p) :
    a.name = b.name := by
  rw [eq_raw ha, eq_raw hb]
  rfl

theorem RawAttribute.isKey_of_key? {name rest : List Char} (h : key? cs = some (name, rest))
    (hcs : ∀ c ∈ cs.head?, Text.isXmlSpace c = false) : IsKey name := by
  unfold key? at h
  split at h
  case h_1 => cases h
  case h_2 c r =>
    simp only at h
    split at h
    case h_1 =>
      obtain ⟨rfl, -⟩ := Prod.mk.inj (Option.some.inj h)
      refine ⟨by simp, by simpa using hcs, fun x hx => ?_⟩
      have hin := List.mem_takeWhile_imp (List.tail_cons ▸ hx)
      simpa using hin
    case h_2 => cases h

/-- A tag holds no attributes, or one whose name is new and those behind it. -/
theorem RawAttribute.readFrom_ok {seen : List (List Char)} (h : readFrom seen cs = .ok as) :
    as = [] ∨ ∃ name value rest others, IsKey name ∧ name ∉ seen ∧
      readFrom (name :: seen) rest = .ok others ∧
      as = ⟨String.ofList name, String.ofList value⟩ :: others := by
  rw [readFrom] at h
  split at h
  case h_1 => exact .inl (Except.ok.inj h).symm
  case h_2 c r hblank =>
    have hhead : ∀ x ∈ (c :: r).head?, Text.isXmlSpace x = false := by
      have hkept := List.head?_dropWhile_not Text.isXmlSpace cs
      rw [hblank] at hkept
      simpa using hkept
    split at h
    case h_1 => cases h
    case h_2 hkey =>
      split at h
      case isTrue => cases h
      case isFalse hseen =>
        split at h
        case h_1 => cases h
        case h_2 =>
          split at h
          case h_1 => cases h
          case h_2 value _ =>
            simp only [bind_ok, pure_ok] at h
            obtain ⟨others, hothers, rfl⟩ := h
            exact .inr ⟨_, value, _, others, isKey_of_key? hkey hhead, by simpa using hseen, hothers,
              rfl⟩

/-- No two attributes of a tag that can be taken apart have the same name. -/
theorem RawAttribute.readFrom_distinct {seen : List (List Char)} (h : readFrom seen cs = .ok as) :
    as.Pairwise (fun a b => a.name ≠ b.name) ∧ ∀ a ∈ as, a.name.toList ∉ seen := by
  induction as generalizing seen cs with
  | nil => exact ⟨.nil, by simp⟩
  | cons a as ih =>
    rcases readFrom_ok h with h | ⟨name, value, rest, others, -, hname, hothers, h⟩
    · cases h
    · obtain ⟨rfl, rfl⟩ := List.cons.inj h
      obtain ⟨hdistinct, hseen⟩ := ih hothers
      simp only [List.mem_cons, not_or] at hseen
      refine ⟨List.pairwise_cons.2 ⟨?_, hdistinct⟩, ?_⟩
      · intro b hb hn
        refine (hseen b hb).1 ?_
        rw [← hn, String.toList_ofList]
      · intro b hb
        rcases List.mem_cons.1 hb with rfl | hb
        · simpa using hname
        · exact (hseen b hb).2

/-- The names of all attributes that are read can be read again. -/
theorem RawAttribute.isKey_of_readFrom {seen : List (List Char)} (h : readFrom seen cs = .ok as) :
    ∀ a ∈ as, IsKey a.name.toList := by
  induction as generalizing seen cs with
  | nil => simp
  | cons a as ih =>
    rcases readFrom_ok h with h | ⟨name, value, rest, others, hkey, -, hothers, h⟩
    · cases h
    · obtain ⟨rfl, rfl⟩ := List.cons.inj h
      exact List.forall_mem_cons.2 ⟨by simpa using hkey, ih hothers⟩

end Tags

section Scopes

variable {s outer : Scope} {d : Declaration} {ds : List Declaration} {p : Option String}
  {u : String} {path : List (List RawAttribute)} {tag : List RawAttribute}

/-- What a scope binds a prefix to, where none stands for the default namespace. -/
def Scope.boundTo (s : Scope) : Option String → Option String
  | none => s.defaultUri
  | some p => s.lookup p

/-- The scope holds what the tags bind, and nothing else. -/
def Agrees (s : Scope) (path : List (List RawAttribute)) : Prop :=
  ∀ p u, s.boundTo p = some u ↔ Bound path p u

theorem Scope.boundTo_xml (s : Scope) : s.boundTo (some "xml") = some xmlNamespace := by
  simp [boundTo, lookup]

theorem Declaration.boundTo_extend (hp : p ≠ some "xml") : (d.extend s).boundTo p =
    if p = d.nsPrefix then some d.uri else s.boundTo p := by
  obtain ⟨q, w⟩ := d
  cases p with
  | none => cases q <;> simp [Scope.boundTo, extend, Scope.withDefault, Scope.bind]
  | some p =>
    have hp : p ≠ "xml" := fun h => hp (congrArg some h)
    cases q with
    | none => simp [Scope.boundTo, extend, Scope.withDefault, Scope.lookup, hp]
    | some q => simp [Scope.boundTo, extend, Scope.bind, Scope.lookup, hp, lookup_rebind]

/-- A declaration holds where its prefix stands for its namespace. -/
theorem Declaration.holdsIn_iff (hp : d.nsPrefix ≠ some "xml") :
    d.holdsIn s = true ↔ s.boundTo d.nsPrefix = some d.uri := by
  obtain ⟨q, w⟩ := d
  cases q with
  | none => simp [holdsIn, Scope.boundTo]
  | some q =>
    have hq : q ≠ "xml" := fun h => hp (congrArg some h)
    simp [holdsIn, Scope.boundTo, hq]

/-- Declarations leave a prefix alone that none of them is of. -/
theorem boundTo_extends (hp : p ≠ some "xml") (h : ∀ d ∈ ds, d.nsPrefix ≠ p) :
    (ds.foldl (fun s d => d.extend s) s).boundTo p = s.boundTo p := by
  induction ds generalizing s with
  | nil => rfl
  | cons d r ih =>
    obtain ⟨hd, hr⟩ := List.forall_mem_cons.1 h
    rw [List.foldl_cons, ih hr, Declaration.boundTo_extend hp, if_neg (Ne.symm hd)]

/-- Declarations of different prefixes all come to hold. -/
theorem boundTo_extends_mem (hp : d.nsPrefix ≠ some "xml")
    (hds : ds.Pairwise fun d d' => d.nsPrefix ≠ d'.nsPrefix) (hd : d ∈ ds) :
    (ds.foldl (fun s d => d.extend s) s).boundTo d.nsPrefix = some d.uri := by
  induction ds generalizing s with
  | nil => cases hd
  | cons d' r ih =>
    obtain ⟨hd', hr⟩ := List.pairwise_cons.1 hds
    rw [List.foldl_cons]
    rcases List.mem_cons.1 hd with rfl | hd
    · rw [boundTo_extends hp fun e he => (hd' e he).symm, Declaration.boundTo_extend hp, if_pos rfl]
    · exact ih hr hd

/-- The attribute as a declaration, if it is one. -/
def RawAttribute.declaration? (a : RawAttribute) : Option Declaration :=
  a.declares?.map (⟨·, a.value⟩)

theorem RawAttribute.mem_declarations {a : RawAttribute} (ha : a ∈ tag)
    (hd : a.declares? = some p) : ⟨p, a.value⟩ ∈ tag.filterMap declaration? := by
  refine List.mem_filterMap.2 ⟨a, ha, ?_⟩
  rw [declaration?, hd]
  rfl

theorem declared_eq (tag : List RawAttribute) : tag.foldl RawAttribute.declareIn .empty =
    declaredScope (tag.filterMap RawAttribute.declaration?) := by
  rw [declaredScope, List.foldl_filterMap]
  congr 1
  funext s a
  rw [RawAttribute.declareIn, RawAttribute.declaration?]
  cases a.declares? with
  | none => rfl
  | some p => cases p <;> rfl

theorem Bound.eq_of_xml (h : Bound path (some "xml") u) : u = xmlNamespace := by
  induction path with
  | nil =>
    cases h
    rfl
  | cons tag path ih =>
    cases h with
    | reserved => rfl
    | here _ _ hp => exact absurd rfl hp
    | around _ h => exact ih h

/-- The order in which attributes and declarations stand in a tag plays no role. -/
theorem Bound.perm {tag' : List RawAttribute} (ht : tag.Perm tag') (h : Bound (tag :: path) p u) :
    Bound (tag' :: path) p u := by
  cases h with
  | reserved => exact .reserved
  | here ha hd hp => exact .here (ht.mem_iff.1 ha) hd hp
  | around hd h => exact .around (fun a ha => hd a (ht.mem_iff.2 ha)) h

/-- A prefix that no open tag declares stands for nothing. -/
theorem not_bound (hp : p ≠ some "xml") (h : ∀ tag ∈ path, ∀ a ∈ tag, a.declares? ≠ some p) :
    ¬Bound path p u := by
  intro hu
  induction hu with
  | reserved => exact hp rfl
  | here ha hd _ => exact h _ List.mem_cons_self _ ha hd
  | around _ _ ih => exact ih hp fun tag htag => h tag (List.mem_cons_of_mem _ htag)

theorem agrees_empty : Agrees .empty [] := by
  intro p u
  constructor
  · intro h
    cases p with
    | none => cases h
    | some p =>
      simp only [Scope.boundTo, Scope.lookup] at h
      split at h
      case isTrue hp =>
        obtain rfl := Option.some.inj h
        rw [hp]
        exact .reserved
      case isFalse => cases h
  · intro h
    cases h
    exact Scope.boundTo_xml _

/-- Attributes of different names declare different prefixes. -/
theorem RawAttribute.declarations_distinct (htag : tag.Pairwise fun a b => a.name ≠ b.name) :
    (tag.filterMap declaration?).Pairwise fun d d' => d.nsPrefix ≠ d'.nsPrefix := by
  refine htag.filterMap _ ?_
  rintro a b hname d hd d' hd' heq
  obtain ⟨p, hp, rfl⟩ := Option.map_eq_some_iff.1 hd
  obtain ⟨q, hq, rfl⟩ := Option.map_eq_some_iff.1 hd'
  obtain rfl : p = q := heq
  exact hname (name_eq hp hq)

/-- What a tag declares holds inside it, and else what holds outside. -/
theorem Agrees.inner (h : Agrees outer path)
    (htag : tag.Pairwise fun a b => a.name ≠ b.name) :
    Agrees (outer.inner (tag.foldl RawAttribute.declareIn .empty)) (tag :: path) := by
  have hds := RawAttribute.declarations_distinct htag
  rw [declared_eq, inner_declared hds]
  intro p u
  -- the reserved prefix is bound everywhere, any other one by the tag if it is declared there
  by_cases hxml : p = some "xml"
  · subst hxml
    rw [Scope.boundTo_xml]
    constructor
    · intro hu
      obtain rfl := Option.some.inj hu
      exact .reserved
    · intro hu
      rw [hu.eq_of_xml]
  by_cases hdeclared : ∃ a ∈ tag, a.declares? = some p
  · obtain ⟨a, ha, hd⟩ := hdeclared
    have hbound := boundTo_extends_mem (s := outer) hxml hds (RawAttribute.mem_declarations ha hd)
    constructor
    · intro hu
      obtain rfl : a.value = u := Option.some.inj (hbound.symm.trans hu)
      exact .here ha hd hxml
    · intro hu
      cases hu with
      | reserved => exact absurd rfl hxml
      | around hnone _ => exact absurd hd (hnone a ha)
      | here hb hdb _ =>
        exact boundTo_extends_mem (d := ⟨p, _⟩) hxml hds (RawAttribute.mem_declarations hb hdb)
  · have hnone : ∀ a ∈ tag, a.declares? ≠ some p := fun a ha hd => hdeclared ⟨a, ha, hd⟩
    have hds : ∀ d ∈ tag.filterMap RawAttribute.declaration?, d.nsPrefix ≠ p := by
      intro d hd hp
      obtain ⟨a, ha, hd⟩ := List.mem_filterMap.1 hd
      obtain ⟨q, hq, rfl⟩ := Option.map_eq_some_iff.1 hd
      obtain rfl : q = p := hp
      exact hnone a ha hq
    rw [boundTo_extends hxml hds, h]
    constructor
    · exact .around hnone
    · intro hu
      cases hu with
      | reserved => exact absurd rfl hxml
      | here ha hd _ => exact absurd hd (hnone _ ha)
      | around _ hu => exact hu

end Scopes

section Names

variable {s : Scope} {path : List (List RawAttribute)} {cs a b : List Char} {p : String}

theorem splitAt?_some {m : Char} (h : splitAt? m cs = some (a, b)) : m ∉ a ∧ cs = a ++ m :: b := by
  induction cs generalizing a with
  | nil => cases h
  | cons c r ih =>
    rw [splitAt?] at h
    split at h
    case isTrue hc =>
      obtain ⟨rfl, rfl⟩ := Prod.mk.inj (Option.some.inj h)
      simp [hc]
    case isFalse hc =>
      obtain ⟨⟨x, y⟩, hx, hxy⟩ := Option.map_eq_some_iff.1 h
      obtain ⟨rfl, rfl⟩ := Prod.mk.inj hxy
      obtain ⟨hmem, hr⟩ := ih hx
      exact ⟨by simp [Ne.symm hc, hmem], by rw [hr]; rfl⟩

theorem notMem_of_splitAt? {m : Char} (h : splitAt? m cs = none) : m ∉ cs := by
  induction cs with
  | nil => simp
  | cons c r ih =>
    rw [splitAt?] at h
    split at h
    case isTrue => cases h
    case isFalse hc => simp [Ne.symm hc, ih (Option.map_eq_none_iff.1 h)]

/-- A written name has no colon, or the prefix before the first one. -/
theorem noColon_or_prefixed (cs : List Char) :
    (':' ∉ cs) ∨ ∃ p l, ':' ∉ String.toList p ∧ cs = p.toList ++ ':' :: l := by
  cases h : splitAt? ':' cs with
  | none => exact .inl (notMem_of_splitAt? h)
  | some x =>
    obtain ⟨hp, hcs⟩ := splitAt?_some h
    exact .inr ⟨String.ofList x.1, x.2, by simpa using hp, by simpa using hcs⟩

theorem HasPrefix.unique {p q : String} (hp : HasPrefix cs p) (hq : HasPrefix cs q) : p = q := by
  obtain ⟨hp, l, rfl⟩ := hp
  obtain ⟨hq, l', h⟩ := hq
  have hsplit := RawAttribute.splitAt?_append hq l'
  rw [← h, RawAttribute.splitAt?_append hp l] at hsplit
  exact String.toList_inj.1 (Prod.mk.inj (Option.some.inj hsplit)).1

/-- A name with a prefix takes the namespace that the prefix stands for. -/
theorem Scope.resolve_prefixed {unprefixed : Option String} {l : List Char}
    (hp : ':' ∉ p.toList) : s.resolve unprefixed (String.ofList (p.toList ++ ':' :: l)) =
      match s.boundTo (some p) with
      | none => .error (unknownPrefix p)
      | some u => .ok (.prefixed p u (String.ofList l)) := by
  simp only [resolve, String.toList_ofList, RawAttribute.splitAt?_append hp, String.ofList_toList]
  rfl

/-- A name is resolved, be it without a prefix or with one that stands for a namespace, or it is
refused for a prefix that stands for none. -/
theorem Agrees.resolve (h : Agrees s path) (unprefixed : Option String) (cs : List Char) :
    (∃ q, s.resolve unprefixed (String.ofList cs) = .ok q ∧
      (∀ p, HasPrefix cs p → ∃ u, Bound path (some p) u) ∧
      (':' ∉ cs ∧ q = ⟨unprefixed, String.ofList cs, none⟩ ∨
        ∃ p u l, ':' ∉ p.toList ∧ cs = p.toList ++ ':' :: l ∧ Bound path (some p) u ∧
          q = .prefixed p u (String.ofList l))) ∨
    ∃ p, s.resolve unprefixed (String.ofList cs) = .error (unknownPrefix p) ∧ HasPrefix cs p ∧
      ∀ u, ¬Bound path (some p) u := by
  rcases noColon_or_prefixed cs with hcs | ⟨p, l, hp, rfl⟩
  · refine .inl ⟨⟨unprefixed, String.ofList cs, none⟩, ?_, ?_, .inl ⟨hcs, rfl⟩⟩
    · rw [Scope.resolve, String.toList_ofList, splitAt?_none hcs]
    · rintro p ⟨-, l, rfl⟩
      simp at hcs
  · have hhas : HasPrefix (p.toList ++ ':' :: l) p := ⟨hp, l, rfl⟩
    cases hs : s.boundTo (some p) with
    | some u =>
      have hu := (h _ _).1 hs
      refine .inl ⟨.prefixed p u (String.ofList l), ?_, ?_, .inr ⟨p, u, l, hp, rfl, hu, rfl⟩⟩
      · rw [Scope.resolve_prefixed hp, hs]
      · intro q hq
        rw [hq.unique hhas]
        exact ⟨u, hu⟩
    | none =>
      refine .inr ⟨p, ?_, hhas, ?_⟩
      · rw [Scope.resolve_prefixed hp, hs]
      · intro u hu
        cases hs.symm.trans ((h _ _).2 hu)

theorem Agrees.resolveElement (h : Agrees s path) (name : List Char) :
    (∃ q, s.resolveElement (String.ofList name) = .ok q ∧
      (∀ p, HasPrefix name p → ∃ u, Bound path (some p) u) ∧ ElementNamed path name q) ∨
    ∃ p, s.resolveElement (String.ofList name) = .error (unknownPrefix p) ∧ HasPrefix name p ∧
      ∀ u, ¬Bound path (some p) u := by
  refine (h.resolve s.defaultUri name).imp_left ?_
  rintro ⟨q, hq, hbound, ⟨hname, rfl⟩ | ⟨p, u, l, hp, hw, hu, rfl⟩⟩
  · refine ⟨_, hq, hbound, ?_⟩
    have hdefault := h none
    simp only [Scope.boundTo] at hdefault
    cases hs : s.defaultUri with
    | some u => exact .byDefault hname ((hdefault u).1 hs)
    | none =>
      refine .unqualified hname fun u hu => ?_
      cases hs.symm.trans ((hdefault u).2 hu)
  · exact ⟨_, hq, hbound, .prefixed hp hw hu⟩

theorem Agrees.resolveAttribute (h : Agrees s path) (name : List Char) :
    (∃ q, s.resolveAttribute (String.ofList name) = .ok q ∧
      (∀ p, HasPrefix name p → ∃ u, Bound path (some p) u) ∧ AttributeNamed path name q) ∨
    ∃ p, s.resolveAttribute (String.ofList name) = .error (unknownPrefix p) ∧ HasPrefix name p ∧
      ∀ u, ¬Bound path (some p) u := by
  refine (h.resolve none name).imp_left ?_
  rintro ⟨q, hq, hbound, ⟨hname, rfl⟩ | ⟨p, u, l, hp, hw, hu, rfl⟩⟩
  · exact ⟨_, hq, hbound, .unqualified hname⟩
  · exact ⟨_, hq, hbound, .prefixed hp hw hu⟩

/-- The attributes of a tag are resolved one after the other, or the first prefix that stands for
nothing is refused. -/
theorem Agrees.resolveAttributes (h : Agrees s path) (as : List RawAttribute) :
    (∃ plain, (as.mapM fun a => do
        let n ← s.resolveAttribute a.name
        return (⟨n, a.value⟩ : Attribute)) = .ok plain ∧
      (∀ a ∈ as, ∀ p, HasPrefix a.name.toList p → ∃ u, Bound path (some p) u) ∧
      List.Forall₂ (AttributeResolves path) as plain) ∨
    ∃ p, (as.mapM fun a => do
        let n ← s.resolveAttribute a.name
        return (⟨n, a.value⟩ : Attribute)) = .error (unknownPrefix p) ∧
      ∃ a ∈ as, HasPrefix a.name.toList p ∧ ∀ u, ¬Bound path (some p) u := by
  induction as with
  | nil => exact .inl ⟨[], rfl, by simp, .nil⟩
  | cons a as ih =>
    have ha := h.resolveAttribute a.name.toList
    rw [String.ofList_toList] at ha
    rw [List.mapM_cons]
    rcases ha with ⟨q, hq, hbound, hnamed⟩ | ⟨p, hp, hhas, hnone⟩
    · rcases ih with ⟨plain, hplain, hall, hrest⟩ | ⟨p, hp, b, hb, hunbound⟩
      · refine .inl ⟨⟨q, a.value⟩ :: plain, ?_, List.forall_mem_cons.2 ⟨hbound, hall⟩,
          .cons ⟨hnamed, rfl⟩ hrest⟩
        rw [hq, hplain]
        rfl
      · refine .inr ⟨p, ?_, b, List.mem_cons_of_mem _ hb, hunbound⟩
        rw [hq, hp]
        rfl
    · refine .inr ⟨p, ?_, a, List.mem_cons_self, hhas, hnone⟩
      rw [hp]
      rfl

/-- A tag is resolved where it stands, or refused for one of its prefixes. -/
theorem Agrees.ofTag {outer : Scope} {name attributes : List Char} {as : List RawAttribute}
    (h : Agrees outer path) (hread : RawAttribute.read attributes = .ok as) :
    (∃ e scope, Element.ofTag outer name attributes = .ok (e, scope) ∧
      Agrees scope (as :: path) ∧ (∀ p, ¬TagUnbound (as :: path) name as p) ∧
      e.children = [] ∧ ElementNamed (as :: path) name e.name ∧
      List.Forall₂ (AttributeResolves (as :: path)) (as.filter (·.declares?.isNone))
        e.attributes) ∨
    ∃ p, Element.ofTag outer name attributes = .error (unknownPrefix p) ∧
      TagUnbound (as :: path) name as p := by
  have hinner := h.inner (RawAttribute.readFrom_distinct hread).1
  generalize hscope : outer.inner (as.foldl RawAttribute.declareIn .empty) = scope at hinner
  have hsteps : Element.ofTag outer name attributes = (do
      let q ← scope.resolveElement (String.ofList name)
      let plain ← (as.filter (·.declares?.isNone)).mapM fun a => do
        let n ← scope.resolveAttribute a.name
        return (⟨n, a.value⟩ : Attribute)
      return (⟨q, plain, none, [], as.foldl RawAttribute.declareIn .empty⟩, scope)) := by
    rw [Element.ofTag, hread, ← hscope]
    rfl
  have hmem : ∀ a, a ∈ as.filter (·.declares?.isNone) ↔ a ∈ as ∧ a.declares? = none := by
    intro a
    rw [List.mem_filter, Option.isNone_iff_eq_none]
  rw [hsteps]
  -- the name of the tag is resolved first, so that an unknown prefix in it is the one told of
  rcases hinner.resolveElement name with ⟨q, hq, hbound, hnamed⟩ | ⟨p, hp, hhas, hnone⟩
  · rcases hinner.resolveAttributes (as.filter (·.declares?.isNone)) with
      ⟨plain, hplain, hall, hattributes⟩ | ⟨p, hp, a, ha, hhas, hnone⟩
    · refine .inl ⟨⟨q, plain, none, [], as.foldl RawAttribute.declareIn .empty⟩, scope, ?_, hinner,
        ?_, rfl, hnamed, hattributes⟩
      · rw [hq, hplain]
        rfl
      · intro p hp
        cases hp with
        | ofElement hhas hnone =>
          obtain ⟨u, hu⟩ := hbound p hhas
          exact hnone u hu
        | ofAttribute ha hd hhas hnone =>
          obtain ⟨u, hu⟩ := hall _ ((hmem _).2 ⟨ha, hd⟩) p hhas
          exact hnone u hu
    · obtain ⟨ha, hd⟩ := (hmem a).1 ha
      refine .inr ⟨p, ?_, .ofAttribute ha hd hhas hnone⟩
      rw [hq, hp]
      rfl
  · refine .inr ⟨p, ?_, .ofElement hhas hnone⟩
    rw [hp]
    rfl

end Names

section Reading

open Reader

variable {path : List (List RawAttribute)} {stack stack' : List OpenElement}
  {root root' : Option Element} {e : Element} {es : List Element} {o : OpenElement}
  {os : List OpenElement}

/-- What taking up elements makes of the open elements and of the root found so far: the innermost
open element has them as further children, whatever its text has become, or the last of them is the
root. -/
inductive Takes : List OpenElement → Option Element → List Element → List OpenElement →
    Option Element → Prop
  | top {root : Option Element} {es : List Element} : Takes [] root es [] (es.getLast?.or root)
  | within {o o' : OpenElement} {os : List OpenElement} {root : Option Element}
      {es : List Element} (written : o'.written = o.written) (scope : o'.scope = o.scope)
      (name : o'.element.name = o.element.name)
      (attributes : o'.element.attributes = o.element.attributes)
      (children : o'.element.children = o.element.children ++ es) :
      Takes (o :: os) root es (o' :: os) root

theorem Takes.nil : Takes stack root [] stack root := by
  cases stack with
  | nil => exact .top
  | cons o os => exact .within rfl rfl rfl rfl (List.append_nil _).symm

/-- Elements that are taken up after one that is placed. -/
theorem Takes.cons (h : Takes (place e root stack).1 (place e root stack).2 es stack' root') :
    Takes stack root (e :: es) stack' root' := by
  cases stack with
  | nil =>
    cases h
    have htop : Takes [] root (e :: es) [] ((e :: es).getLast?.or root) := .top
    rwa [List.getLast?_cons, Option.some_or, ← Option.or_some] at htop
  | cons o os =>
    cases h with
    | within hwritten hscope hname hattributes hchildren =>
      refine .within hwritten hscope hname hattributes ?_
      rw [hchildren]
      exact List.append_assoc _ _ _

/-- Character data that is added to the innermost open element is no child of it. -/
theorem Takes.text {cs : List Char}
    (h : Takes ({ o with element := appendText cs o.element } :: os) root es stack' root') :
    Takes (o :: os) root es stack' root' := by
  have hrest : (appendText cs o.element).name = o.element.name ∧
      (appendText cs o.element).attributes = o.element.attributes ∧
      (appendText cs o.element).children = o.element.children := by
    unfold appendText
    split <;> exact ⟨rfl, rfl, rfl⟩
  obtain ⟨hname, hattributes, hchildren⟩ := hrest
  cases h with
  | within hwritten hscope hname' hattributes' hchildren' =>
    exact .within hwritten hscope (hname'.trans hname) (hattributes'.trans hattributes)
      (hchildren'.trans (congrArg (· ++ es) hchildren))

theorem scopeOf_place : scopeOf (place e root stack).1 = scopeOf stack := by
  cases stack <;> rfl

theorem isEmpty_place : (place e root stack).1.isEmpty = stack.isEmpty := by
  cases stack <;> rfl

variable {inside : Bool} {ns : List Outline} {events rest : List Event}

/-- Reading on ends in one of two ways: the elements are resolved and taken up, or a prefix that
stands for nothing is refused. -/
def Reads (path : List (List RawAttribute)) (ns : List Outline) (events : List Event)
    (stack : List OpenElement) (root : Option Element) (rest : List Event) : Prop :=
  (∃ es stack' root', List.Forall₂ (Outline.Resolves path) ns es ∧
    (∀ n ∈ ns, ∀ p, ¬n.Unbound path p) ∧ Takes stack root es stack' root' ∧
    run stack root (events ++ rest) = run stack' root' rest) ∨
  ∃ p, run stack root (events ++ rest) = .error (unknownPrefix p) ∧ ∃ n ∈ ns, n.Unbound path p

/-- An element is resolved and placed, or refused; and then those behind it are read. -/
theorem Reads.cons {n : Outline} {first : List Event}
    (hn : ∀ rest, (∃ e, n.Resolves path e ∧ (∀ p, ¬n.Unbound path p) ∧
        run stack root (first ++ rest) =
          run (place e root stack).1 (place e root stack).2 rest) ∨
      ∃ p, run stack root (first ++ rest) = .error (unknownPrefix p) ∧ n.Unbound path p)
    (hns : ∀ e, Reads path ns events (place e root stack).1 (place e root stack).2 rest) :
    Reads path (n :: ns) (first ++ events) stack root rest := by
  unfold Reads
  rw [List.append_assoc]
  rcases hn (events ++ rest) with ⟨e, hresolves, hbound, hrun⟩ | ⟨p, hrun, hunbound⟩
  · rw [hrun]
    rcases hns e with ⟨es, stack', root', hes, hall, htakes, hrest⟩ | ⟨p, hrest, m, hm, hunbound⟩
    · exact .inl ⟨e :: es, stack', root', .cons hresolves hes,
        List.forall_mem_cons.2 ⟨hbound, hall⟩, htakes.cons, hrest⟩
    · exact .inr ⟨p, hrest, m, List.mem_cons_of_mem _ hm, hunbound⟩
  · exact .inr ⟨p, hrun, n, List.mem_cons_self, hunbound⟩

/-- Character data in an element is added to its text, and then what is behind it is read. -/
theorem Reads.text {first : Event} {cs : List Char}
    (hrun : ∀ r, run (o :: os) root (first :: r) =
      run ({ o with element := appendText cs o.element } :: os) root r)
    (h : Reads path ns events ({ o with element := appendText cs o.element } :: os) root rest) :
    Reads path ns (first :: events) (o :: os) root rest := by
  unfold Reads
  rw [List.cons_append, hrun]
  refine h.imp_left ?_
  rintro ⟨es, stack', root', hes, hall, htakes, hrest⟩
  exact ⟨es, stack', root', hes, hall, htakes.text, hrest⟩

theorem run_refused {name attributes : List Char} {closed : Bool} {f : Fault}
    (h : Element.ofTag (scopeOf stack) name attributes = .error f) :
    run stack root (.opening name attributes closed :: events) = .error f := by
  cases stack <;> simp only [scopeOf] at h <;> simp only [run, h] <;> rfl

variable {name attributes : List Char} {as : List RawAttribute}

theorem Outline.not_unbound {cs : List Outline} {p : String}
    (htag : ¬TagUnbound (as :: path) name as p)
    (hcs : ∀ c ∈ cs, ¬c.Unbound (as :: path) p) : ¬Outline.Unbound path ⟨name, as, cs⟩ p := by
  intro h
  cases h with
  | tag h => exact htag h
  | child hc h => exact hcs _ hc h

/-- An element that is one empty tag. -/
theorem run_empty (hagrees : Agrees (scopeOf stack) path)
    (hread : RawAttribute.read attributes = .ok as) (rest : List Event) :
    (∃ e, Outline.Resolves path ⟨name, as, []⟩ e ∧
      (∀ p, ¬Outline.Unbound path ⟨name, as, []⟩ p) ∧
      run stack root (.opening name attributes true :: rest) =
        run (place e root stack).1 (place e root stack).2 rest) ∨
    ∃ p, run stack root (.opening name attributes true :: rest) = .error (unknownPrefix p) ∧
      Outline.Unbound path ⟨name, as, []⟩ p := by
  rcases hagrees.ofTag hread with
    ⟨e, scope, htag, -, hbound, hchildren, hname, hattributes⟩ | ⟨p, htag, hunbound⟩
  · refine .inl ⟨e, ?_, fun p => Outline.not_unbound (hbound p) (by simp), run_closed htag⟩
    exact .intro hname hattributes (congrArg List.length hchildren.symm) (by simp)
  · exact .inr ⟨p, run_refused htag, .tag hunbound⟩

/-- An element with an opening and a closing tag, where it is known how its content is read. -/
theorem run_filled {cs : List Outline} {content : List Event}
    (hagrees : Agrees (scopeOf stack) path) (hread : RawAttribute.read attributes = .ok as)
    (hcontent : ∀ o, Agrees o.scope (as :: path) → ∀ rest,
      Reads (as :: path) cs content (o :: stack) root rest) (rest : List Event) :
    (∃ e, Outline.Resolves path ⟨name, as, cs⟩ e ∧
      (∀ p, ¬Outline.Unbound path ⟨name, as, cs⟩ p) ∧
      run stack root (.opening name attributes false :: (content ++ [.closing name]) ++ rest) =
        run (place e root stack).1 (place e root stack).2 rest) ∨
    ∃ p, run stack root (.opening name attributes false :: (content ++ [.closing name]) ++ rest) =
        .error (unknownPrefix p) ∧ Outline.Unbound path ⟨name, as, cs⟩ p := by
  have hevents : Event.opening name attributes false :: (content ++ [.closing name]) ++ rest =
      .opening name attributes false :: (content ++ .closing name :: rest) := by simp
  rw [hevents]
  rcases hagrees.ofTag hread with
    ⟨e, scope, htag, hscope, hbound, hchildren, hname, hattributes⟩ | ⟨p, htag, hunbound⟩
  · rw [run_open htag]
    rcases hcontent ⟨e, name, scope⟩ hscope (.closing name :: rest) with
      ⟨es, stack', root', hes, hall, htakes, hrun⟩ | ⟨p, hrun, c, hc, hunbound⟩
    · rw [hrun]
      cases htakes with
      | @within _ o' _ _ _ hwritten' hscope' hname' hattributes' hchildren' =>
        obtain ⟨hcount, hzip⟩ := List.forall₂_iff_zip.1 hes
        refine .inl ⟨o'.element, ?_, ?_, ?_⟩
        · rw [hchildren, List.nil_append] at hchildren'
          refine .intro (by rwa [hname']) (by rwa [hattributes']) (by rwa [hchildren']) ?_
          rw [hchildren']
          exact fun c f hcf => hzip hcf
        · exact fun p => Outline.not_unbound (hbound p) fun c hc => hall c hc p
        · obtain rfl : o'.written = name := hwritten'
          exact run_closing
    · exact .inr ⟨p, hrun, .child hc hunbound⟩
  · exact .inr ⟨p, run_refused htag, .tag hunbound⟩

/-- What the events spell is read so, whatever stands behind them. -/
theorem reads_of_spelled (h : Spelled inside ns events) (hinside : stack.isEmpty = !inside)
    (hagrees : Agrees (scopeOf stack) path) : Reads path ns events stack root rest := by
  induction h generalizing stack root path rest with
  | nil => exact .inl ⟨[], stack, root, .nil, by simp, .nil, rfl⟩
  | @text inside raw ns events hraw r ih =>
    cases stack with
    | nil => exact ih hinside hagrees
    | cons o os =>
      obtain rfl : inside = true := by simpa using hinside
      obtain ⟨cs, hcs⟩ := Option.isSome_iff_exists.1 (hraw rfl)
      exact .text (fun r => run_text hcs) (ih rfl hagrees)
  | @verbatim inside cs ns events r ih =>
    cases stack with
    | nil => exact ih hinside hagrees
    | cons o os => exact .text (fun r => by rw [run]) (ih hinside hagrees)
  | @empty inside name attributes as ns events hread r ih =>
    have happend : Event.opening name attributes true :: events =
      [.opening name attributes true] ++ events := rfl
    rw [happend]
    refine Reads.cons (run_empty hagrees hread) ?_
    intro e
    exact ih (by rw [isEmpty_place, hinside]) (by rwa [scopeOf_place])
  | @filled inside name attributes as cs ns content events hread children r ihc ih =>
    have hassoc : Event.opening name attributes false :: (content ++ .closing name :: events) =
      (.opening name attributes false :: (content ++ [.closing name])) ++ events := by simp
    rw [hassoc]
    -- inside the element the way down is longer by its tag, and behind it as before
    refine Reads.cons (run_filled hagrees hread fun o ho rest => ihc rfl ho) ?_
    intro e
    exact ih (by rw [isEmpty_place, hinside]) (by rwa [scopeOf_place])

theorem run_opening_ok {closed : Bool} {r : Option Element}
    (h : run stack root (.opening name attributes closed :: events) = .ok r) :
    ∃ as e scope, RawAttribute.read attributes = .ok as ∧
      Element.ofTag (scopeOf stack) name attributes = .ok (e, scope) := by
  cases htag : Element.ofTag (scopeOf stack) name attributes with
  | error f => cases (run_refused htag).symm.trans h
  | ok x =>
    have hread := htag
    simp only [Element.ofTag, bind_ok] at hread
    obtain ⟨as, has, -⟩ := hread
    exact ⟨as, x.1, x.2, has, rfl⟩

/-- What is accepted inside an open element spells some elements, up to the tag that closes the
open one, and what is behind is accepted with that placed. -/
theorem spelled_of_run (events : List Event) {o : OpenElement} {os : List OpenElement}
    {root r : Option Element} (h : run (o :: os) root events = .ok r) :
    ∃ ns content rest e, events = content ++ .closing o.written :: rest ∧
      Spelled true ns content ∧ run (place e root os).1 (place e root os).2 rest = .ok r := by
  match events with
  | [] => cases h
  | .malformed :: events => cases h
  | .opening name attributes true :: events =>
    obtain ⟨as, e, scope, hread, htag⟩ := run_opening_ok h
    rw [run_closed htag] at h
    obtain ⟨ns, content, rest, e', rfl, hspelled, hrest⟩ := spelled_of_run events h
    exact ⟨_, _, rest, e', rfl, .empty hread hspelled, hrest⟩
  | .opening name attributes false :: events =>
    obtain ⟨as, e, scope, hread, htag⟩ := run_opening_ok h
    rw [run_open htag] at h
    -- once for what is inside, up to the closing tag, and once for what stands behind that
    obtain ⟨cs, inner, behind, e', rfl, hinner, hbehind⟩ := spelled_of_run events h
    obtain ⟨ns, content, rest, e'', rfl, hspelled, hrest⟩ := spelled_of_run behind hbehind
    have hfilled : Spelled true (⟨name, as, cs⟩ :: ns)
        (.opening name attributes false :: (inner ++ .closing name :: content)) :=
      .filled hread hinner hspelled
    refine ⟨_, _, rest, e'', ?_, hfilled, hrest⟩
    simp
  | .closing name :: events =>
    rw [run] at h
    split at h
    case isTrue hwritten => exact ⟨[], [], events, o.element, by rw [hwritten]; rfl, .nil, h⟩
    case isFalse => cases h
  | .text raw :: events =>
    rw [run] at h
    split at h
    case h_1 => cases h
    case h_2 cs hcs =>
      obtain ⟨ns, content, rest, e', rfl, hspelled, hrest⟩ := spelled_of_run events h
      exact ⟨ns, _, rest, e', rfl, .text (fun _ => Option.isSome_of_mem hcs) hspelled, hrest⟩
  | .verbatim cs :: events =>
    rw [run] at h
    obtain ⟨ns, content, rest, e', rfl, hspelled, hrest⟩ := spelled_of_run events h
    exact ⟨ns, _, rest, e', rfl, .verbatim hspelled, hrest⟩
termination_by events.length

/-- What is accepted as a document spells some elements. -/
theorem spelled_of_accepted (events : List Event) {root r : Option Element}
    (h : run [] root events = .ok r) : ∃ ns, Spelled false ns events := by
  match events with
  | [] => exact ⟨[], .nil⟩
  | .malformed :: events => cases h
  | .opening name attributes true :: events =>
    obtain ⟨as, e, scope, hread, htag⟩ := run_opening_ok h
    rw [run_closed htag] at h
    obtain ⟨ns, hspelled⟩ := spelled_of_accepted events h
    exact ⟨_, .empty hread hspelled⟩
  | .opening name attributes false :: events =>
    obtain ⟨as, e, scope, hread, htag⟩ := run_opening_ok h
    rw [run_open htag] at h
    obtain ⟨cs, inner, behind, e', rfl, hinner, hbehind⟩ := spelled_of_run events h
    obtain ⟨ns, hspelled⟩ := spelled_of_accepted behind hbehind
    exact ⟨_, .filled hread hinner hspelled⟩
  | .closing name :: events => cases h
  | .text raw :: events =>
    obtain ⟨ns, hspelled⟩ := spelled_of_accepted events h
    exact ⟨ns, .text nofun hspelled⟩
  | .verbatim cs :: events =>
    obtain ⟨ns, hspelled⟩ := spelled_of_accepted events h
    exact ⟨ns, .verbatim hspelled⟩
termination_by events.length

end Reading

/-- A document of which all tokens are well formed and match is accepted with all names resolved,
or rejected for a prefix that stands for nothing. -/
theorem readDocument_spelled {xml : String} {ns : List Outline}
    (h : Spelled false ns (Event.ofDocument xml)) :
    (∃ es, readDocument xml = .ok es.getLast? ∧ List.Forall₂ (Outline.Resolves []) ns es ∧
      ∀ n ∈ ns, ∀ p, ¬n.Unbound [] p) ∨
    ∃ p, readDocument xml = .error (unknownPrefix p) ∧ ∃ n ∈ ns, n.Unbound [] p := by
  have hreads : Reads [] ns (Event.ofDocument xml) [] none [] := reads_of_spelled h rfl agrees_empty
  unfold Reads at hreads
  rw [List.append_nil] at hreads
  refine hreads.imp_left ?_
  rintro ⟨es, stack', root', hes, hall, htakes, hrun⟩
  cases htakes
  refine ⟨es, ?_, hes, hall⟩
  rw [Option.or_none] at hrun
  exact hrun

theorem unknownPrefix_inj {p q : String} (h : unknownPrefix p = unknownPrefix q) : p = q := by
  simpa [unknownPrefix] using h

/-- In a document that is accepted, each name at any depth means what the nearest declaration of its
prefix says, on the element itself or on one around it. A document of which all tokens are well
formed and match is rejected for an unknown prefix just if some prefix that is used has no such
declaration; the prefix that is named is one. -/
theorem names_by_nearest_declaration (xml : String) :
    (∀ e, readDocument xml = .ok (some e) → (∃ ns, Spelled false ns (Event.ofDocument xml)) ∧
      ∀ ns, Spelled false ns (Event.ofDocument xml) →
        ∃ n, ns.getLast? = some n ∧ n.Resolves [] e) ∧
    ∀ ns, Spelled false ns (Event.ofDocument xml) →
      ((∃ p, readDocument xml = .error (unknownPrefix p)) ↔ ∃ n ∈ ns, ∃ p, n.Unbound [] p) ∧
      ∀ p, readDocument xml = .error (unknownPrefix p) → ∃ n ∈ ns, n.Unbound [] p := by
  refine ⟨?accepted, ?rejected⟩
  case accepted =>
    intro e he
    refine ⟨spelled_of_accepted _ he, fun ns hns => ?_⟩
    rcases readDocument_spelled hns with ⟨es, hes, hresolves, -⟩ | ⟨p, hp, -⟩
    · -- the root is the last of the elements that stand in none
      have hlast : es.reverse.head? = some e := by
        rw [List.head?_reverse]
        exact Except.ok.inj (hes.symm.trans he)
      obtain ⟨r, hr⟩ := List.head?_eq_some_iff.1 hlast
      have hreverse := List.forall₂_reverse_iff.2 hresolves
      rw [hr] at hreverse
      obtain ⟨n, ns', hn, -, hns'⟩ := List.forall₂_cons_right_iff.1 hreverse
      refine ⟨n, ?_, hn⟩
      rw [← List.head?_reverse, hns']
      rfl
    · cases hp.symm.trans he
  case rejected =>
    intro ns hns
    have hnamed : ∀ p, readDocument xml = .error (unknownPrefix p) → ∃ n ∈ ns, n.Unbound [] p := by
      intro p hp
      rcases readDocument_spelled hns with ⟨es, hes, -⟩ | ⟨q, hq, hunbound⟩
      · cases hes.symm.trans hp
      · rwa [unknownPrefix_inj (Except.error.inj (hp.symm.trans hq))]
    refine ⟨⟨?_, ?_⟩, hnamed⟩
    · rintro ⟨p, hp⟩
      obtain ⟨n, hn, hunbound⟩ := hnamed p hp
      exact ⟨n, hn, p, hunbound⟩
    -- the document is read or refused, and it is not read with a prefix that stands for nothing
    · rintro ⟨n, hn, p, hunbound⟩
      rcases readDocument_spelled hns with ⟨es, -, -, hall⟩ | ⟨q, hq, -⟩
      · exact absurd hunbound (hall n hn p)
      · exact ⟨q, hq⟩

/-- A document that declares prefixes behind their uses in a tag, and another namespace for one of
them in a child. -/
def shadowed : String :=
  "<a:r b:k='1' xmlns:b='urn:b' xmlns:a='urn:a'>" ++
    "<c a:k='2' xmlns:a='urn:e' xmlns='urn:d'/><a:s k='3'/></a:r>"

/-- A document that uses a prefix behind the element that declares it. -/
def leaking : String := "<r><s xmlns:p='urn:p'/><p:t/></r>"

theorem names_by_nearest_declaration_shadowed :
    (∃ e ns n, readDocument shadowed = .ok (some e) ∧
      Spelled false ns (Event.ofDocument shadowed) ∧ ns.getLast? = some n ∧ n.Resolves [] e ∧
      (e :: e.children).map (fun f => (f.name.uri, f.attributes.map (·.name.uri))) =
        [(some "urn:a", [some "urn:b"]), (some "urn:d", [some "urn:e"]),
          (some "urn:a", [none])]) ∧
    ∃ ns n, Spelled false ns (Event.ofDocument leaking) ∧ n ∈ ns ∧ n.Unbound [] "p" ∧
      ∃ p, readDocument leaking = .error (unknownPrefix p) := by
  constructor
  · have hread : ((readDocument shadowed).toOption.bind id).map (fun e =>
        (e :: e.children).map (fun f => (f.name.uri, f.attributes.map (·.name.uri)))) =
        some [(some "urn:a", [some "urn:b"]), (some "urn:d", [some "urn:e"]),
          (some "urn:a", [none])] := by decide +kernel
    obtain ⟨e, he, hnames⟩ := Option.map_eq_some_iff.1 hread
    obtain ⟨o, ho, rfl⟩ := Option.bind_eq_some_iff.1 he
    have he := toOption_ok.1 ho
    obtain ⟨⟨ns, hns⟩, hresolves⟩ := (names_by_nearest_declaration shadowed).1 e he
    obtain ⟨n, hn, hne⟩ := hresolves ns hns
    exact ⟨e, ns, n, he, hns, hn, hne, hnames⟩
  · have hevents : Event.ofDocument leaking =
        [.opening ['r'] [] false, .opening ['s'] " xmlns:p='urn:p'".toList true,
          .opening ['p', ':', 't'] [] true, .closing ['r']] := by decide +kernel
    have hdeclaring : RawAttribute.read " xmlns:p='urn:p'".toList =
        .ok [⟨"xmlns:p", "urn:p"⟩] := toOption_ok.1 (by decide +kernel)
    have hnone : RawAttribute.read [] = .ok [] := toOption_ok.1 (by decide +kernel)
    have hspelled : Spelled false [⟨['r'], [], [⟨['s'], [⟨"xmlns:p", "urn:p"⟩], []⟩,
        ⟨['p', ':', 't'], [], []⟩]⟩] (Event.ofDocument leaking) := by
      rw [hevents]
      exact .filled hnone (.empty hdeclaring (.empty hnone .nil)) .nil
    have hunbound : ∀ u, ¬Bound [[], []] (some "p") u := fun u =>
      not_bound (by decide) (by simp)
    have hp : HasPrefix ['p', ':', 't'] "p" := ⟨by decide, ['t'], by decide⟩
    have hn : Outline.Unbound [] ⟨['r'], [], [⟨['s'], [⟨"xmlns:p", "urn:p"⟩], []⟩,
        ⟨['p', ':', 't'], [], []⟩]⟩ "p" :=
      .child (List.mem_cons_of_mem _ List.mem_cons_self) (.tag (.ofElement hp hunbound))
    refine ⟨_, _, hspelled, List.mem_cons_self, hn, ?_⟩
    obtain ⟨hrejected, -⟩ := (names_by_nearest_declaration leaking).2 _ hspelled
    exact hrejected.2 ⟨_, List.mem_cons_self, "p", hn⟩

end DiscoveryMetadata.Xml
