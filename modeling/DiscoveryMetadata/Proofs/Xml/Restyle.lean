import DiscoveryMetadata.Component.Checks
/-
  Elements that differ in their prefixes and declarations only.

  `Element.restyle` changes all prefixes of an element by a function and drops the declarations.
  Two elements that agree after that have the same contents: looking for an attribute, a text or
  children of a name finds the same in both, since names are compared without their prefixes.
-/
namespace DiscoveryMetadata.Xml

variable (p : Option String → Option String)

/-- The name with its prefix changed. -/
def QName.restyle (q : QName) : QName := { q with nsPrefix := p q.nsPrefix }

/-- The attribute with its prefix changed. -/
def Attribute.restyle (a : Attribute) : Attribute := { a with name := a.name.restyle p }

mutual
/-- The element with all prefixes changed and without its declarations. -/
def Element.restyle : Element → Element
  | ⟨name, attributes, text, children, _⟩ =>
    ⟨name.restyle p, attributes.map (·.restyle p), text, restyleAll children, {}⟩

/-- The elements with all prefixes changed and without their declarations. -/
def restyleAll : List Element → List Element
  | [] => []
  | e :: r => e.restyle :: restyleAll r
end

theorem restyleAll_eq (es : List Element) : restyleAll p es = es.map (·.restyle p) := by
  induction es with
  | nil => rfl
  | cons e r ih => rw [restyleAll, ih, List.map_cons]

section Names

variable (q : QName) (u l : String)

@[simp]
theorem QName.uri_restyle : (q.restyle p).uri = q.uri := rfl

@[simp]
theorem QName.localName_restyle : (q.restyle p).localName = q.localName := rfl

@[simp]
theorem QName.isNamed_restyle : (q.restyle p).isNamed u l = q.isNamed u l := rfl

@[simp]
theorem Attribute.name_restyle (a : Attribute) : (a.restyle p).name = a.name.restyle p := rfl

@[simp]
theorem Attribute.value_restyle (a : Attribute) : (a.restyle p).value = a.value := rfl

end Names

namespace Element

variable (e : Element) (u l : String)

theorem restyle_eq : e.restyle p =
    ⟨e.name.restyle p, e.attributes.map (·.restyle p), e.text, e.children.map (·.restyle p), {}⟩ := by
  obtain ⟨name, attributes, text, children, declared⟩ := e
  rw [restyle, restyleAll_eq]

@[simp]
theorem name_restyle : (e.restyle p).name = e.name.restyle p := by rw [restyle_eq]

@[simp]
theorem attributes_restyle : (e.restyle p).attributes = e.attributes.map (·.restyle p) := by
  rw [restyle_eq]

@[simp]
theorem text_restyle : (e.restyle p).text = e.text := by rw [restyle_eq]

@[simp]
theorem children_restyle : (e.restyle p).children = e.children.map (·.restyle p) := by
  rw [restyle_eq]

@[simp]
theorem localName_restyle : (e.restyle p).localName = e.localName := by simp [localName]

@[simp]
theorem uri_restyle : (e.restyle p).uri = e.uri := by simp [uri]

@[simp]
theorem content_restyle : (e.restyle p).content = e.content := by simp [content]

@[simp]
theorem attribute?_restyle (u : Option String) : (e.restyle p).attribute? u l = e.attribute? u l := by
  rw [attribute?, attributes_restyle, List.find?_map, Option.map_map]
  rfl

@[simp]
theorem attributeText_restyle : (e.restyle p).attributeText u l = e.attributeText u l := by
  simp [attributeText]

@[simp]
theorem childrenNamed_restyle :
    (e.restyle p).childrenNamed u l = (e.childrenNamed u l).map (·.restyle p) := by
  rw [childrenNamed, children_restyle, List.filter_map, childrenNamed]
  congr 2
  funext c
  simp

@[simp]
theorem child?_restyle : (e.restyle p).child? u l = (e.child? u l).map (·.restyle p) := by
  rw [child?, children_restyle, List.find?_map, child?]
  congr 2
  funext c
  simp

@[simp]
theorem childTexts_restyle : (e.restyle p).childTexts u l = e.childTexts u l := by
  simp [childTexts]

@[simp]
theorem own_restyle : (e.restyle p).own l = e.own l := by simp [own]

@[simp]
theorem ownChildren_restyle :
    (e.restyle p).ownChildren l = (e.ownChildren l).map (·.restyle p) := by
  simp [ownChildren]

@[simp]
theorem ownChild?_restyle : (e.restyle p).ownChild? l = (e.ownChild? l).map (·.restyle p) := by
  simp [ownChild?]

@[simp]
theorem ownText_restyle : (e.restyle p).ownText l = e.ownText l := by
  simp [ownText, Function.comp_def]

@[simp]
theorem holder?_restyle (v : Version) :
    (e.restyle p).holder? v l = (e.holder? v l).map (·.restyle p) := by
  unfold holder? wrapper?
  split
  · rfl
  · exact ownChild?_restyle p e l

section Agreement

variable {p} {e e' : Element} (h : e.restyle p = e'.restyle p)
include h

/-- What can be said of an element whatever its prefixes is the same of both. -/
theorem congr_of_restyle {β : Type} {f : Element → β} (hf : ∀ e : Element, f (e.restyle p) = f e) :
    f e = f e' := by
  rw [← hf e, h, hf e']

theorem localName_congr : e.localName = e'.localName := congr_of_restyle h (localName_restyle p)

theorem uri_congr : e.uri = e'.uri := congr_of_restyle h (uri_restyle p)

theorem content_congr : e.content = e'.content := congr_of_restyle h (content_restyle p)

theorem attribute?_congr : e.attribute? = e'.attribute? :=
  congr_of_restyle h fun e => funext fun u => funext fun l => attribute?_restyle p e l u

theorem attributeText_congr : e.attributeText = e'.attributeText :=
  congr_of_restyle h fun e => funext fun u => funext fun l => attributeText_restyle p e u l

theorem own_congr : e.own = e'.own :=
  congr_of_restyle h fun e => funext fun l => own_restyle p e l

theorem ownText_congr : e.ownText = e'.ownText :=
  congr_of_restyle h fun e => funext fun l => ownText_restyle p e l

theorem childTexts_congr : e.childTexts = e'.childTexts :=
  congr_of_restyle h fun e => funext fun u => funext fun l => childTexts_restyle p e u l

theorem children_congr : e.children.map (·.restyle p) = e'.children.map (·.restyle p) := by
  rw [← children_restyle, h, children_restyle]

/-- Neither has children, or the first children of both agree. -/
theorem firstChild_congr : (e.children = [] ∧ e'.children = []) ∨
    ∃ c r c' r', e.children = c :: r ∧ e'.children = c' :: r' ∧ c.restyle p = c'.restyle p := by
  have hc := children_congr h
  cases he : e.children with
  | nil =>
    rw [he] at hc
    exact .inl ⟨rfl, List.map_eq_nil_iff.1 hc.symm⟩
  | cons c r =>
    rw [he] at hc
    obtain ⟨c', r', he', hc', -⟩ := List.map_eq_cons_iff.1 hc.symm
    exact .inr ⟨c, r, c', r', rfl, he', hc'.symm⟩

theorem childrenNamed_congr (u l : String) :
    (e.childrenNamed u l).map (·.restyle p) = (e'.childrenNamed u l).map (·.restyle p) := by
  rw [← childrenNamed_restyle, h, childrenNamed_restyle]

theorem child?_congr (u l : String) :
    (e.child? u l).map (·.restyle p) = (e'.child? u l).map (·.restyle p) := by
  rw [← child?_restyle, h, child?_restyle]

theorem ownChildren_congr (l : String) :
    (e.ownChildren l).map (·.restyle p) = (e'.ownChildren l).map (·.restyle p) := by
  rw [← ownChildren_restyle, h, ownChildren_restyle]

theorem ownChild?_congr (l : String) :
    (e.ownChild? l).map (·.restyle p) = (e'.ownChild? l).map (·.restyle p) := by
  rw [← ownChild?_restyle, h, ownChild?_restyle]

theorem holder?_congr (v : Version) (l : String) :
    (e.holder? v l).map (·.restyle p) = (e'.holder? v l).map (·.restyle p) := by
  rw [← holder?_restyle, h, holder?_restyle]

/-- Neither has an element that holds the content, or those of both agree. -/
theorem holder?_cases (v : Version) (l : String) :
    (e.holder? v l = none ∧ e'.holder? v l = none) ∨
      ∃ c c', e.holder? v l = some c ∧ e'.holder? v l = some c' ∧ c.restyle p = c'.restyle p := by
  have hc := holder?_congr h v l
  cases he : e.holder? v l with
  | none =>
    rw [he] at hc
    exact .inl ⟨rfl, Option.map_eq_none_iff.1 hc.symm⟩
  | some c =>
    rw [he] at hc
    obtain ⟨c', he', hc'⟩ := Option.map_eq_some_iff.1 hc.symm
    exact .inr ⟨c, c', rfl, he', hc'.symm⟩

theorem holder?_getD_congr (v : Version) (l : String) :
    ((e.holder? v l).getD e).restyle p = ((e'.holder? v l).getD e').restyle p := by
  have hgetD : ∀ (o : Option Element) (x : Element),
      (o.getD x).restyle p = (o.map (·.restyle p)).getD (x.restyle p) := by
    intro o x
    cases o <;> rfl
  rw [hgetD, holder?_congr h, h, ← hgetD]

theorem map_ownChild?_congr {β : Type} {f : Element → β} (hf : ∀ c : Element, f (c.restyle p) = f c)
    (l : String) : (e.ownChild? l).map f = (e'.ownChild? l).map f := by
  have hmap : ∀ o : Option Element, o.map f = (o.map (·.restyle p)).map f := by
    intro o
    cases o with
    | none => rfl
    | some c => exact congrArg some (hf c).symm
  rw [hmap, ownChild?_congr h, ← hmap]

end Agreement

end Element

end DiscoveryMetadata.Xml
