import DiscoveryMetadata.Component.Checks
import Mathlib.Logic.Basic
/-
  What is found in an element that was put together.

  Components make their elements by setting attributes and text and by adding children, and read
  them by looking for attributes and children of a name. The lemmas here say what each kind of
  looking finds after each kind of putting.
-/
namespace DiscoveryMetadata.Xml.QName

variable (p u l : String)

@[simp]
theorem localName_unqualified : (unqualified l).localName = l := rfl

@[simp]
theorem uri_unqualified : (unqualified l).uri = none := rfl

@[simp]
theorem localName_prefixed : (prefixed p u l).localName = l := rfl

@[simp]
theorem uri_prefixed : (prefixed p u l).uri = some u := rfl

end DiscoveryMetadata.Xml.QName

namespace DiscoveryMetadata.Xml.Element

section Names

variable (e : Element) (n : QName) (x : String) (cs : List Element)

@[simp]
theorem name_setAttribute : (e.setAttribute n x).name = e.name := rfl

@[simp]
theorem children_setAttribute : (e.setAttribute n x).children = e.children := rfl

@[simp]
theorem text_setAttribute : (e.setAttribute n x).text = e.text := rfl

@[simp]
theorem name_put : (e.put n x).name = e.name := by
  unfold put
  split <;> rfl

@[simp]
theorem children_put : (e.put n x).children = e.children := by
  unfold put
  split <;> rfl

@[simp]
theorem text_put : (e.put n x).text = e.text := by
  unfold put
  split <;> rfl

@[simp]
theorem name_withText : (e.withText x).name = e.name := rfl

@[simp]
theorem children_withText : (e.withText x).children = e.children := rfl

@[simp]
theorem attributes_withText : (e.withText x).attributes = e.attributes := rfl

@[simp]
theorem text_withText : (e.withText x).text = some x := rfl

@[simp]
theorem name_putText : (e.putText x).name = e.name := by
  unfold putText
  split <;> rfl

@[simp]
theorem children_putText : (e.putText x).children = e.children := by
  unfold putText
  split <;> rfl

@[simp]
theorem attributes_putText : (e.putText x).attributes = e.attributes := by
  unfold putText
  split <;> rfl

@[simp]
theorem name_add : (e.add cs).name = e.name := rfl

@[simp]
theorem attributes_add : (e.add cs).attributes = e.attributes := rfl

@[simp]
theorem text_add : (e.add cs).text = e.text := rfl

@[simp]
theorem children_add : (e.add cs).children = e.children ++ cs := rfl

end Names

section Attributes

variable {e : Element} {n : QName} {x : String} {u : Option String} {l : String}

theorem value?_assign (as : List Attribute) :
    ((assign n x as).find? fun a => a.name.localName == l && a.name.uri == u).map (·.value) =
      if n.localName = l ∧ n.uri = u then some x
      else (as.find? fun a => a.name.localName == l && a.name.uri == u).map (·.value) := by
  induction as with
  | nil =>
    by_cases h : n.localName = l ∧ n.uri = u
    · simp [assign, h]
    · rw [if_neg h]
      simpa [assign] using h
  | cons a r ih =>
    unfold assign
    by_cases hs : a.name.sameExpanded n = true
    · obtain ⟨hu, hl⟩ : a.name.uri = n.uri ∧ a.name.localName = n.localName := by
        simpa [QName.sameExpanded] using hs
      rw [if_pos hs, List.find?_cons, List.find?_cons]
      by_cases h : n.localName = l ∧ n.uri = u
      · simp [hu, hl, h]
      · have hn : (n.localName == l && n.uri == u) = false := by
          simpa only [Bool.and_eq_false_iff, beq_eq_false_iff_ne, not_and_or] using h
        simp [hu, hl, hn, h]
    · rw [if_neg hs, List.find?_cons, List.find?_cons]
      by_cases ha : (a.name.localName == l && a.name.uri == u) = true
      · have hn : ¬ (n.localName = l ∧ n.uri = u) := by
          rintro ⟨rfl, rfl⟩
          exact hs (by simpa [QName.sameExpanded, and_comm] using ha)
        simp [ha, hn]
      · simp [ha, ih]

theorem name_of_mem_assign {as : List Attribute} {a : Attribute} (h : a ∈ assign n x as) :
    a.name = n ∨ ∃ b ∈ as, b.name = a.name := by
  induction as with
  | nil =>
    obtain rfl := List.mem_singleton.1 h
    exact .inl rfl
  | cons b r ih =>
    unfold assign at h
    split at h
    · rcases List.mem_cons.1 h with rfl | h
      · exact .inr ⟨b, .head r, rfl⟩
      · exact .inr ⟨a, .tail b h, rfl⟩
    · rcases List.mem_cons.1 h with rfl | h
      · exact .inr ⟨a, .head r, rfl⟩
      · exact (ih h).imp_right fun ⟨c, hc, hn⟩ => ⟨c, .tail b hc, hn⟩

section Naming

variable {P : QName → Prop} (h : ∀ a ∈ e.attributes, P a.name) (hn : P n)
include h hn

/-- What holds of the names of all attributes holds after setting one that it holds of. -/
theorem forall_name_setAttribute : ∀ a ∈ (e.setAttribute n x).attributes, P a.name := by
  intro a ha
  rcases name_of_mem_assign ha with heq | ⟨b, hb, heq⟩
  · exact heq ▸ hn
  · exact heq ▸ h b hb

theorem forall_name_put : ∀ a ∈ (e.put n x).attributes, P a.name := by
  unfold put
  split
  · exact h
  · exact forall_name_setAttribute h hn

end Naming

/-- After setting an attribute, its value is found under its name, and nothing else has changed. -/
theorem attribute?_setAttribute :
    (e.setAttribute n x).attribute? u l =
      if n.localName = l ∧ n.uri = u then some x else e.attribute? u l :=
  value?_assign e.attributes

theorem attribute?_put :
    (e.put n x).attribute? u l =
      if n.localName = l ∧ n.uri = u ∧ x ≠ "" then some x else e.attribute? u l := by
  unfold put
  by_cases hx : x = ""
  · simp [hx]
  · rw [if_neg (by simpa using hx), attribute?_setAttribute]
    simp [hx]

@[simp]
theorem attribute?_add {cs : List Element} : (e.add cs).attribute? u l = e.attribute? u l := rfl

@[simp]
theorem attribute?_withText {t : String} : (e.withText t).attribute? u l = e.attribute? u l := rfl

@[simp]
theorem attribute?_putText {t : String} : (e.putText t).attribute? u l = e.attribute? u l := by
  simp [attribute?]

/-- A text that replaces an empty one, unless it is empty itself. -/
@[simp]
theorem ite_text (t : String) : (if t = "" then "" else t) = t := by
  split
  · exact (‹t = ""›).symm
  · rfl

/-- A text that is not there if it is empty. -/
@[simp]
theorem getD_ite_text (t : String) : (if t = "" then none else some t).getD "" = t := by
  by_cases ht : t = "" <;> simp [ht]

theorem attributeText_put {u : String} :
    (e.put n x).attributeText u l =
      if n.localName = l ∧ n.uri = some u then (if x = "" then e.attributeText u l else x)
      else e.attributeText u l := by
  unfold attributeText
  rw [attribute?_put]
  by_cases hn : n.localName = l ∧ n.uri = some u
  · by_cases hx : x = "" <;> simp [hn, hx]
  · simp only [← and_assoc, hn, false_and, if_false]

@[simp]
theorem attributeText_add {u : String} {cs : List Element} :
    (e.add cs).attributeText u l = e.attributeText u l := rfl

@[simp]
theorem uri_put {t : String} : (e.put n t).uri = e.uri := by simp [uri]

@[simp]
theorem uri_setAttribute {t : String} : (e.setAttribute n t).uri = e.uri := rfl

@[simp]
theorem uri_putText {t : String} : (e.putText t).uri = e.uri := by simp [uri]

@[simp]
theorem uri_withText {t : String} : (e.withText t).uri = e.uri := rfl

@[simp]
theorem uri_add {cs : List Element} : (e.add cs).uri = e.uri := rfl

end Attributes

section Contents

variable {e : Element} {n : QName} {x : String}

@[simp]
theorem content_setAttribute : (e.setAttribute n x).content = e.content := rfl

@[simp]
theorem content_put : (e.put n x).content = e.content := by simp [content]

@[simp]
theorem content_add {cs : List Element} : (e.add cs).content = e.content := rfl

/-- An element without text gets the text that is put on it. -/
theorem content_putText (h : e.text = none) : (e.putText x).content = x := by
  unfold putText
  by_cases hx : x = ""
  · simp [content, h, hx]
  · rw [if_neg (by simpa using hx)]
    rfl

end Contents

end DiscoveryMetadata.Xml.Element

namespace DiscoveryMetadata

open Xml (Element QName)

section Schemas

variable (ctx : Context) (v : Version) (l t : String)

@[simp]
theorem Context.localName_ddmsName : (ctx.ddmsName v l).localName = l := rfl

@[simp]
theorem Context.uri_ddmsName : (ctx.ddmsName v l).uri = some v.ddmsUri := rfl

@[simp]
theorem Context.isNamed_ddmsName (n : String) :
    (ctx.ddmsName v l).isNamed v.ddmsUri n = (l == n) := by
  simp [QName.isNamed]

@[simp]
theorem Context.name_ddmsElement : (ctx.ddmsElement v l).name = ctx.ddmsName v l := rfl

@[simp]
theorem Context.children_ddmsElement : (ctx.ddmsElement v l).children = [] := rfl

@[simp]
theorem Context.attributes_ddmsElement : (ctx.ddmsElement v l).attributes = [] := rfl

@[simp]
theorem Context.uri_ddmsElement : (ctx.ddmsElement v l).uri = v.ddmsUri := rfl

@[simp]
theorem Context.attribute?_ddmsElement (u : Option String) (n : String) :
    (ctx.ddmsElement v l).attribute? u n = none := rfl

@[simp]
theorem Context.attributeText_ddmsElement (u n : String) :
    (ctx.ddmsElement v l).attributeText u n = "" := rfl

@[simp]
theorem Context.name_textElement : (ctx.textElement v l t).name = ctx.ddmsName v l := by
  simp [Context.textElement]

@[simp]
theorem Context.children_textElement : (ctx.textElement v l t).children = [] := by
  simp [Context.textElement]

@[simp]
theorem Context.attributes_textElement : (ctx.textElement v l t).attributes = [] := by
  simp [Context.textElement]

@[simp]
theorem Context.uri_textElement : (ctx.textElement v l t).uri = v.ddmsUri := by
  simp [Context.textElement]

@[simp]
theorem Context.content_textElement : (ctx.textElement v l t).content = t :=
  Element.content_putText rfl

@[simp]
theorem Context.attribute?_textElement (u : Option String) (n : String) :
    (ctx.textElement v l t).attribute? u n = none := by
  simp [Context.textElement]

@[simp]
theorem Context.attributeText_textElement (u n : String) :
    (ctx.textElement v l t).attributeText u n = "" := by
  simp [Element.attributeText]

/-- Among the elements of a text, which is at most one, it is found under its own name. -/
theorem Context.find?_textElements (n : String) :
    (ctx.textElements v l t).find? (fun e => e.name.isNamed v.ddmsUri n) =
      if l = n ∧ t ≠ "" then some (ctx.textElement v l t) else none := by
  unfold Context.textElements
  by_cases ht : t = ""
  · simp [ht]
  · by_cases hl : l = n <;> simp [ht, hl]

theorem Version.ddmsUri_ne_ismUri : v.ddmsUri ≠ v.ismUri := by cases v <;> decide

theorem Version.ddmsUri_ne_xlinkUri : v.ddmsUri ≠ Version.xlinkUri := by cases v <;> decide

theorem Version.xlinkUri_ne_ismUri : Version.xlinkUri ≠ v.ismUri := by cases v <;> decide

theorem Version.ntkUri_ne_ismUri : Version.ntkUri ≠ v.ismUri := by cases v <;> decide

theorem Version.virtUri_ne_ddmsUri : Version.virtUri ≠ v.ddmsUri := by cases v <;> decide

theorem Version.ntkUri_ne_ddmsUri : Version.ntkUri ≠ v.ddmsUri := by cases v <;> decide

theorem Version.virtUri_ne_xlinkUri : Version.virtUri ≠ Version.xlinkUri := by decide

end Schemas

end DiscoveryMetadata
