import DiscoveryMetadata.Attributes.Extensible
import DiscoveryMetadata.Attributes.Link
import DiscoveryMetadata.Attributes.Notice
import DiscoveryMetadata.Attributes.Srs
import DiscoveryMetadata.Proofs.Attributes.Security
import DiscoveryMetadata.Proofs.Outcome
import DiscoveryMetadata.Proofs.Text.Numeral
import DiscoveryMetadata.Proofs.Text.Words
/-
  Groups of attributes on an element.

  A group puts its values on an element one after the other, each under a name of its own, and
  leaves out those that are empty. `putAll` is that walk for any group; under each name its value is
  found afterwards, and an empty one as if it were not there. From this the link attributes are read
  again from the element that they were put on.

  Notice attributes are in the namespace of the security attributes, under other names, so either
  group is read again as if the other were not there. The attributes of a reference system hold
  labels as lists. What is read from them again is the same as long as each label is one word and
  the values are such as the system is made of (`SrsAttributes.Sound`).
-/
namespace DiscoveryMetadata.Xml.Element

variable {e : Element} {name : String → QName} {pairs : List (String × String)}
  {u : Option String} {l : String}

/-- The element with the values put on it, each under the name that is made of its own. -/
def putAll (name : String → QName) (pairs : List (String × String)) (e : Element) : Element :=
  pairs.foldl (fun e (n, value) => e.put (name n) value) e

@[simp]
theorem name_putAll : (putAll name pairs e).name = e.name := by
  induction pairs generalizing e with
  | nil => rfl
  | cons p r ih => exact ih.trans (name_put e _ _)

@[simp]
theorem children_putAll : (putAll name pairs e).children = e.children := by
  induction pairs generalizing e with
  | nil => rfl
  | cons p r ih => exact ih.trans (children_put e _ _)

@[simp]
theorem text_putAll : (putAll name pairs e).text = e.text := by
  induction pairs generalizing e with
  | nil => rfl
  | cons p r ih => exact ih.trans (text_put e _ _)

@[simp]
theorem uri_putAll : (putAll name pairs e).uri = e.uri := by simp [uri]

@[simp]
theorem content_putAll : (putAll name pairs e).content = e.content := by simp [content]

theorem forall_name_putAll {P : QName → Prop} (h : ∀ a ∈ e.attributes, P a.name)
    (hp : ∀ p ∈ pairs, P (name p.1)) : ∀ a ∈ (putAll name pairs e).attributes, P a.name := by
  induction pairs generalizing e with
  | nil => exact h
  | cons p r ih =>
    obtain ⟨hn, hr⟩ := List.forall_mem_cons.1 hp
    exact ih (forall_name_put h hn) hr

/-- A group is not in the way of attributes of other namespaces. -/
theorem attribute?_putAll_of_ne (hu : ∀ n, (name n).uri ≠ u) :
    (putAll name pairs e).attribute? u l = e.attribute? u l := by
  induction pairs generalizing e with
  | nil => rfl
  | cons p r ih =>
    calc (putAll name (p :: r) e).attribute? u l
        = (e.put (name p.1) p.2).attribute? u l := ih
      _ = e.attribute? u l := by
        rw [attribute?_put, if_neg fun h => hu p.1 h.2.1]

/-- Under each name the value of the group is found, unless it is empty. -/
theorem attribute?_putAll (hname : ∀ n, (name n).localName = n ∧ (name n).uri = u)
    (hp : (pairs.map (·.1)).Nodup) :
    (putAll name pairs e).attribute? u l =
      ((pairs.lookup l).filter (· ≠ "")).or (e.attribute? u l) := by
  induction pairs generalizing e with
  | nil => rfl
  | cons p r ih =>
    obtain ⟨n, value⟩ := p
    obtain ⟨hn, hr⟩ := List.nodup_cons.1 hp
    have hput : (putAll name ((n, value) :: r) e).attribute? u l =
        ((r.lookup l).filter (· ≠ "")).or ((e.put (name n) value).attribute? u l) := ih hr
    rw [hput, attribute?_put, (hname n).1, (hname n).2]
    by_cases hl : l = n
    · subst hl
      have hnone : r.lookup l = none := by
        rw [List.lookup_eq_none_iff]
        rintro ⟨m, x⟩ hm
        have hne : l ≠ m := by
          rintro rfl
          exact hn (List.mem_map.2 ⟨_, hm, rfl⟩)
        simpa using hne
      by_cases hv : value = "" <;> simp [hnone, hv, Option.filter_some]
    · have hb : (l == n) = false := by simpa using hl
      simp [List.lookup_cons, hb, Ne.symm hl]

theorem attributeText_putAll {u : String}
    (hname : ∀ n, (name n).localName = n ∧ (name n).uri = some u)
    (hp : (pairs.map (·.1)).Nodup) (he : e.attribute? (some u) l = none) :
    (putAll name pairs e).attributeText u l = (pairs.lookup l).getD "" := by
  unfold attributeText
  rw [attribute?_putAll hname hp, he, Option.or_none]
  cases pairs.lookup l with
  | none => rfl
  | some value => by_cases hv : value = "" <;> simp [hv, Option.filter_some]

end DiscoveryMetadata.Xml.Element

namespace DiscoveryMetadata

open Xml (Element QName)

namespace LinkAttributes

variable {ctx : Context} {v : Version} {e : Element} {a b : LinkAttributes}

theorem checked_ok : checked v a = .ok b ↔ a.check v = .ok () ∧ a = b := by
  simp only [checked, bind_ok, exists_unit, pure_ok]

theorem addTo_eq : a.addTo ctx e =
    e.putAll (QName.prefixed ctx.prefixes.xlink Version.xlinkUri) a.pairs := rfl

@[simp]
theorem name_addTo : (a.addTo ctx e).name = e.name := Element.name_putAll

@[simp]
theorem children_addTo : (a.addTo ctx e).children = e.children := Element.children_putAll

@[simp]
theorem uri_addTo : (a.addTo ctx e).uri = e.uri := Element.uri_putAll

@[simp]
theorem content_addTo : (a.addTo ctx e).content = e.content := Element.content_putAll

theorem attribute?_addTo {u : Option String} {l : String} (hu : u ≠ some Version.xlinkUri) :
    (a.addTo ctx e).attribute? u l = e.attribute? u l :=
  Element.attribute?_putAll_of_ne fun _ => hu.symm

theorem attributeText_addTo {u l : String} (hu : u ≠ Version.xlinkUri) :
    (a.addTo ctx e).attributeText u l = e.attributeText u l := by
  unfold Element.attributeText
  rw [attribute?_addTo fun h => hu (Option.some.inj h)]

/-- Link attributes that were put on an element without any are read from it again. -/
theorem ofElement_addTo (he : ∀ l, e.attribute? (some Version.xlinkUri) l = none) :
    ofElement v (a.addTo ctx e) = checked v a := by
  have hread : ∀ l, (a.addTo ctx e).attributeText Version.xlinkUri l =
      (a.pairs.lookup l).getD "" :=
    fun l => Element.attributeText_putAll (fun _ => ⟨rfl, rfl⟩) (by simp [pairs]) (he l)
  simp [ofElement, hread, pairs, List.lookup_cons]

/-- Security attributes are not in the way of link attributes. -/
theorem ofElement_mark (values : List (String × String)) :
    ofElement v (SecurityAttributes.mark ctx v values e) = ofElement v e := by
  simp only [ofElement, SecurityAttributes.attributeText_mark v.xlinkUri_ne_ismUri]

end LinkAttributes

namespace ExtensibleAttributes

variable {ctx : Context} {v : Version} {e : Element}

/-- Without attributes from outside the schemas, none are read. -/
theorem ofElement_eq_empty (h : ∀ a ∈ e.attributes, isOutside v ⟨a.name, ""⟩ = false) :
    ofElement v e = .empty v := by
  have hnone : e.attributes.filter (isOutside v) = [] :=
    List.filter_eq_nil_iff.2 fun a ha => by
      have hout : isOutside v a = isOutside v ⟨a.name, ""⟩ := rfl
      simp [hout, h a ha]
  rw [ofElement, hnone, empty]

theorem isOutside_ddmsName (l x : String) : isOutside v ⟨ctx.ddmsName v l, x⟩ = false := by
  simp [isOutside]

theorem isOutside_security {l x : String} (h : l ∈ SecurityAttributes.names) :
    isOutside v ⟨ctx.ismName v l, x⟩ = false := by
  simp [isOutside, Context.ismName, isReserved, h]

/-- Security attributes are not taken for extensible ones. -/
theorem ofElement_mark {s : SecurityAttributes} {d : SecurityAttributes.Draft}
    (hs : d.commitAs ctx v = .ok s)
    (h : ∀ a ∈ e.attributes, isOutside v ⟨a.name, ""⟩ = false) :
    ofElement v (SecurityAttributes.mark ctx v s.values e) = .empty v :=
  ofElement_eq_empty <| SecurityAttributes.forall_name_mark
    (P := fun n => isOutside v ⟨n, ""⟩ = false) h fun p hp =>
      isOutside_security (SecurityAttributes.name_of_mem_values hs p hp)

theorem ofList_ok {as : List Xml.Attribute} {x : ExtensibleAttributes} (h : ofList v as = .ok x) :
    x = ⟨v, as⟩ ∧ ∀ a ∈ as, a.name.uri.isSome := by
  simp only [ofList, bind_ok, exists_unit, forM_ok, pure_ok] at h
  obtain ⟨hcheck, rfl⟩ := h
  refine ⟨rfl, fun a ha => ?_⟩
  have ha := hcheck a ha
  unfold checkNamespace at ha
  split at ha
  · cases ha
  · rename_i u hu
    simp [hu]

theorem with_attributes_nil : { e with attributes := e.attributes ++ [] } = e := by
  cases e
  simp

section Adding

variable {e' : Element} {a : Xml.Attribute} {as : List Xml.Attribute}

/-- One attribute is put behind those that are there, of which none has its expanded name. -/
theorem addOne_ok (h : addOne v e a = .ok e') :
    e' = { e with attributes := e.attributes ++ [a] } ∧
      (a.name.uri.isSome → ∀ b ∈ e.attributes, b.name.sameExpanded a.name = false) := by
  simp only [addOne, bind_ok, exists_unit, forbid_ok, pure_ok] at h
  obtain ⟨-, hfree, rfl⟩ := h
  refine ⟨rfl, fun hu b hb => ?_⟩
  obtain ⟨u, hu⟩ := Option.isSome_iff_exists.1 hu
  rw [hu, Option.getD_some, Option.isSome_eq_false_iff, Option.isNone_iff_eq_none,
    Element.attribute?, Option.map_eq_none_iff, List.find?_eq_none] at hfree
  have hb := hfree b hb
  rw [← Bool.not_eq_true]
  intro hsame
  simp only [QName.sameExpanded, hu, Bool.and_eq_true, beq_iff_eq] at hsame
  exact hb (by simp [hsame.1, hsame.2])

theorem foldlM_ok (h : as.foldlM (addOne v) e = .ok e') :
    e' = { e with attributes := e.attributes ++ as } := by
  induction as generalizing e with
  | nil => rw [with_attributes_nil, ← pure_ok.1 h]
  | cons a r ih =>
    rw [List.foldlM_cons, bind_ok] at h
    obtain ⟨e₁, h₁, h⟩ := h
    obtain ⟨rfl, -⟩ := addOne_ok h₁
    rw [ih h]
    simp

/-- Attributes in namespaces that are put on an element whose attributes have different expanded
names leave it so. -/
theorem foldlM_distinct (hu : ∀ a ∈ as, a.name.uri.isSome)
    (hd : e.attributes.Pairwise fun a b => a.name.sameExpanded b.name = false)
    (h : as.foldlM (addOne v) e = .ok e') :
    e'.attributes.Pairwise fun a b => a.name.sameExpanded b.name = false := by
  induction as generalizing e with
  | nil => rwa [← pure_ok.1 h]
  | cons a r ih =>
    obtain ⟨ha, hr⟩ := List.forall_mem_cons.1 hu
    rw [List.foldlM_cons, bind_ok] at h
    obtain ⟨e₁, h₁, h⟩ := h
    obtain ⟨rfl, hfree⟩ := addOne_ok h₁
    refine ih hr (List.pairwise_append.2 ⟨hd, List.pairwise_singleton _ _, ?_⟩) h
    intro b hb c hc
    obtain rfl := List.mem_singleton.1 hc
    exact hfree ha b hb

theorem addTo_ok {x : ExtensibleAttributes} (h : x.addTo v e = .ok e') :
    x.attributes.foldlM (addOne v) e = .ok e' := by
  unfold addTo at h
  split_ifs at h with hempty
  · rw [List.isEmpty_iff.1 hempty]
    exact h
  · exact h

end Adding

end ExtensibleAttributes

/-- Where the security attributes are the same, the same is read of them. -/
theorem SecurityAttributes.ofElement_same {ctx : Context} {v : Version} {e e' : Element}
    (h : ∀ l ∈ names, e.attribute? (some v.ismUri) l = e'.attribute? (some v.ismUri) l) :
    ofElement ctx v e = ofElement ctx v e' := by
  have hread : collect (fun l => e.attribute? (some v.ismUri) l) =
      collect (fun l => e'.attribute? (some v.ismUri) l) := by
    simp only [collect_eq]
    exact List.filterMap_congr fun l hl => congrArg _ (h l hl)
  rw [ofElement, ofElement, hread]

namespace NoticeAttributes

variable {ctx : Context} {v : Version} {a : NoticeAttributes} {e e' : Element}
  {type reason date unregistered : String} {external : Option Bool}

/-- The names of notice attributes. -/
def names : List String :=
  ["noticeType", "noticeReason", "noticeDate", "unregisteredNoticeType", "externalNotice"]

theorem names_pairs : a.pairs.map (·.1) = names := rfl

theorem not_mem_names {l : String} (h : l ∈ SecurityAttributes.names) : l ∉ names := by
  have hall : ∀ l ∈ SecurityAttributes.names, l ∉ names := by decide
  exact hall l h

/-- The element with the values put on it; without values it stays as it is. -/
theorem addTo_ok (h : a.addTo ctx v e = .ok e') : e' = e.putAll (ctx.ismName v) a.pairs := by
  unfold addTo at h
  split at h
  case isTrue hempty =>
    simp only [isEmpty, Bool.and_eq_true, String.isEmpty_iff, Option.isNone_iff_eq_none] at hempty
    obtain ⟨⟨⟨⟨htype, hreason⟩, hdate⟩, hunregistered⟩, hexternal⟩ := hempty
    obtain rfl := Except.ok.inj h
    simp [Element.putAll, pairs, Element.put, htype, hreason, hdate, hunregistered, hexternal]
  case isFalse =>
    split at h
    case isTrue => cases h
    case isFalse => exact (Except.ok.inj h).symm

theorem attribute?_putAll (l : String) :
    (e.putAll (ctx.ismName v) a.pairs).attribute? (some v.ismUri) l =
      ((a.pairs.lookup l).filter (· ≠ "")).or (e.attribute? (some v.ismUri) l) :=
  Element.attribute?_putAll (fun _ => ⟨rfl, rfl⟩) (by rw [names_pairs]; decide)

/-- Notice attributes are not in the way of the others of their namespace. -/
theorem attribute?_putAll_other {l : String} (h : l ∉ names) :
    (e.putAll (ctx.ismName v) a.pairs).attribute? (some v.ismUri) l =
      e.attribute? (some v.ismUri) l := by
  have hnone : a.pairs.lookup l = none := by
    rw [List.lookup_eq_none_iff]
    rintro ⟨n, x⟩ hp
    have hn : n ∈ names := names_pairs ▸ List.mem_map_of_mem (f := (·.1)) hp
    have hne : l ≠ n := by
      rintro rfl
      exact h hn
    simpa using hne
  rw [attribute?_putAll, hnone]
  rfl

/-- What is read of notice attributes that were put on an element without any. -/
theorem ofElement_putAll (he : ∀ l ∈ names, e.attribute? (some v.ismUri) l = none) :
    ofElement ctx v (e.putAll (ctx.ismName v) a.pairs) =
      ofValues ctx v a.noticeType a.noticeReason a.noticeDate a.unregisteredNoticeType
        a.externalNotice := by
  have htext : ∀ l ∈ names, (e.putAll (ctx.ismName v) a.pairs).attributeText v.ismUri l =
      (a.pairs.lookup l).getD "" := fun l hl =>
    Element.attributeText_putAll (fun _ => ⟨rfl, rfl⟩) (by rw [names_pairs]; decide) (he l hl)
  have hexternal : readExternal v (e.putAll (ctx.ismName v) a.pairs) = .ok a.externalNotice := by
    have hlookup : a.pairs.lookup "externalNotice" =
        some ((a.externalNotice.map Text.ofTruth).getD "") := by
      simp [pairs, List.lookup_cons]
    unfold readExternal
    rw [attribute?_putAll, he _ (by decide), Option.or_none, hlookup]
    cases a.externalNotice with
    | none => rfl
    | some b => simp [Option.filter_some, Text.ofTruth_ne_empty]
  simp only [ofElement, hexternal, htext _ (show "noticeType" ∈ names by decide),
    htext _ (show "noticeReason" ∈ names by decide), htext _ (show "noticeDate" ∈ names by decide),
    htext _ (show "unregisteredNoticeType" ∈ names by decide)]
  simp only [pairs, List.lookup_cons]
  rfl

end NoticeAttributes

namespace SrsAttributes

open Text (IsWord)

variable {a : SrsAttributes} {e : Element}

/-- The system is what is made of its own values, and its labels are words. -/
structure Sound (a : SrsAttributes) : Prop where
  made : ofValues a.name (a.dimension.map (↑)) a.axisLabels a.uomLabels = .ok a
  axes : ∀ l ∈ a.axisLabels, IsWord l
  uoms : ∀ l ∈ a.uomLabels, IsWord l

theorem dimensionOf_ok {d : Int} {n : Nat} (h : dimensionOf d = .ok n) :
    d = n ∧ n < Nat.pow 2 32 := by
  unfold dimensionOf at h
  split at h
  case isTrue hd =>
    simp only [Bool.and_eq_true, decide_eq_true_eq] at hd
    obtain rfl := Except.ok.inj h
    exact ⟨by omega, hd.2⟩
  case isFalse => cases h

theorem ofValues_ok {name : String} {dimension : Option Int} {axisLabels uomLabels : List String} :
    ofValues name dimension axisLabels uomLabels = .ok a ↔
      dimension.mapM dimensionOf = .ok a.dimension ∧ a.check = .ok () ∧
        a.name = name ∧ a.axisLabels = axisLabels ∧ a.uomLabels = uomLabels := by
  simp only [ofValues, bind_ok, exists_unit, pure_ok]
  constructor
  · rintro ⟨d, hd, hcheck, rfl⟩
    exact ⟨hd, hcheck, rfl, rfl, rfl⟩
  · rintro ⟨hd, hcheck, rfl, rfl, rfl⟩
    exact ⟨_, hd, hcheck, rfl⟩

/-- The dimension of a system that was made is made again from itself. -/
theorem dimensionOf_again {dimension : Option Int}
    (h : dimension.mapM dimensionOf = .ok a.dimension) :
    (a.dimension.map ((↑) : Nat → Int)).mapM dimensionOf = .ok a.dimension := by
  have hrel := optionMapM_ok.1 h
  revert hrel
  generalize a.dimension = o
  intro hrel
  cases hrel with
  | none => rfl
  | some hn =>
    obtain ⟨rfl, -⟩ := dimensionOf_ok hn
    exact optionMapM_ok.2 (.some hn)

/-- The dimension of a system that was made is read again from its text. -/
theorem fits_dimension {dimension : Option Int} (h : dimension.mapM dimensionOf = .ok a.dimension)
    {n : Nat} (hn : a.dimension = some n) : Text.fits 64 (n : Int) = true := by
  rw [hn] at h
  cases optionMapM_ok.1 h with
  | some hd =>
    have hlt : n < Nat.pow 2 32 := (dimensionOf_ok hd).2
    have hpow : Nat.pow 2 32 ≤ Nat.pow 2 (64 - 1) := by decide
    simp only [Text.fits, Bool.and_eq_true, decide_eq_true_eq]
    omega

theorem addTo_eq : a.addTo e = e.putAll QName.unqualified a.pairs := rfl

@[simp]
theorem name_addTo : (a.addTo e).name = e.name := Element.name_putAll

@[simp]
theorem children_addTo : (a.addTo e).children = e.children := Element.children_putAll

@[simp]
theorem uri_addTo : (a.addTo e).uri = e.uri := Element.uri_putAll

@[simp]
theorem content_addTo : (a.addTo e).content = e.content := Element.content_putAll

theorem attribute?_addTo (l : String) (he : ∀ l, e.attribute? none l = none) :
    (a.addTo e).attribute? none l = (a.pairs.lookup l).filter (· ≠ "") := by
  rw [addTo_eq, Element.attribute?_putAll (u := none) (fun _ => ⟨rfl, rfl⟩) (by simp [pairs]), he,
    Option.or_none]

theorem readDimension_eq {d : Option Nat} (h : ∀ n ∈ d, Text.fits 64 (n : Int) = true)
    (he : e.attribute? none "srsDimension" = d.map toString) :
    readDimension e = .ok (d.map (↑)) := by
  unfold readDimension
  rw [he]
  cases d with
  | none => rfl
  | some n =>
    have htrim : Text.trim (toString (n : Int)) = toString (n : Int) :=
      Text.trim_of_no_space fun c hc => Text.isSpace_intText hc
    have hread : Text.int64? (Text.trim (toString n)) = some (n : Int) :=
      (congrArg _ htrim).trans (Text.int64?_intText (h n rfl))
    simp only [Option.map_some, hread]

/-- From an element that a system was put on its values are read: of the labels their words. -/
theorem ofElement_addTo_eq (h : ∀ n ∈ a.dimension, Text.fits 64 (n : Int) = true)
    (he : ∀ l, e.attribute? none l = none) :
    ofElement (a.addTo e) = ofValues a.name (a.dimension.map (↑)) (a.axisLabels.flatMap Text.words)
      (a.uomLabels.flatMap Text.words) := by
  have hget : ∀ l, ((a.addTo e).attribute? none l).getD "" = (a.pairs.lookup l).getD "" := by
    intro l
    rw [attribute?_addTo l he]
    cases a.pairs.lookup l with
    | none => rfl
    | some value => by_cases hv : value = "" <;> simp [hv, Option.filter_some]
  have hdimension : (a.addTo e).attribute? none "srsDimension" = a.dimension.map toString := by
    rw [attribute?_addTo _ he]
    cases hd : a.dimension with
    | none => simp [pairs, List.lookup_cons, hd]
    | some n =>
      have hlookup : a.pairs.lookup "srsDimension" = some (toString n) := by
        simp [pairs, List.lookup_cons, hd]
      rw [hlookup, Option.filter_some, if_pos (by simp), Option.map_some]
  have hread := readDimension_eq h hdimension
  rw [← Text.words_unwords_eq, ← Text.words_unwords_eq]
  simp only [ofElement, hread, hget]
  simp [pairs, List.lookup_cons, bind, Except.bind]

/-- The system with the words of its labels in their place. -/
def worded (a : SrsAttributes) : SrsAttributes :=
  { a with
    axisLabels := a.axisLabels.flatMap Text.words
    uomLabels := a.uomLabels.flatMap Text.words }

theorem worded_eq_self : a.worded = a ↔ ∀ l ∈ a.axisLabels ++ a.uomLabels, IsWord l := by
  rw [List.forall_mem_append, ← Text.flatMap_words_eq_self, ← Text.flatMap_words_eq_self]
  constructor
  · intro h
    exact ⟨congrArg axisLabels h, congrArg uomLabels h⟩
  · rintro ⟨haxes, huoms⟩
    rw [worded, haxes, huoms]

theorem words_unwords_worded (ls : List String) :
    Text.words (Text.unwords (ls.flatMap Text.words)) = Text.words (Text.unwords ls) := by
  have hwords : ∀ w ∈ ls.flatMap Text.words, IsWord w := by
    intro w hw
    obtain ⟨t, -, hwords⟩ := List.mem_flatMap.1 hw
    exact Text.isWord_of_mem_words hwords
  rw [Text.words_unwords hwords, Text.words_unwords_eq]

/-- The words of labels that pass the check pass it, but for units that have lost their axes. -/
theorem check_worded (h : a.check = .ok ()) :
    a.worded.check = .ok () ↔ (a.worded.axisLabels = [] → a.worded.uomLabels = []) := by
  simp only [check, bind_ok, exists_unit, demand_ok, Bool.or_eq_true, Bool.not_eq_true',
    List.isEmpty_iff, List.isEmpty_eq_false_iff] at h ⊢
  obtain ⟨huri, hname, -, haxes, huoms⟩ := h
  have hnamed : a.worded.axisLabels = [] ∨ a.name.isEmpty = false :=
    hname.imp_left fun hnil => by rw [worded, hnil]; rfl
  have hchecks : Text.checkNCNames (Text.unwords a.worded.axisLabels) = .ok () ∧
      Text.checkNCNames (Text.unwords a.worded.uomLabels) = .ok () := by
    simp only [Text.checkNCNames, worded, words_unwords_worded]
    exact ⟨haxes, huoms⟩
  rw [imp_iff_not_or]
  exact ⟨fun hchecked => hchecked.2.2.1.symm, fun hunits => ⟨huri, hnamed, hunits.symm, hchecks⟩⟩

/-- A system that was made is read from an element that it was put on as its words. -/
theorem ofElement_addTo_ok {name : String} {dimension : Option Int} {axes uoms : List String}
    {b : SrsAttributes} (h : ofValues name dimension axes uoms = .ok a)
    (he : ∀ l, e.attribute? none l = none) :
    ofElement (a.addTo e) = .ok b ↔
      b = a.worded ∧ (a.worded.axisLabels = [] → a.worded.uomLabels = []) := by
  obtain ⟨hdimension, hcheck, -⟩ := ofValues_ok.1 h
  rw [ofElement_addTo_eq (fun n hn => fits_dimension hdimension hn) he, ofValues_ok,
    ← check_worded hcheck]
  constructor
  · rintro ⟨hd, hb, hn, ha, hu⟩
    rw [dimensionOf_again hdimension] at hd
    obtain rfl : b = a.worded := by
      cases b
      cases Except.ok.inj hd
      cases hn
      cases ha
      cases hu
      rfl
    exact ⟨rfl, hb⟩
  · rintro ⟨rfl, hb⟩
    exact ⟨dimensionOf_again hdimension, hb, rfl, rfl, rfl⟩

/-- A system that was made is read again just if its labels are words. -/
theorem ofElement_addTo_iff {name : String} {dimension : Option Int} {axes uoms : List String}
    (h : ofValues name dimension axes uoms = .ok a)
    (he : ∀ l, e.attribute? none l = none) :
    ofElement (a.addTo e) = .ok a ↔ ∀ l ∈ axes ++ uoms, IsWord l := by
  obtain ⟨-, hcheck, -, haxes, huoms⟩ := ofValues_ok.1 h
  rw [ofElement_addTo_ok h he, ← haxes, ← huoms, ← worded_eq_self]
  constructor
  · rintro ⟨hworded, -⟩
    exact hworded.symm
  · intro hworded
    have hchecked : a.worded.check = .ok () := by rwa [hworded]
    exact ⟨hworded.symm, (check_worded hcheck).1 hchecked⟩

/-- A system that was put on an element without unqualified attributes is read from it again. -/
theorem ofElement_addTo (h : a.Sound) (he : ∀ l, e.attribute? none l = none) :
    ofElement (a.addTo e) = .ok a := by
  obtain ⟨hdimension, -⟩ := ofValues_ok.1 h.made
  rw [ofElement_addTo_eq (fun n hn => fits_dimension hdimension hn) he,
    Text.flatMap_words_eq_self.2 h.axes, Text.flatMap_words_eq_self.2 h.uoms, h.made]

end SrsAttributes

end DiscoveryMetadata
