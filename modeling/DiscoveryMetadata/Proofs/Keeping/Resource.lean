import DiscoveryMetadata.Proofs.Keeping.Parts
import DiscoveryMetadata.Proofs.Returning.Resource
/-
  Resources that are read, and made again from their drafts.

  The attributes of a resource that was read can be put on a new element as they are
  (`make_read`), and what the rules of a resource ask of its components they ask alike of components
  that match (`rules_of_matches`). With the parts that match those that were read, this gives the
  resource again.

  The main statement is `Resource.kept_rebuilt`. It asks that nothing is there that drafts do not
  hold. An attribute from another namespace on a keyword is such a thing, and because of one a
  resource is made again without it (`Resource.ranked_not_rebuilt`).
-/
namespace DiscoveryMetadata

open Buildable
open Xml (Element QName)

variable {ctx : Context} {v : Version} {e : Element}

section Heading

namespace ExtensibleAttributes

variable {a : ExtensibleAttributes}

/-- No two of the attributes have the same name. -/
def Distinct (a : ExtensibleAttributes) : Prop :=
  (a.attributes.map fun x => (x.name.uri, x.name.localName)).Nodup

instance (a : ExtensibleAttributes) : Decidable a.Distinct :=
  inferInstanceAs (Decidable (List.Nodup _))

/-- Where all attributes are those of the schemas, none is found under a name from outside. -/
theorem attribute?_of_outside {x : Xml.Attribute}
    (he : ∀ b ∈ e.attributes, isOutside v ⟨b.name, ""⟩ = false) (hx : isOutside v x = true) :
    e.attribute? x.name.uri x.name.localName = none := by
  rw [Element.attribute?, Option.map_eq_none_iff, List.find?_eq_none]
  intro b hb hname
  rw [Bool.and_eq_true, beq_iff_eq, beq_iff_eq] at hname
  have hsame : isOutside v ⟨b.name, ""⟩ = isOutside v x := by
    simp only [isOutside, hname.1, hname.2]
  rw [he b hb, hx] at hsame
  cases hsame

theorem addOne_outside {x : Xml.Attribute} (hx : isOutside v x = true)
    (he : e.attribute? x.name.uri x.name.localName = none) :
    addOne v e x = .ok { e with attributes := e.attributes ++ [x] } := by
  unfold isOutside at hx
  cases hu : x.name.uri with
  | none => simp [hu] at hx
  | some u =>
    simp only [hu, Bool.and_eq_true, Bool.not_eq_true'] at hx
    rw [hu] at he
    refine bind_ok.2 ⟨(), forbid_ok.2 ?_, bind_ok.2 ⟨(), forbid_ok.2 ?_, rfl⟩⟩
    · rw [hu, Option.getD_some, hx.2]
    · rw [hu, Option.getD_some, he, Option.isSome_none]

theorem foldlM_addOne {as : List Xml.Attribute} (hout : ∀ x ∈ as, isOutside v x = true)
    (he : ∀ x ∈ as, e.attribute? x.name.uri x.name.localName = none)
    (hd : (as.map fun x => (x.name.uri, x.name.localName)).Nodup) :
    as.foldlM (addOne v) e = .ok { e with attributes := e.attributes ++ as } := by
  induction as generalizing e with
  | nil => exact congrArg Except.ok with_attributes_nil.symm
  | cons x r ih =>
    obtain ⟨hx, hout⟩ := List.forall_mem_cons.1 hout
    obtain ⟨hfree, he⟩ := List.forall_mem_cons.1 he
    obtain ⟨hnew, hd⟩ := List.nodup_cons.1 hd
    rw [List.foldlM_cons, addOne_outside hx hfree]
    refine (ih hout (fun y hy => ?_) hd).trans ?_
    · have hne : ¬(x.name.localName = y.name.localName ∧ x.name.uri = y.name.uri) := fun h =>
        hnew (List.mem_map.2 ⟨y, hy, by simp [h]⟩)
      have hy := he y hy
      rw [Element.attribute?, Option.map_eq_none_iff] at hy ⊢
      simp [List.find?_append, hy, hne]
    · simp

/-- Attributes that were read can be put on an element without any from outside, if no two have
the same name. -/
theorem addTo_total (hversion : a.version = v) (hout : ∀ x ∈ a.attributes, isOutside v x = true)
    (hd : a.Distinct) (he : ∀ b ∈ e.attributes, isOutside v ⟨b.name, ""⟩ = false) :
    a.addTo v e = .ok { e with attributes := e.attributes ++ a.attributes } := by
  unfold addTo
  split
  case isTrue hempty =>
    rw [List.isEmpty_iff.1 hempty]
    exact congrArg Except.ok with_attributes_nil.symm
  case isFalse =>
    rw [if_neg (not_not_intro hversion)]
    exact foldlM_addOne hout (fun x hx => attribute?_of_outside he (hout x hx)) hd

/-- Attributes that were read are made again of themselves. -/
theorem ofList_read : ofList v (ofElement v e).attributes = .ok (ofElement v e) := by
  refine bind_ok.2 ⟨(), forM_ok.2 fun x hx => ?_, rfl⟩
  have hout := (List.mem_filter.1 hx).2
  unfold isOutside at hout
  unfold checkNamespace
  split at hout
  · cases hout
  · simp only [Bool.and_eq_true, bne_iff_ne] at hout
    simp [*]

end ExtensibleAttributes

namespace Markings

/-- Without need-to-know rules, markings that were read do not give a version of them. -/
theorem ntkVersion_read {m : Markings} (h : ofElement v e = .ok m)
    (hv : v.atLeast .v4_0_1 = false) : m.ntkVersion = none := by
  simp only [ofElement, ntkVersionOf, Version.uriOf, hv, bind_ok, pure_ok] at h
  obtain ⟨_, -, n, hn, _, -, rfl⟩ := h
  exact (Except.ok.inj hn).symm

theorem addTo_total {m : Markings} (h : v.atLeast .v4_0_1 = false → m.ntkVersion = none) :
    m.addTo ctx v e = .ok (m.put ctx v e) := by
  obtain ⟨e', he'⟩ : ∃ e', m.addTo ctx v e = .ok e' := by
    cases hv : v.atLeast .v4_0_1 with
    | false => exact ⟨_, by simp only [addTo, h hv]; rfl⟩
    | true =>
      simp only [addTo, Context.putIn, Context.nameIn, Version.uriOf, hv]
      split <;> exact ⟨_, rfl⟩
  rw [he', (addTo_ok he').1]

end Markings

/-- The attributes of a resource that was read can be put on a new element: with whatever
components, making the resource comes down to its rules. -/
theorem Resource.make_read {m : Markings} {s : SecurityAttributes} {n : NoticeAttributes}
    (hm : Markings.ofElement v e = .ok m) (hs : SecurityAttributes.ofElement ctx v e = .ok s)
    (hfilled : s.Filled) (hn : NoticeAttributes.ofElement ctx v e = .ok n)
    (hd : (ExtensibleAttributes.ofElement v e).Distinct) :
    ∃ h : Element, h.name = ctx.ddmsName v (TopLevel.resourceName v) ∧ h.children = [] ∧
      ∀ ts, make ctx v ts m s n (.ofElement v e) =
        checked ⟨⟨h.add ((TopLevel.inOrder ts).map (·.base.element)), v, []⟩, TopLevel.inOrder ts,
          m, s, n, .ofElement v e⟩ := by
  have hntk := Markings.ntkVersion_read hm
  obtain ⟨hput, -⟩ := SecurityAttributes.commitAs_read hs hfilled
  have hout : ∀ x ∈ (ExtensibleAttributes.ofElement v e).attributes,
      ExtensibleAttributes.isOutside v x = true := fun x hx => (List.mem_filter.1 hx).2
  have hadd := ExtensibleAttributes.addTo_total (v := v) rfl hout hd
    (inside_heading (m := m) (n := n) (SecurityAttributes.accepted_of_read hs) hntk)
  let h := heading ctx v m s n
  refine ⟨{ h with attributes := h.attributes ++ (ExtensibleAttributes.ofElement v e).attributes },
    by simp [h, heading, Markings.put], by simp [h, heading, Markings.put], fun ts => ?_⟩
  simp only [make, Markings.addTo_total hntk, hput,
    NoticeAttributes.addTo_total (NoticeAttributes.ofValues_read hn).1]
  exact congrArg (fun x => within _ x >>= _) hadd

end Heading

namespace Resource

section Rules

open TopLevel (Matches)

variable {r r' : Resource}

/-- Components that match are selected alike by their kinds. -/
theorem length_filterMap {α : Type} {f : TopLevel → Option α} {ts' ts : List TopLevel}
    (hf : ∀ {t' t : TopLevel}, (t' == t) = true → (f t').isSome = (f t).isSome)
    (h : List.Forall₂ (Matches v) ts' ts) :
    (ts'.filterMap f).length = (ts.filterMap f).length := by
  rw [List.length_filterMap_eq_countP, List.length_filterMap_eq_countP]
  exact TopLevel.countP_of_matches (fun h => hf h.same) h

theorem isEmpty_filterMap {α : Type} {f : TopLevel → Option α} {ts' ts : List TopLevel}
    (hf : ∀ {t' t : TopLevel}, (t' == t) = true → (f t').isSome = (f t).isSome)
    (h : List.Forall₂ (Matches v) ts' ts) :
    (ts'.filterMap f).isEmpty = (ts.filterMap f).isEmpty := by
  have hlength := length_filterMap hf h
  rw [Bool.eq_iff_iff, List.isEmpty_iff_length_eq_zero, List.isEmpty_iff_length_eq_zero, hlength]

/-- What the rules ask of the components of a resource is the same of components that match. -/
theorem rules_of_matches (hversion : r'.version = r.version)
    (hname : r'.element.name.isNamed r.version.ddmsUri (TopLevel.resourceName r.version) = true)
    (hcount : ∀ l, (r'.element.ownChildren l).length = (r.element.ownChildren l).length)
    (hmarkings : r'.markings = r.markings) (hsecurity : r'.security = r.security)
    (hm : List.Forall₂ (Matches r.version) r'.components r.components) (h : r.rules = .ok ()) :
    r'.rules = .ok () := by
  rw [rules_ok] at h ⊢
  obtain ⟨-, hmarked, hi, ht, hp, hsingle, hsubject, hs, hx, hrollup, -⟩ := h
  simp only [requireChildren_ok, hversion, hcount, hmarkings, hsecurity] at hsingle hsubject hs ⊢
  refine ⟨hname, hmarked, ?identifiers, ?titles, ?producers, hsingle, hsubject, hs, ?extensible,
    ?rollup, ?versions⟩
  case identifiers =>
    refine (isEmpty_filterMap (fun {t' t} h => ?_) hm).trans hi
    cases t' <;> cases t <;> first | exact absurd h Bool.false_ne_true | rfl
  case titles =>
    refine (isEmpty_filterMap (fun {t' t} h => ?_) hm).trans ht
    cases t' <;> cases t <;> try first | exact absurd h Bool.false_ne_true | rfl
    case caption.caption c' c =>
      -- only captions that are titles count, and equal captions are of one kind
      have hkind : c'.kind = c.kind := eq_of_beq (Bool.and_elim_left (Bool.and_elim_right h))
      simp only [hkind]
      split <;> rfl
  case producers =>
    refine (isEmpty_filterMap (fun {t' t} h => ?_) hm).trans hp
    cases t' <;> cases t <;> first | exact absurd h Bool.false_ne_true | rfl
  case extensible =>
    have hlength : r'.extensibleElements.length = r.extensibleElements.length :=
      length_filterMap (fun {t' t} h => by
        cases t' <;> cases t <;> first | exact absurd h Bool.false_ne_true | rfl) hm
    rwa [hlength]
  case rollup =>
    have hsame : r'.components.filterMap countedClassification? =
        r.components.filterMap countedClassification? := by
      have hmap := TopLevel.map_of_matches
        (fun h => TopLevel.countedClassification?_of_beq h.same) hm
      have hid : ∀ ts : List TopLevel, ts.filterMap countedClassification? =
          (ts.map countedClassification?).filterMap id := fun ts => by
        rw [List.filterMap_map, Function.id_comp]
      rw [hid, hid, hmap]
    intro hfull
    rw [checkRollup, hsame, hsecurity]
    exact hrollup hfull
  case versions =>
    refine List.forall_mem_map.2 fun t ht => ?_
    exact forall_mem_of_forall₂ (P := fun _ => True) (fun _ _ h _ => h.version) hm (by simp) t
      (List.mem_filter.1 ht).1

end Rules

section Counting

open TopLevel (Matches)

variable {ts ts' : List TopLevel}

/-- How many children of a name an element has that holds the elements of components. -/
theorem length_ownChildren {l : String} (h : e.children = ts.map (·.base.element)) :
    (e.ownChildren l).length = ts.countP fun t => t.base.element.name.isNamed e.uri l := by
  rw [Element.ownChildren, Element.childrenNamed, h, ← List.countP_eq_length_filter,
    List.countP_map]
  rfl

/-- The components that can stand in a resource once at most are read from elements of their
names. -/
theorem isNamed_of_rank {t : TopLevel} (h : TopLevel.ofElement ctx v e = .ok t) :
    ∀ s ∈ singles, t.rank = s.1 → e.name.isNamed v.ddmsUri s.2 = true := by
  unfold TopLevel.ofElement at h
  split at h
  case isFalse =>
    obtain ⟨c, -, rfl⟩ := map_ok.1 h
    simp [singles, TopLevel.rank]
  case isTrue huri =>
    suffices hl : ∀ s ∈ singles, t.rank = s.1 → e.localName = s.2 by
      intro s hs hr
      rw [QName.isNamed, huri, Bool.and_true, beq_iff_eq]
      exact hl s hs hr
    unfold TopLevel.ofDdmsElement at h
    split at h
    -- names that belong to some versions only, or to several kinds
    case h_13 name =>
      split_ifs at h with hmanagement
      · obtain ⟨c, -, rfl⟩ := map_ok.1 h
        simp only [Bool.and_eq_true, decide_eq_true_eq] at hmanagement
        simp [singles, TopLevel.rank, hmanagement.1]
      · obtain ⟨c, -, rfl⟩ := map_ok.1 h
        simp [singles, TopLevel.rank]
      · obtain ⟨c, hc, rfl⟩ := map_ok.1 h
        rw [← Caption.ofElement_kind hc]
        cases hk : c.kind <;> simp [singles, TopLevel.rank, hk, Caption.Kind.name]
      · obtain ⟨c, -, rfl⟩ := map_ok.1 h
        cases hk : c.kind <;> simp [singles, TopLevel.rank, hk]
    all_goals
      obtain ⟨c, -, rfl⟩ := map_ok.1 h
      simp [singles, TopLevel.rank, *]

theorem length_ofRank_le {n : Nat} {l : String} (h : e.children = ts.map (·.base.element))
    (hn : ∀ t ∈ ts, t.rank = n → t.base.element.name.isNamed e.uri l = true) :
    (ofRank ts n).length ≤ (e.ownChildren l).length := by
  rw [length_ownChildren h, ofRank, ← List.countP_eq_length_filter]
  exact List.countP_mono_left fun t ht hr => hn t ht (by simpa using hr)

end Counting

/-- The resource is kept with its attributes if all its components are, no two of its attributes
from outside the schemas have the same name, and none of its markings is there without a value. -/
structure Kept (r : Resource) : Prop where
  components : ∀ t ∈ r.components, t.Kept
  security : r.security.Filled
  extensible : r.extensible.Distinct

instance (r : Resource) : Decidable r.Kept :=
  decidable_of_iff ((∀ t ∈ r.components, t.Kept) ∧ r.security.Filled ∧ r.extensible.Distinct)
    ⟨fun ⟨hc, hs, hx⟩ => ⟨hc, hs, hx⟩, fun ⟨hc, hs, hx⟩ => ⟨hc, hs, hx⟩⟩

/-- What is known of a resource that was read from an element. -/
structure ReadFrom (ctx : Context) (v : Version) (e : Element) (r : Resource) : Prop where
  element : r.element = e
  version : r.version = v
  components : ∃ ts, readAll TopLevel.ofElement ctx v e.children = .ok ts ∧
    r.components = TopLevel.inOrder ts
  markings : Markings.ofElement v e = .ok r.markings
  security : SecurityAttributes.ofElement ctx v e = .ok r.security
  notice : NoticeAttributes.ofElement ctx v e = .ok r.notice
  extensible : r.extensible = .ofElement v e
  rules : r.rules = .ok ()

theorem readFrom {r : Resource} (h : ofElement ctx v e = .ok r) : ReadFrom ctx v e r := by
  simp only [ofElement, checked, bind_ok, within_ok, check_ok, exists_unit, pure_ok] at h
  obtain ⟨m, hm, ts, hts, s, hs, n, hn, hr, rfl⟩ := h
  exact ⟨rfl, rfl, ⟨ts, hts, rfl⟩, hm, hs, hn, rfl, hr⟩

namespace ReadFrom

variable {r : Resource}

/-- Its components are parts, each of one kind. -/
theorem groups (h : ReadFrom ctx v e r) :
    (Parts.of r.components).groups.flatten = r.components := by
  obtain ⟨rfl, rfl, ⟨ts, hts, hc⟩, -, -, -, -, hr⟩ := h
  obtain ⟨-, -, -, -, -, hsingle, -, hsecurity, -⟩ := rules_ok.1 hr
  have huri := uri_of_rules hr
  have hnamed : ∀ t ∈ ts, ∀ s ∈ singles, t.rank = s.1 →
      t.base.element.name.isNamed r.element.uri s.2 = true := by
    refine mapM_all (fun e _ t ht => ?_) hts
    rw [TopLevel.ofElement_element ht, huri]
    exact isNamed_of_rank ht
  have hcount : ∀ s ∈ singles, (r.element.ownChildren s.2).length ≤ 1 := by
    simp only [requireChildren_ok, Bool.and_eq_true, decide_eq_true_eq] at hsingle hsecurity
    simp only [singleNames, List.forall_mem_cons] at hsingle
    simp only [singles, List.forall_mem_cons]
    exact ⟨hsingle.1.2, hsingle.2.1.2, hsingle.2.2.1.2, hsingle.2.2.2.1.2, hsingle.2.2.2.2.1.2,
      hsecurity.2, by simp⟩
  rw [hc]
  refine Parts.groups_of (TopLevel.inOrder_sorted ts) fun s hs => ?_
  calc (ofRank (TopLevel.inOrder ts) s.1).length
      = (ofRank ts s.1).length := ((TopLevel.inOrder_perm ts).filter _).length_eq
    _ ≤ (r.element.ownChildren s.2).length :=
      length_ofRank_le (TopLevel.readAll_elements hts).symm fun t ht => hnamed t ht s hs
    _ ≤ 1 := hcount s hs

/-- Its components can be made again if they are kept. -/
theorem remade (h : ReadFrom ctx v e r) (hk : ∀ t ∈ r.components, t.Kept) :
    ∀ t ∈ r.components, t.Remade ctx v := by
  obtain ⟨ts, hts, hc⟩ := h.components
  intro t ht
  have hmem : t ∈ ts := TopLevel.mem_inOrder.1 (hc ▸ ht)
  exact mapM_all (fun _ _ t h => TopLevel.ofElement_remade h) hts t hmem (hk t ht)

/-- Components that match those that were read keep the rules of a resource, on any element of the
name with the same attributes. -/
theorem rules_again {h : Element} {ts : List TopLevel} {w : List Finding}
    (hr : ReadFrom ctx v e r) (hname : h.name = ctx.ddmsName v (TopLevel.resourceName v))
    (hchildren : h.children = []) (hm : List.Forall₂ (TopLevel.Matches v) ts r.components) :
    Resource.rules ⟨⟨h.add (ts.map (·.base.element)), v, w⟩, ts, r.markings, r.security, r.notice,
      r.extensible⟩ = .ok () := by
  obtain ⟨rfl, rfl, ⟨us, hus, hc⟩, -, -, -, -, hrules⟩ := hr
  have huri := uri_of_rules hrules
  refine rules_of_matches (r := r) rfl (by simp [hname]) (fun l => ?_) rfl rfl hm hrules
  have hnew : (h.add (ts.map (·.base.element))).children = ts.map (·.base.element) := by
    rw [Element.children_add, hchildren, List.nil_append]
  calc ((h.add (ts.map (·.base.element))).ownChildren l).length
      = ts.countP fun t => t.base.element.name.isNamed r.element.uri l := by
        rw [length_ownChildren hnew, huri]
        simp [Element.uri, hname]
    _ = r.components.countP fun t => t.base.element.name.isNamed r.element.uri l :=
        TopLevel.countP_of_matches (fun h => h.isNamed _ _) hm
    _ = us.countP fun t => t.base.element.name.isNamed r.element.uri l := by
        rw [hc]
        exact (TopLevel.inOrder_perm us).countP_eq _
    _ = (r.element.ownChildren l).length :=
        (length_ownChildren (TopLevel.readAll_elements hus).symm).symm

/-- Components that match those that were read make a resource that is equal to the one read. -/
theorem make_again {p : Parts} (hr : ReadFrom ctx v e r) (hf : r.security.Filled)
    (hd : r.extensible.Distinct) (hp : p.Kinded)
    (hm : List.Forall₂ (TopLevel.Matches v) p.groups.flatten r.components) :
    ∃ r', make ctx v p.groups.flatten r.markings r.security r.notice r.extensible = .ok r' ∧
      (r' == r) = true := by
  obtain ⟨head, hname, hchildren, hmake⟩ := make_read hr.markings hr.security hf hr.notice
    (hr.extensible ▸ hd)
  let r' : Resource := ⟨⟨head.add (p.groups.flatten.map (·.base.element)), v, []⟩,
    p.groups.flatten, r.markings, r.security, r.notice, r.extensible⟩
  have hrules : r'.rules = .ok () := hr.rules_again hname hchildren hm
  have hsorted := TopLevel.inOrder_of_sorted hp.ranked.sorted
  refine ⟨{ r' with warnings := r'.findings }, ?made, ?same⟩
  case made =>
    calc make ctx v p.groups.flatten r.markings r.security r.notice r.extensible
        = checked r' := by rw [hr.extensible, hmake, hsorted, ← hr.extensible]
      _ = .ok _ := bind_ok.2 ⟨(), check_ok.2 hrules, rfl⟩
  case same =>
    have hbase : head.name.sameExpanded r.element.name = true := by
      have hnamed := (rules_ok.1 hr.rules).1
      rw [hr.version] at hnamed
      rw [hname, Context.sameExpanded_ddmsName, hnamed]
    change (_ == _ && (_ == _ && (_ == _ && (_ == _ && (_ == _ && _ == _))))) = true
    simp only [Bool.and_eq_true]
    exact ⟨hbase, TopLevel.beq_of_matches hm, beq_self_eq_true r.markings,
      beq_self_eq_true r.security, beq_self_eq_true r.notice, beq_self_eq_true r.extensible⟩

end ReadFrom

/-- A resource that was read and is kept is made again, equal to itself, from its own draft. -/
theorem kept_rebuilt (ctx : Context) (v : Version) (e : Element) (r : Resource)
    (h : ofElement ctx v e = .ok r) (hk : r.Kept) :
    ∃ r', commit ctx r.toDraft = .ok (some r') ∧ (r' == r) = true := by
  have hread := readFrom h
  obtain ⟨hcomponents, hfilled, hd⟩ := hk
  have hkinded : (Parts.of r.components).Kinded := Parts.kinded_of
  obtain ⟨p, hp, hmatches⟩ := Parts.remade (r := r) hkinded
    (hread.groups.symm ▸ hread.remade hcomponents)
  rw [hread.groups] at hmatches
  obtain ⟨r', hmade, hsame⟩ := hread.make_again hfilled hd hp.kinded hmatches
  refine ⟨r', ?_, hsame⟩
  have hv : version? ((Parts.of r.components).addTo r.header) = some v :=
    congrArg some hread.version
  have hidentifiers : p.identifiers ≠ [] := (components_eq hp.kinded hmade).2.2
  have hsecurity := (SecurityAttributes.commitAs_read hread.security hfilled).2
  have hnotice := (NoticeAttributes.ofValues_read hread.notice).2
  have hextensible : ExtensibleAttributes.ofList v r.extensible.attributes = .ok r.extensible := by
    rw [hread.extensible, ExtensibleAttributes.ofList_read]
  rw [toDraft_eq hkinded hread.groups.symm, commit, hv]
  refine commitAs_some.2 ⟨hp.isEmpty_eq_false hidentifiers, ?_⟩
  exact bind_ok.2 ⟨_, commitComponents_ok.2 ⟨p, hp, rfl⟩, bind_ok.2 ⟨_, hnotice,
    bind_ok.2 ⟨_, hextensible, bind_ok.2 ⟨_, hsecurity, hmade⟩⟩⟩⟩

/-- The element of a resource of version 5.0, with further attributes on its one keyword. -/
def about (extra : List Xml.Attribute) : Element :=
  let ctx : Context := {}
  let ism := fun l x => (⟨ctx.ismName .v5_0 l, x⟩ : Xml.Attribute)
  let marked := [ism "classification" "U", ism "ownerProducer" "USA"]
  { name := ctx.ddmsName .v5_0 "resource"
    attributes := [ism "resourceElement" "true", ism "createDate" "2012-01-01",
      ism "DESVersion" "9", ⟨.prefixed "ntk" Version.ntkUri "DESVersion", "7"⟩] ++ marked
    children :=
      [{ name := ctx.ddmsName .v5_0 "identifier"
         attributes := [⟨ctx.ddmsName .v5_0 "qualifier", "urn:isbn"⟩,
           ⟨ctx.ddmsName .v5_0 "value", "0"⟩] },
       { ctx.textElement .v5_0 "title" "Title" with attributes := marked },
       { name := ctx.ddmsName .v5_0 "pointOfContact"
         attributes := marked
         children := [(ctx.ddmsElement .v5_0 "organization").add
           [ctx.textElement .v5_0 "name" "Office"]] },
       (ctx.ddmsElement .v5_0 "subjectCoverage").add
         [{ name := ctx.ddmsName .v5_0 "keyword"
            attributes := extra ++ [⟨ctx.ddmsName .v5_0 "value", "word"⟩] }],
       { name := ctx.ddmsName .v5_0 "security"
         attributes := ism "excludeFromRollup" "true" :: marked }] }

theorem kept_rebuilt_about :
    ∃ r r', ofElement {} .v5_0 (about []) = .ok r ∧ r.Kept ∧
      commit {} r.toDraft = .ok (some r') ∧ (r' == r) = true := by
  have hread : (ofElement {} .v5_0 (about [])).toOption.map (fun r => decide r.Kept) =
      some true := by decide +kernel
  obtain ⟨r, hr, hk⟩ := Option.map_eq_some_iff.1 hread
  have hkept := of_decide_eq_true hk
  obtain ⟨r', hr'⟩ := kept_rebuilt {} .v5_0 (about []) r (toOption_ok.1 hr) hkept
  exact ⟨r, r', toOption_ok.1 hr, hkept, hr'⟩

/-- A rank from another namespace, as on a keyword. -/
def rankAttribute : Xml.Attribute := ⟨.prefixed "x" "urn:extra" "rank", "1"⟩

/-- A keyword with a rank is made again without it. -/
theorem ranked_not_rebuilt :
    ∃ r r', ofElement {} .v5_0 (about [rankAttribute]) = .ok r ∧ commit {} r.toDraft = .ok (some r') ∧
      (r' == r) = false := by
  have hread : ((ofElement {} .v5_0 (about [rankAttribute])).toOption.bind fun r =>
      ((commit {} r.toDraft).toOption.bind id).map fun r' => r' == r) = some false := by
    decide +kernel
  obtain ⟨r, hr, hsome⟩ := Option.bind_eq_some_iff.1 hread
  obtain ⟨r', hr', hne⟩ := Option.map_eq_some_iff.1 hsome
  obtain ⟨o, ho, rfl⟩ := Option.bind_eq_some_iff.1 hr'
  exact ⟨r, r', toOption_ok.1 hr, toOption_ok.1 ho, hne⟩

end Resource

end DiscoveryMetadata
