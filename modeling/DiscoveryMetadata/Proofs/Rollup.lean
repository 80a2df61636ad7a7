import DiscoveryMetadata.Proofs.Gates.Resource
import DiscoveryMetadata.Proofs.Text.Words
/-
  How far the roll-up of classifications reaches.

  A resource is admitted when it is read from an element, or assembled from components that are
  already there; both end in the same rules, and one of them compares the classification of the
  resource with those of its components. With a marking of the United States on the resource, no
  part directly inside it but its security carries one that ranks higher, or one of NATO
  (`Resource.admitted_bounds`).

  The comparison looks at the parts directly inside the resource and at nothing below them: an
  organization inside a component can be classified TS in a resource classified U
  (`Resource.nested_unbounded`).

  Version 2.0 takes a list of tokens as a classification, and each token is looked up in the
  vocabulary; the comparison looks up the text as it is written. So it bounds the tokens of a text
  without white space (`Resource.tokens_bounded`). A text with white space is no marking
  (`Marking.system?_of_space`), and whatever tokens it lists, it is passed over
  (`Resource.listed_unbounded`).
-/
namespace DiscoveryMetadata

open Xml (Element)

/-- Under a marking of the United States, `inner` is none of NATO, and no higher one of the United
States. -/
def Marking.Bounds (outer inner : String) : Prop :=
  Marking.system? inner ≠ some .nato ∧
    (Marking.system? inner = some .us → Marking.rank inner ≤ Marking.rank outer)

namespace Part

/-- The part carries the classification among its own security attributes. -/
def Classified (p : Part) (marking : String) : Prop :=
  ∃ a, attributes a ∈ p.children ∧ a.classification = marking

/-- The part is the security of the resource. -/
def IsSecurity (p : Part) : Prop := ∃ c, p = security c

/-- One part lies inside another, at any depth, and no security lies on the way. -/
def ReachesBeside : Part → Part → Prop :=
  Relation.ReflTransGen fun p q => q ∈ p.children ∧ ¬ q.IsSecurity

end Part

namespace Marking

theorem us_iff {m : String} : system? m = some .us ↔ m ∈ us := by
  unfold system?
  split_ifs with hu hn <;> simp_all

/-- The markings of the United States are none that a person must review. -/
theorem rank_nonneg {m : String} (h : system? m = some .us) : 0 ≤ rank m := by
  have hall : ∀ u ∈ us, 0 ≤ rank u := by decide
  exact hall m (us_iff.1 h)

/-- Text that is no marking keeps within the bounds of any. -/
theorem Bounds.of_no_marking {outer inner : String} (h : system? inner = none) :
    Bounds outer inner := by
  rw [Bounds, h]
  constructor
  · intro hnato
    cases hnato
  · intro hus
    cases hus

/-- A text with white space is no marking. -/
theorem system?_of_space {m : String} (h : ∃ c ∈ m.toList, Text.isSpace c = true) :
    system? m = none := by
  have hall : (us ++ nato).all (fun u => u.toList.all fun c => !Text.isSpace c) = true := by decide
  have hmarkings : ∀ u ∈ us ++ nato, ∀ c ∈ u.toList, Text.isSpace c = false := by
    simpa only [List.all_eq_true, Bool.not_eq_true'] using hall
  obtain ⟨c, hc, hspace⟩ := h
  have hm : m ∉ us ++ nato := fun hm => by simp [hmarkings m hm c hc] at hspace
  rw [List.mem_append, not_or] at hm
  simp [system?, hm.1, hm.2]

end Marking

/-- A text without white space has no other word than itself. -/
theorem Text.mem_words_of_no_space {t w : String} (h : ∀ c ∈ t.toList, isSpace c = false)
    (hw : w ∈ words t) : w = t := by
  rw [words, fields_of_no_space h, List.mem_map] at hw
  obtain ⟨cs, hcs, rfl⟩ := hw
  rw [List.mem_singleton.1 (List.mem_of_mem_filter hcs), String.ofList_toList]

namespace Resource

variable {ctx : Context} {v : Version} {r : Resource}

/-- A resource is admitted at a version: it is read from an element, or assembled from components
in any order and the attributes of the resource. -/
inductive Admitted (ctx : Context) (v : Version) (r : Resource) : Prop
  | read (e : Element) (h : ofElement ctx v e = .ok r)
  | assembled (components : List TopLevel) (markings : Markings) (security : SecurityAttributes)
      (notice : NoticeAttributes) (extensible : ExtensibleAttributes)
      (h : make ctx v components markings security notice extensible = .ok r)

/-- The rules are checked last, whichever way a resource comes about. -/
theorem Admitted.exists_checked (hr : Admitted ctx v r) : ∃ c, checked c = .ok r := by
  cases hr with
  | read e h =>
    simp only [ofElement, bind_ok, within_ok] at h
    obtain ⟨_, -, _, -, _, -, _, -, h⟩ := h
    exact ⟨_, h⟩
  | assembled ts ms s n x h =>
    simp only [make, bind_ok, within_ok] at h
    obtain ⟨_, _, h⟩ := h
    exact ⟨_, h⟩

theorem checkClassification_ok {outer inner : String}
    (h : checkClassification outer inner = .ok ()) (ho : Marking.system? outer = some .us) :
    Marking.Bounds outer inner := by
  have hr := Marking.rank_nonneg ho
  unfold checkClassification at h
  cases hi : Marking.system? inner with
  | none => exact .of_no_marking hi
  | some system =>
    simp only [ho, hi, bind_ok, demand_ok, forbid_ok, exists_unit, decide_eq_true_eq] at h
    obtain ⟨rfl, h⟩ := h
    constructor
    · intro hnato
      cases hi.symm.trans hnato
    · intro _
      simpa [hr] using h

/-- The attributes that a component of a resource carries are those that the roll-up looks at. -/
theorem security?_of_child {t : TopLevel} {a : SecurityAttributes}
    (h : Part.attributes a ∈ (Part.ofTopLevel t).children) : t.security? = some a := by
  cases t with
  | producer c =>
    -- the entity of a producer is a part of its own, and never a group of attributes
    have hp : ∀ p : Producer, Part.ofProducer p ≠ .attributes a := by rintro (_ | _ | _) <;> nofun
    simp_all [Part.ofTopLevel, Part.children, TopLevel.security?, Component.security?]
  | _ =>
    simp_all [Part.ofTopLevel, Part.children, TopLevel.security?, Component.security?,
      Part.ofExtents]

/-- A group with a classification is not empty. -/
theorem security_full {a : SecurityAttributes} (h : a.classification ≠ "") :
    a.isEmpty = false := by
  rw [SecurityAttributes.isEmpty, List.isEmpty_eq_false_iff]
  intro hn
  simp [SecurityAttributes.classification, SecurityAttributes.get, hn] at h

/-- The last check of a resource compares every component but the security. -/
theorem checked_bounds {c : Resource} (h : checked c = .ok r)
    (hc : Marking.system? r.security.classification = some .us) {t : TopLevel}
    (ht : t ∈ r.components) (hs : ∀ s, t ≠ .security s) {a : SecurityAttributes}
    (ha : t.security? = some a) : Marking.Bounds r.security.classification a.classification := by
  simp only [checked, bind_ok, check_ok, pure_ok, exists_unit] at h
  obtain ⟨hrules, rfl⟩ := h
  have hfull : c.security.isEmpty = false := security_full (by rintro h; rw [h] at hc; cases hc)
  have hrollup : c.checkRollup = .ok () := by
    simp only [rules, hfull, Bool.not_false, if_true, bind_ok, exists_unit] at hrules
    obtain ⟨-, hrules⟩ := hrules
    split at hrules <;> simp only [bind_ok, exists_unit] at hrules <;> tauto
  rw [checkRollup, forM_ok] at hrollup
  by_cases hm : a.classification = ""
  · rw [hm]
    exact .of_no_marking rfl
  · refine checkClassification_ok (hrollup _ (List.mem_filterMap.2 ⟨t, ht, ?_⟩)) hc
    cases t with
    | security s => exact absurd rfl (hs s)
    | _ => simp_all [countedClassification?, TopLevel.security?, String.isEmpty_iff]

/-- Whatever classification a part directly inside an admitted resource carries is bounded as it is
written. -/
theorem bounds_of_admitted (hr : Admitted ctx v r)
    (hc : Marking.system? r.security.classification = some .us) {p : Part}
    (hp : p ∈ (Part.resource r).children) (hs : ¬ p.IsSecurity) {m : String}
    (hm : p.Classified m) : Marking.Bounds r.security.classification m := by
  obtain ⟨a, ha, rfl⟩ := hm
  obtain ⟨c, hcheck⟩ := hr.exists_checked
  rw [Part.children, List.mem_append] at hp
  rcases hp with hp | hp
  · -- the groups of the resource itself hold no group
    simp only [List.mem_cons, List.not_mem_nil, or_false] at hp
    rcases hp with rfl | rfl | rfl <;> simp [Part.children] at ha
  · obtain ⟨t, ht, rfl⟩ := List.mem_map.1 hp
    refine checked_bounds hcheck hc ht ?_ (security?_of_child ha)
    rintro s rfl
    exact hs ⟨s, rfl⟩

/-- Under a resource with a marking of the United States, no part directly inside it but the
security carries a marking of NATO, or one of the United States that ranks higher. -/
theorem admitted_bounds (ctx : Context) (v : Version) (r : Resource) (hr : Admitted ctx v r)
    (hc : Marking.system? r.security.classification = some .us) (p : Part)
    (hp : p ∈ (Part.resource r).children) (hs : ¬ p.IsSecurity) (m : String)
    (hm : p.Classified m) : Marking.Bounds r.security.classification m :=
  bounds_of_admitted hr hc hp hs hm

/-- What is made from a draft is assembled from the components that were made first. -/
theorem Accepted.admitted (h : Accepted ctx v r) : Admitted ctx v r := by
  cases h with
  | read e h => exact .read e h
  | made d h =>
    have hb := (Buildable.commitAs_some.1 h).2
    simp only [Buildable.build, bind_ok] at hb
    obtain ⟨ts, -, n, -, x, -, s, -, hm⟩ := hb
    exact .assembled ts d.markings s n x hm

/-- A resource classified U whose point of contact is an organization with a part of its own, and
that part is classified TS. -/
def nested : Draft :=
  let marked := fun m => ({ values := [("classification", m), ("ownerProducer", "USA")] } :
    SecurityAttributes.Draft)
  { contacted with
    pointsOfContact :=
      [{ organization :=
          { contact := { names := ["Office"] }
            subOrganizations := [{ value := "Cell", security := marked "TS" }] }
         security := marked "U" }] }

theorem admitted_bounds_nested :
    ∃ r, Admitted {} .v5_0 r ∧ Marking.system? r.security.classification = some .us ∧
      ∀ p ∈ (Part.resource r).children, ¬ p.IsSecurity → ∀ m, p.Classified m →
        Marking.Bounds r.security.classification m := by
  have hmade : ((Buildable.commitAs {} .v5_0 nested).toOption.bind id).map
      (·.security.classification) = some "U" := by decide +kernel
  obtain ⟨r, hr, hc⟩ := Option.map_eq_some_iff.1 hmade
  obtain ⟨o, ho, rfl⟩ := Option.bind_eq_some_iff.1 hr
  have ha : Admitted {} .v5_0 r := Accepted.admitted (.made _ (toOption_ok.1 ho))
  have hu : Marking.system? r.security.classification = some .us := by rw [hc]; decide
  exact ⟨r, ha, hu, admitted_bounds {} .v5_0 r ha hu⟩

/-- The classifications of the parts of the organizations that are points of contact. -/
def contactMarkings (r : Resource) : List String :=
  r.producers.flatMap fun p =>
    match p.entity with
    | some (.organization o) => o.subOrganizations.map (·.security.classification)
    | _ => []

/-- Below the parts directly inside a resource, nothing bounds a classification. -/
theorem nested_unbounded :
    ∃ r, Buildable.commitAs {} .v5_0 nested = .ok (some r) ∧ Admitted {} .v5_0 r ∧
      r.security.classification = "U" ∧ ∃ p, Part.ReachesBeside (.resource r) p ∧
        p.Classified "TS" ∧ ¬ Marking.Bounds "U" "TS" := by
  have hmade : ((Buildable.commitAs {} .v5_0 nested).toOption.bind id).map
      (fun r => (r.security.classification, r.contactMarkings)) = some ("U", ["TS"]) := by
    decide +kernel
  obtain ⟨r, hr, hv⟩ := Option.map_eq_some_iff.1 hmade
  obtain ⟨o, ho, rfl⟩ := Option.bind_eq_some_iff.1 hr
  obtain ⟨hu, hm⟩ := Prod.mk.inj hv
  have hts : "TS" ∈ r.contactMarkings := by simp [hm]
  refine ⟨r, toOption_ok.1 ho, Accepted.admitted (.made _ (toOption_ok.1 ho)), hu, ?_⟩
  obtain ⟨p, hp, hts⟩ := List.mem_flatMap.1 hts
  have hin : Part.producerRole p ∈ (Part.resource r).children := by
    obtain ⟨t, ht, htp⟩ := List.mem_filterMap.1 hp
    cases t <;> cases htp
    exact List.mem_append_right _ (List.mem_map.2 ⟨_, ht, rfl⟩)
  obtain ⟨o, ho⟩ : ∃ o, p.entity = some (.organization o) := by
    cases he : p.entity with
    | none => simp [he] at hts
    | some q => cases q <;> simp_all
  rw [ho] at hts
  obtain ⟨s, hs, hts⟩ := List.mem_map.1 hts
  have hbound : ¬ Marking.Bounds "U" "TS" := by unfold Marking.Bounds; decide
  refine ⟨.subOrganization s, ?_, ⟨s.security, List.mem_singleton.2 rfl, hts⟩, hbound⟩
  -- three steps down: the role, its organization, and the part of that
  have hr : Part.ReachesBeside (.resource r) (.producerRole p) :=
    .single ⟨hin, by simp [Part.IsSecurity]⟩
  have hp : Part.ReachesBeside (.resource r) (.organization o) :=
    hr.tail ⟨by simp [Part.children, ho, Part.ofProducer], by simp [Part.IsSecurity]⟩
  exact hp.tail ⟨List.mem_map.2 ⟨s, hs, rfl⟩, by simp [Part.IsSecurity]⟩

/-- A text with white space is passed over, whatever its words are. -/
theorem checkClassification_of_space {outer inner : String}
    (hspace : ∃ c ∈ inner.toList, Text.isSpace c = true) :
    checkClassification outer inner = .ok () := by
  simp [checkClassification, Marking.system?_of_space hspace]

/-- In a resource of version 2.0 with a marking of the United States, take the classification of a
part directly inside it but the security. If it is written without white space, then no token of it
is a marking of NATO, or one of the United States that ranks higher. If it is written with white
space, then the comparison passes it over, whatever its tokens are. -/
theorem tokens_bounded (ctx : Context) (r : Resource) (hr : Admitted ctx .v2_0 r)
    (hc : Marking.system? r.security.classification = some .us) (p : Part)
    (hp : p ∈ (Part.resource r).children) (hs : ¬ p.IsSecurity) (m : String)
    (hm : p.Classified m) :
    ((∀ c ∈ m.toList, Text.isSpace c = false) →
      ∀ w ∈ Text.words m, Marking.Bounds r.security.classification w) ∧
    ((∃ c ∈ m.toList, Text.isSpace c = true) →
      checkClassification r.security.classification m = .ok ()) := by
  refine ⟨fun hspace w hw => ?_, checkClassification_of_space⟩
  rw [Text.mem_words_of_no_space hspace hw]
  exact bounds_of_admitted hr hc hp hs hm

/-- A resource of version 2.0 that is classified U, with a title of some classification. -/
def titled (classification : String) : Draft :=
  let marked := fun m => ({ values := [("classification", m), ("ownerProducer", "USA")] } :
    SecurityAttributes.Draft)
  { identifiers := [{ qualifier := "urn:isbn", value := "0" }]
    titles := [{ value := "Title", security := marked classification }]
    pointsOfContact :=
      [{ organization := { contact := { names := ["Office"] } }, security := marked "U" }]
    subjectCoverages := [{ keywords := [{ value := "word" }] }]
    securityComponent := { security := marked "U" }
    security := marked "U" }

/-- Such a resource is admitted, with its title inside it. -/
theorem titled_admitted {m : String} (h : ((Buildable.commitAs {} .v2_0 (titled m)).toOption.bind
      id).map (fun r => (r.security.classification, r.titles.map (·.security.classification))) =
        some ("U", [m])) :
    ∃ r, Buildable.commitAs {} .v2_0 (titled m) = .ok (some r) ∧ Admitted {} .v2_0 r ∧
      r.security.classification = "U" ∧ ∃ p ∈ (Part.resource r).children, ¬ p.IsSecurity ∧
        p.Classified m := by
  obtain ⟨r, hr, hv⟩ := Option.map_eq_some_iff.1 h
  obtain ⟨o, ho, rfl⟩ := Option.bind_eq_some_iff.1 hr
  obtain ⟨hu, hm⟩ := Prod.mk.inj hv
  have hmem : m ∈ r.titles.map (·.security.classification) := by simp [hm]
  obtain ⟨c, hc, hclass⟩ := List.mem_map.1 hmem
  refine ⟨r, toOption_ok.1 ho, Accepted.admitted (.made _ (toOption_ok.1 ho)), hu, .caption c, ?_,
    by simp [Part.IsSecurity], c.security, by simp [Part.children], hclass⟩
  obtain ⟨t, ht, htc⟩ := List.mem_filterMap.1 hc
  cases t <;> simp only [Option.ite_none_right_eq_some, Option.some.injEq, reduceCtorEq] at htc
  obtain ⟨-, rfl⟩ := htc
  exact List.mem_append_right _ (List.mem_map.2 ⟨_, ht, rfl⟩)

theorem tokens_bounded_titled :
    ∃ r, Admitted {} .v2_0 r ∧ Marking.system? r.security.classification = some .us ∧
      ∃ p ∈ (Part.resource r).children, ¬ p.IsSecurity ∧ p.Classified "U" ∧
        ∀ w ∈ Text.words "U", Marking.Bounds r.security.classification w := by
  obtain ⟨r, -, ha, hu, p, hp, hs, hm⟩ := titled_admitted (m := "U") (by decide +kernel)
  have hus : Marking.system? r.security.classification = some .us := by rw [hu]; decide
  have hspace : ∀ c ∈ "U".toList, Text.isSpace c = false := by simp [Text.isSpace]
  exact ⟨r, ha, hus, p, hp, hs, hm, (tokens_bounded {} r ha hus p hp hs "U" hm).1 hspace⟩

/-- A list of tokens is passed over: in a resource classified U, a title can be classified with U
and TS. -/
theorem listed_unbounded :
    ∃ r, Buildable.commitAs {} .v2_0 (titled "U TS") = .ok (some r) ∧ Admitted {} .v2_0 r ∧
      r.security.classification = "U" ∧ ∃ p ∈ (Part.resource r).children, ¬ p.IsSecurity ∧
        p.Classified "U TS" ∧ "TS" ∈ Text.words "U TS" ∧ ¬ Marking.Bounds "U" "TS" := by
  obtain ⟨r, hmade, ha, hu, p, hp, hs, hm⟩ := titled_admitted (m := "U TS") (by decide +kernel)
  exact ⟨r, hmade, ha, hu, p, hp, hs, hm, by decide, by unfold Marking.Bounds; decide⟩

end Resource

end DiscoveryMetadata
