import DiscoveryMetadata.Proofs.Returning.Management
/-
  Link attributes on the components that carry them.

  Link attributes are checked by the rules of the version that they are made for, and do not say
  afterwards which version that was. Three kinds of components take them in, perhaps for another
  version: a link, the identifier of a task, and a revision or recall. Only the second one is read
  from the element that is made for it, so that the rules of its own version are asked again; the
  others ask for the type of the link alone. Since role and label are free before version 4.0.1,
  that is where link attributes of an older version may get through (`LinkHost.valid_iff`), and the
  element with them cannot be read any more.
-/
namespace DiscoveryMetadata

open Xml (Element)

namespace LinkAttributes

variable {v w : Version} {a : LinkAttributes} {e : Element}

/-- What is asked since version 4.0.1 only: a role is a reference, and a label is a name. -/
def Named (a : LinkAttributes) : Prop :=
  ifPresent a.role Uri.check = .ok () ∧ ifPresent a.label Text.checkNCName = .ok ()

/-- What is asked in all versions, and what is asked since version 4.0.1 only. -/
theorem check_iff : a.check v = .ok () ↔
    (checkOneOf "type" types a.linkType = .ok () ∧ ifPresent a.href Uri.check = .ok () ∧
      ifPresent a.arcrole Uri.check = .ok () ∧ checkOneOf "show" showTypes a.show_ = .ok () ∧
      checkOneOf "actuate" actuateTypes a.actuate = .ok ()) ∧
    (v.atLeast .v4_0_1 = true → a.Named) := by
  unfold check Named
  by_cases hv : v.atLeast .v4_0_1 = true <;>
    simp only [hv, if_true, if_false, bind_ok, exists_unit, Bool.false_eq_true] <;> tauto

/-- For attributes that keep the rules of some version, role and label are all that is left to ask
by those of another. -/
theorem check_iff_named (h : a.check w = .ok ()) :
    a.check v = .ok () ↔ (v.atLeast .v4_0_1 = true → a.Named) :=
  check_iff.trans (and_iff_right (check_iff.1 h).1)

theorem check_of_read (h : ofElement v e = .ok a) : a.check v = .ok () := by
  obtain ⟨hcheck, rfl⟩ := checked_ok.1 h
  exact hcheck

/-- The rules have not changed but in version 4.0.1. -/
theorem check_of_check (h : a.check w = .ok ())
    (hv : w.atLeast .v4_0_1 = true ∨ v.atLeast .v4_0_1 = false) : a.check v = .ok () := by
  rw [check_iff_named h]
  intro hnew
  rcases hv with hw | hold
  · exact (check_iff_named h).1 h hw
  · rw [hold] at hnew
    cases hnew

end LinkAttributes

/-- The identifier of a task is read from the element that is made for it. -/
theorem TaskId.ofElement_of_make {ctx : Context} {v : Version} {c : TaskId} {a : LinkAttributes}
    {value taskingSystem network otherNetwork : String}
    (h : make ctx v value taskingSystem network otherNetwork a = .ok c) :
    ofElement ctx v c.element = .ok c := by
  have hread := h
  simp only [make, ofElement, bind_ok, within_ok, exists_unit, pure_ok] at h
  obtain ⟨_, -, -, rfl⟩ := h
  exact hread

/-- A component with link attributes. -/
inductive LinkHost where
  | link (c : Link)
  | taskId (c : TaskId)
  | revisionRecall (c : RevisionRecall)

namespace LinkHost

/-- The link attributes that the component carries. -/
def attributes : LinkHost → LinkAttributes
  | link c => c.link
  | taskId c => c.link
  | revisionRecall c => c.link

/-- The element of the component. -/
def element : LinkHost → Element
  | link c => c.element
  | taskId c => c.element
  | revisionRecall c => c.element

/-- A link has the type that is fixed for it; for the others a type may be missing. -/
def Typed : LinkHost → Prop
  | link c => c.link.linkType = Link.fixedType
  | taskId c => c.link.linkType = "" ∨ c.link.linkType = TaskId.linkType
  | revisionRecall c => c.link.linkType = "" ∨ c.link.linkType = RevisionRecall.linkType

/-- The link attributes keep the rules of the version, and their type is one for the component. -/
structure Valid (v : Version) (host : LinkHost) : Prop where
  check : host.attributes.check v = .ok ()
  typed : host.Typed

/-- The component is read from the element. -/
inductive ReadFrom (ctx : Context) (v : Version) (e : Element) : LinkHost → Prop
  | link {c : Link} (h : Link.ofElement ctx v e = .ok c) : ReadFrom ctx v e (.link c)
  | taskId {c : TaskId} (h : TaskId.ofElement ctx v e = .ok c) : ReadFrom ctx v e (.taskId c)
  | revisionRecall {c : RevisionRecall} (h : RevisionRecall.ofElement ctx v e = .ok c) :
    ReadFrom ctx v e (.revisionRecall c)

/-- The component is made with these link attributes and whatever else it has. -/
inductive MadeWith (ctx : Context) (v : Version) (a : LinkAttributes) : LinkHost → Prop
  | link {s : SecurityAttributes} {c : Link} (h : Link.make ctx v a s = .ok c) :
    MadeWith ctx v a (.link c)
  | taskId {value taskingSystem network otherNetwork : String} {c : TaskId}
    (h : TaskId.make ctx v value taskingSystem network otherNetwork a = .ok c) :
    MadeWith ctx v a (.taskId c)
  | revisionRecall {value revisionType network otherNetwork : String} {links : List Link}
    {details : List ManagedText} {revisionId : Int} {s : SecurityAttributes} {c : RevisionRecall}
    (h : RevisionRecall.make ctx v value links details revisionId revisionType network otherNetwork
      a s = .ok c) : MadeWith ctx v a (.revisionRecall c)

/-- The rules of its version are asked of the link attributes when the component is made. -/
def asksAgain : LinkHost → Bool
  | taskId _ => true
  | _ => false

variable {ctx : Context} {v w : Version} {a : LinkAttributes} {e : Element} {host : LinkHost}

section Rules

theorem typed_of_link {c : Link} (h : c.rules = .ok ()) : (LinkHost.link c).Typed := by
  simp only [Link.rules, bind_ok, exists_unit, demand_ok, beq_iff_eq] at h
  exact h.2.2.2

theorem typed_of_taskId {c : TaskId} (h : c.rules = .ok ()) : (LinkHost.taskId c).Typed := by
  simp only [TaskId.rules, bind_ok, exists_unit, demand_ok, Bool.or_eq_true, String.isEmpty_iff,
    beq_iff_eq] at h
  exact h.2.2.1

theorem typed_of_revisionRecall {c : RevisionRecall} (h : c.rules = .ok ()) :
    (LinkHost.revisionRecall c).Typed := by
  simp only [RevisionRecall.rules, bind_ok, exists_unit, demand_ok, Bool.or_eq_true,
    String.isEmpty_iff, beq_iff_eq] at h
  exact h.2.2.2.2.2.2.1

end Rules

/-- From the element of a component its link attributes are read, and the rules ask for a type. -/
theorem ReadFrom.attributes_read (h : host.ReadFrom ctx v e) :
    LinkAttributes.ofElement v e = .ok host.attributes ∧ host.Typed := by
  cases h with
  | link h =>
    simp only [Link.ofElement, Link.checked, bind_ok, within_ok, check_ok, exists_unit,
      pure_ok] at h
    obtain ⟨l, hl, s, -, hrules, rfl⟩ := h
    exact ⟨hl, typed_of_link hrules⟩
  | taskId h =>
    simp only [TaskId.ofElement, bind_ok, within_ok, check_ok, exists_unit, pure_ok] at h
    obtain ⟨l, hl, hrules, rfl⟩ := h
    exact ⟨hl, typed_of_taskId hrules⟩
  | revisionRecall h =>
    simp only [RevisionRecall.ofElement, RevisionRecall.checked, bind_ok, within_ok, check_ok,
      exists_unit, pure_ok] at h
    obtain ⟨_, -, _, -, _, -, l, hl, _, -, hrules, rfl⟩ := h
    exact ⟨hl, typed_of_revisionRecall hrules⟩

theorem ReadFrom.valid (h : host.ReadFrom ctx v e) : host.Valid v :=
  ⟨LinkAttributes.check_of_read h.attributes_read.1, h.attributes_read.2⟩

/-- What a component is made with is what it carries, with a type that the rules let pass. From its
element the link attributes are read as far as they keep the rules, and if these are asked again
they do keep them. -/
theorem MadeWith.attributes_eq (h : host.MadeWith ctx v a) :
    host.attributes = a ∧ host.Typed ∧
      LinkAttributes.ofElement v host.element = LinkAttributes.checked v a ∧
      (host.asksAgain = true → a.check v = .ok ()) := by
  cases h with
  | link h =>
    -- the rules of a link ask for its type, and nothing else of the attributes on the element
    simp only [Link.make, Link.checked, bind_ok, within_ok, check_ok, exists_unit, pure_ok] at h
    obtain ⟨e, he, hrules, rfl⟩ := h
    obtain ⟨-, rfl⟩ := SecurityAttributes.addTo_ok.1 he
    refine ⟨rfl, typed_of_link hrules, ?_, by simp [asksAgain]⟩
    rw [element, LinkAttributes.ofElement_mark, LinkAttributes.ofElement_addTo fun _ => rfl]
  | taskId h =>
    -- it is read from the element that is made for it
    have hread := ReadFrom.attributes_read (.taskId (TaskId.ofElement_of_make h))
    have hsame : (LinkHost.taskId _).attributes = a := (TaskId.make_keeps h).2.2.2.2
    rw [hsame] at hread
    have hcheck := LinkAttributes.check_of_read hread.1
    refine ⟨hsame, hread.2, ?_, fun _ => hcheck⟩
    rw [element, hread.1, LinkAttributes.checked_ok.2 ⟨hcheck, rfl⟩]
  | revisionRecall h =>
    simp only [RevisionRecall.make, RevisionRecall.checked, bind_ok, within_ok, check_ok,
      exists_unit, pure_ok] at h
    obtain ⟨e, he, hrules, rfl⟩ := h
    obtain ⟨-, rfl⟩ := SecurityAttributes.addTo_ok.1 he
    refine ⟨rfl, typed_of_revisionRecall hrules, ?_, by simp [asksAgain]⟩
    rw [element, LinkAttributes.ofElement_mark, LinkAttributes.ofElement_addTo]
    intro l
    simp [Element.attribute?_put, v.ddmsUri_ne_xlinkUri]

/-- The link attributes of a component that is read keep the rules of its version. Those that a
component is made with are carried as they are, and their type is one for the component. They keep
the rules of its version if that has role and label free, or if these are a reference and a name;
that is so if the version that they were made for asks it already, or the component itself. If they
do not, nothing is read from the element of the component any more. -/
theorem valid_iff (ctx : Context) (v w : Version) (host : LinkHost) :
    (∀ e : Element, host.ReadFrom ctx v e → host.Valid v) ∧
      ∀ a : LinkAttributes, a.check w = .ok () → host.MadeWith ctx v a →
        host.attributes = a ∧ host.Typed ∧
          (host.Valid v ↔ (v.atLeast .v4_0_1 = true → a.Named)) ∧
          (w.atLeast .v4_0_1 = true ∨ v.atLeast .v4_0_1 = false ∨ host.asksAgain = true →
            host.Valid v) ∧
          (LinkAttributes.ofElement v host.element = .ok a ↔ host.Valid v) ∧
          ((∃ again : LinkHost, again.ReadFrom ctx v host.element) → host.Valid v) := by
  refine ⟨fun e => ReadFrom.valid, fun a ha hmade => ?_⟩
  obtain ⟨hsame, htyped, hread, hasked⟩ := hmade.attributes_eq
  have hvalid : host.Valid v ↔ a.check v = .ok () :=
    ⟨fun h => hsame ▸ h.check, fun h => ⟨hsame.symm ▸ h, htyped⟩⟩
  refine ⟨hsame, htyped, ?_, ?_, ?_, ?_⟩
  · rw [hvalid, LinkAttributes.check_iff_named ha]
  · rw [hvalid]
    rintro (hw | hv | hask)
    · exact LinkAttributes.check_of_check ha (.inl hw)
    · exact LinkAttributes.check_of_check ha (.inr hv)
    · exact hasked hask
  · rw [hread, LinkAttributes.checked_ok, hvalid]
    exact and_iff_left rfl
  · rintro ⟨again, h⟩
    rw [hvalid]
    have hagain := h.attributes_read.1
    rw [hread, LinkAttributes.checked_ok] at hagain
    exact hagain.1

/-- A link that is made for version 5.0 with link attributes of version 3.1. -/
def lent (a : LinkAttributes) : Outcome Link := do
  a.check .v3_1
  Link.make {} .v5_0 a (.empty .v5_0)

/-- A recall that is made for version 5.0 with link attributes of version 3.1. -/
def lentToRecall (a : LinkAttributes) : Outcome RevisionRecall := do
  a.check .v3_1
  let s ← SecurityAttributes.classified {} .v5_0 "U" ["USA"]
  RevisionRecall.make {} .v5_0 "text" [] [] 1 "ADMINISTRATIVE RECALL" "" "" a s

theorem madeWith_of_lent {a : LinkAttributes} {c : Link} (h : lent a = .ok c) :
    a.check .v3_1 = .ok () ∧ (link c).MadeWith {} .v5_0 a := by
  simp only [lent, bind_ok, exists_unit] at h
  exact ⟨h.1, .link h.2⟩

theorem madeWith_of_lentToRecall {a : LinkAttributes} {c : RevisionRecall}
    (h : lentToRecall a = .ok c) :
    a.check .v3_1 = .ok () ∧ (revisionRecall c).MadeWith {} .v5_0 a := by
  simp only [lentToRecall, bind_ok, exists_unit] at h
  obtain ⟨hcheck, s, -, hmade⟩ := h
  exact ⟨hcheck, .revisionRecall hmade⟩

/-- Link attributes whose role is a reference and whose label is a name. -/
def namedLocator : LinkAttributes :=
  { linkType := "locator", href := "http://x", role := "http://x/role", label := "first" }

theorem valid_iff_named :
    ∃ c again : Link, lent namedLocator = .ok c ∧
      Link.ofElement {} .v5_0 c.element = .ok again ∧
      (link c).Valid .v5_0 ∧ (link again).Valid .v5_0 := by
  have hread : ((lent namedLocator).bind fun c =>
      (Link.ofElement {} .v5_0 c.element).map fun again => (c, again)).toOption.isSome = true := by
    decide +kernel
  obtain ⟨⟨c, again⟩, h⟩ := isSome_toOption.1 hread
  obtain ⟨c, hc, h⟩ := bind_ok.1 h
  obtain ⟨again, hagain, h⟩ := map_ok.1 h
  obtain ⟨hcheck, hmade⟩ := madeWith_of_lent hc
  refine ⟨c, again, hc, hagain, ?_, (valid_iff {} .v5_0 .v3_1 _).1 _ (.link hagain)⟩
  obtain ⟨-, -, hnamed, -⟩ := (valid_iff {} .v5_0 .v3_1 _).2 _ hcheck hmade
  have hgood : namedLocator.Named := by
    refine ⟨?_, ?_⟩
    · decide +kernel
    · decide +kernel
  exact hnamed.2 fun _ => hgood

/-- Neither a reference nor a name. -/
def looseLocator : LinkAttributes :=
  { linkType := "locator", href := "http://x", role := "x y", label := "1bad" }

/-- A link and a recall of version 5.0 carry link attributes that its rules refuse. -/
theorem lent_not_valid :
    (∃ c, lent looseLocator = .ok c ∧ (link c).MadeWith {} .v5_0 looseLocator ∧
        ¬(link c).Valid .v5_0) ∧
      ∃ c, lentToRecall { looseLocator with linkType := "resource" } = .ok c ∧
        (revisionRecall c).MadeWith {} .v5_0 { looseLocator with linkType := "resource" } ∧
        ¬(revisionRecall c).Valid .v5_0 := by
  -- the role alone is enough for version 5.0 to refuse them
  have hbad : ∀ a : LinkAttributes, a.role = "x y" → a.check .v5_0 ≠ .ok () := by
    intro a ha h
    obtain ⟨hrole, -⟩ := (LinkAttributes.check_iff.1 h).2 rfl
    rw [ha] at hrole
    exact absurd hrole (by decide +kernel)
  obtain ⟨c, hc⟩ := isSome_toOption.1 (show (lent looseLocator).toOption.isSome = true by
    decide +kernel)
  obtain ⟨r, hr⟩ := isSome_toOption.1 (show (lentToRecall
    { looseLocator with linkType := "resource" }).toOption.isSome = true by decide +kernel)
  obtain ⟨-, hmade⟩ := madeWith_of_lent hc
  obtain ⟨-, hmade'⟩ := madeWith_of_lentToRecall hr
  refine ⟨⟨c, hc, hmade, fun h => hbad _ ?_ h.check⟩, r, hr, hmade', fun h => hbad _ ?_ h.check⟩
  · rw [hmade.attributes_eq.1]
    rfl
  · rw [hmade'.attributes_eq.1]
    rfl

end LinkHost

end DiscoveryMetadata
