import DiscoveryMetadata.Proofs.Places.Coverages
import DiscoveryMetadata.Proofs.Places.Management
import DiscoveryMetadata.Resource
/-
  A resource that cannot be read is refused at a place in the document.

  Every reader of a component places its faults in the element that it reads, so what leaves the
  reader of a resource is a broken rule with the names of elements that lead from the root down to
  the one it is about (`Resource.refused_at_place`). No other kind of fault gets out: the schemas
  and the tables of the standard vocabularies are there wherever the readers ask for them.
-/
namespace DiscoveryMetadata

open Xml (Element)
open Fault (Unplaced Placed Beneath)

variable {ctx : Context} {v : Version}

namespace TopLevel

/-- A component that is wrapped as one of a resource is placed as the component is. -/
theorem map_fails {α : Type} {x : Outcome α} {wrap : α → TopLevel} {e c : Element}
    (hc : c ∈ e.children) {name : String} (hl : c.localName = name) (hn : name ≠ "")
    (hx : c.writtenName ≠ "" → Fails (Placed c) x) : Fails (Beneath e) (x.map wrap) :=
  Fails.map.2 ((hx (writtenName_ne hn hl)).inChild hc)

/-- Only elements with the names of components are read as such, and none of these is the name of a
wrapper. -/
theorem ofDdmsElement_fails (hctx : ctx.Standard) {e c : Element} (hc : c ∈ e.children) :
    Fails (Beneath e) (ofDdmsElement ctx v c) := by
  have hne {name : String} (hl : c.localName = name) (other : String) (h : name ≠ other) :
      c.localName ≠ other := hl ▸ h
  unfold ofDdmsElement
  split
  next hl => exact map_fails hc hl (by decide) (Identifier.places v c)
  next hl => exact map_fails hc hl (by decide) (Language.places v c)
  next hl => exact map_fails hc hl (by decide) (Dates.places v c)
  next hl => exact map_fails hc hl (by decide) (Rights.places v c)
  next hl => exact map_fails hc hl (by decide) (Source.places hctx v c)
  next hl => exact map_fails hc hl (by decide) (ResourceType.places hctx v c)
  next hl =>
    exact map_fails hc hl (by decide) fun he => Format.places he (hne hl _ (by decide))
  next hl =>
    exact map_fails hc hl (by decide) fun he => SubjectCoverage.places hctx he (hne hl _ (by decide))
  next hl => exact map_fails hc hl (by decide) (VirtualCoverage.places hctx v c)
  next hl =>
    exact map_fails hc hl (by decide) fun he => TemporalCoverage.places hctx he (hne hl _ (by decide))
  next hl =>
    exact map_fails hc hl (by decide) fun he =>
      GeospatialCoverage.places hctx he (hne hl _ (by decide))
  next hl => exact map_fails hc hl (by decide) (Security.places hctx v c)
  next =>
    -- names that belong to some versions only, or to several kinds
    split_ifs with hmanagement hrelated hcaption hproducer
    · simp only [Bool.and_eq_true, decide_eq_true_eq] at hmanagement
      exact map_fails hc hmanagement.1 (by decide) (Management.places hctx v c)
    · refine map_fails hc hrelated (by cases v <;> decide) fun he =>
        RelatedResource.places hctx he (hne hrelated _ (by cases v <;> decide))
    · obtain ⟨kind, hkind⟩ := Option.isSome_iff_exists.1 hcaption
      have hname := List.find?_some hkind
      exact map_fails hc (of_decide_eq_true hname).symm (by cases kind <;> decide)
        (Caption.places hctx v c)
    · obtain ⟨kind, hkind⟩ := Option.isSome_iff_exists.1 hproducer
      have hname := List.find?_some hkind
      exact map_fails hc (of_decide_eq_true hname).symm (by cases kind <;> decide)
        (ProducerRole.places hctx v c)
    · exact .beneath (by simp [outOfPlace])

/-- An extensible element can be without a name, and then has no part that could fail. -/
theorem ofExtensible_fails {e c : Element} (hc : c ∈ e.children) :
    Fails (Beneath e) (ExtensibleElement.ofElement ctx v c) := by
  have hrules : ∀ x : ExtensibleElement, Fails Unplaced x.rules := by
    simp [ExtensibleElement.rules]
  by_cases hn : c.writtenName = ""
  · exact .bind (.nameless hn (hrules _).beneath) fun _ _ => .pure
  · exact .bind ((Fails.check hn (hrules ⟨⟨c, v, []⟩⟩)).inChild hc) fun _ _ => .pure

theorem ofElement_fails (hctx : ctx.Standard) {e c : Element} (hc : c ∈ e.children) :
    Fails (Beneath e) (ofElement ctx v c) := by
  unfold ofElement
  split_ifs
  · exact ofDdmsElement_fails hctx hc
  · exact Fails.map.2 (ofExtensible_fails hc)

end TopLevel

namespace Resource

theorem checkClassification_fails (outer inner : String) :
    Fails Unplaced (checkClassification outer inner) := by
  unfold checkClassification
  split <;> simp

theorem rules_fails (r : Resource) : Fails Unplaced r.rules := by
  have hnames : Fails Unplaced
      (forM singleNames fun name => requireChildren r.element name 0 1) :=
    .forM fun _ _ => requireChildren_fails _ _ _
  have hrollup : Fails Unplaced r.checkRollup := .forM fun _ _ => checkClassification_fails _ _
  unfold rules
  refine .bind (requireDdms_fails _) fun _ _ => ?_
  split_ifs <;> simp [Markings.check_fails, missingProducer, hnames, hrollup]

theorem places (hctx : ctx.Standard) : Places ofElement ctx := fun _ e he =>
  .bind (.own he (Markings.ofElement_fails e)) fun _ _ =>
    .bind (.within he (.mapM fun _ hc => TopLevel.ofElement_fails hctx hc)) fun _ _ =>
      .bind (.own he (SecurityAttributes.ofElement_fails hctx e)) fun _ _ =>
        .bind (.own he (NoticeAttributes.ofElement_fails hctx e)) fun _ _ =>
          .bind (.check he (rules_fails _)) fun _ _ => .pure

/-- With the standard vocabularies, whatever is wrong with a resource is said of a place in the
document: a chain of names that starts with that of its element, each next one that of a child of
the element reached so far. -/
theorem refused_at_place (ctx : Context) (hctx : ctx.vocabulary = .ok .standard) (v : Version)
    (e : Element) (he : e.writtenName ≠ "") (f : Fault) (hf : ofElement ctx v e = .error f) :
    ∃ m names, f = .invalid m (some (Fault.place names)) ∧ Leads e names := by
  obtain ⟨m, names, hn, rfl⟩ := places hctx v e he f hf
  exact ⟨m, names, rfl, hn⟩

/-- An element of version 2.0 with a keyword that has no value, inside the wrapper of a subject
coverage. -/
def wordless : Element :=
  let element := fun name (children : List Element) =>
    { name := .prefixed "ddms" (Version.ddmsUri .v2_0) name, children : Element }
  element "Resource" [element "subjectCoverage" [element "Subject" [element "keyword" []]]]

theorem refused_at_place_wordless :
    ∃ f, ofElement {} .v2_0 wordless = .error f ∧ (∃ m names, f = .invalid m (some (Fault.place
      names)) ∧ Leads wordless names) ∧
      f.locator = some "/ddms:Resource/ddms:subjectCoverage/ddms:Subject/ddms:keyword" := by
  have hread : (match ofElement {} .v2_0 wordless with
      | .error f => f.locator
      | .ok _ => none) =
        some "/ddms:Resource/ddms:subjectCoverage/ddms:Subject/ddms:keyword" := by decide +kernel
  cases hf : ofElement {} .v2_0 wordless with
  | ok r => simp [hf] at hread
  | error f =>
    rw [hf] at hread
    exact ⟨f, rfl, refused_at_place {} rfl .v2_0 wordless (by decide) f hf, hread⟩

end Resource

end DiscoveryMetadata
