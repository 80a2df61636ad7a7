import DiscoveryMetadata.Proofs.Places.Attributes
import DiscoveryMetadata.Record.Format
import DiscoveryMetadata.Record.Plain
import DiscoveryMetadata.Relation
import DiscoveryMetadata.Role.Tasking
/-
  Where a fault lies in the records about a resource, in its producers and in what it is related to.

  Each reader puts the name of its element in front of whatever goes wrong inside: in its
  attributes, in a part that it reads, or in its own rules.
-/
namespace DiscoveryMetadata

open Xml (Element)
open Fault (Unplaced Placed Beneath)

variable {ctx : Context} {v : Version}

namespace Caption

theorem rules_fails (c : Caption) : Fails Unplaced c.rules := by
  unfold rules
  split_ifs <;> simp

theorem places (hctx : ctx.Standard) : Places ofElement ctx := by
  intro v e he
  unfold ofElement
  split
  · exact .own he (by simp)
  · refine .bind (.own he (SecurityAttributes.ofElement_fails hctx e)) fun _ _ => ?_
    exact .bind (.check he (rules_fails _)) fun _ _ => .pure

end Caption

namespace Identifier

theorem rules_fails (c : Identifier) : Fails Unplaced c.rules := by
  simp [rules]

theorem places : Places ofElement ctx := fun _ _ he =>
  .bind (.check he (rules_fails _)) fun _ _ => .pure

end Identifier

@[simp]
theorem requireQualifier_fails (value qualifier : String) :
    Fails Unplaced (ifPresent value fun _ => requireValue "qualifier attribute" qualifier) :=
  .ifPresent (requireValue_fails _ _)

namespace Language

theorem rules_fails (c : Language) : Fails Unplaced c.rules := by
  simp [rules]

theorem places : Places ofElement ctx := fun _ _ he =>
  .bind (.check he (rules_fails _)) fun _ _ => .pure

end Language

@[simp]
theorem ApproximableDate.checkDate_fails (text : String) :
    Fails Unplaced (ApproximableDate.checkDate text) := by
  simp [ApproximableDate.checkDate]

namespace ApproximableDate

@[simp]
theorem ifPresent_checkDate_fails (text : String) : Fails Unplaced (ifPresent text checkDate) :=
  .ifPresent (checkDate_fails text)

@[simp]
theorem ifPresent_checkApproximation_fails (text : String) :
    Fails Unplaced (ifPresent text checkApproximation) :=
  .ifPresent (by simp [checkApproximation])

theorem rules_fails (c : ApproximableDate) : Fails Unplaced c.rules := by
  simp [rules]

theorem places : Places ofElement ctx := fun _ _ he =>
  .bind (.check he (rules_fails _)) fun _ _ => .pure

end ApproximableDate

namespace Dates

theorem checkEntry_fails (name : String) (since : Version) (value : String) :
    Fails Unplaced (DateValues.checkEntry v name since value) :=
  .ifPresent (by simp)

theorem rules_fails (c : Dates) : Fails Unplaced c.rules :=
  .bind (requireDdms_fails _) fun _ _ => .bind (requireSameVersions_fails _) fun _ _ =>
    .bind (.forM fun _ _ => checkEntry_fails _ _ _) fun _ _ => by simp

theorem places : Places ofElement ctx := fun _ e he =>
  .bind (.within he (ApproximableDate.places.readAll (by decide) e.uri)) fun _ _ =>
    .bind (.check he (rules_fails _)) fun _ _ => .pure

end Dates

namespace Rights

theorem flag_fails (e : Element) (name : String) : Fails Unplaced (flag e name) := by
  unfold flag
  dsimp only
  split_ifs
  · exact .ok
  · split <;> simp

theorem places : Places ofElement ctx := fun _ _ he =>
  .own he (by simp [flag_fails])

end Rights

namespace Source

theorem rules_fails (c : Source) : Fails Unplaced c.rules := by
  simp [rules]

theorem places (hctx : ctx.Standard) : Places ofElement ctx := fun _ e he =>
  .bind (.own he (SecurityAttributes.ofElement_fails hctx e)) fun _ _ =>
    .bind (.check he (rules_fails _)) fun _ _ => .pure

end Source

namespace ResourceType

theorem rules_fails (c : ResourceType) : Fails Unplaced c.rules := by
  unfold rules
  split_ifs <;> simp

theorem places (hctx : ctx.Standard) : Places ofElement ctx := fun _ e he =>
  .bind (.own he (SecurityAttributes.ofElement_fails hctx e)) fun _ _ =>
    .bind (.check he (rules_fails _)) fun _ _ => .pure

end ResourceType

namespace Extent

theorem rules_fails (c : Extent) : Fails Unplaced c.rules := by
  simp [rules]

theorem places : Places ofElement ctx := fun _ _ he =>
  .bind (.check he (rules_fails _)) fun _ _ => .pure

end Extent

namespace Format

theorem rules_fails (c : Format) : Fails Unplaced c.rules := by
  unfold rules
  refine .bind (requireDdms_fails _) fun _ _ => ?_
  split <;> simp

/-- A format is not called like the wrapper of its content. -/
theorem places {e : Element} (he : e.writtenName ≠ "") (hw : e.localName ≠ wrapper) :
    Fails (Placed e) (ofElement ctx v e) :=
  .bind (.within he (.withinHolder (holds_getD hw) (by decide)
    (Extent.places.readOption (by decide) _))) fun _ _ =>
      .bind (.check he (rules_fails _)) fun _ _ => .pure

end Format

namespace Link

theorem rules_fails (c : Link) : Fails Unplaced c.rules := by
  simp [rules, LinkAttributes.wrongType]

theorem places (hctx : ctx.Standard) : Places ofElement ctx := fun _ e he =>
  .bind (.own he (LinkAttributes.ofElement_fails e)) fun _ _ =>
    .bind (.own he (SecurityAttributes.ofElement_fails hctx e)) fun _ _ =>
      .bind (.check he (rules_fails _)) fun _ _ => .pure

end Link

namespace RelatedResource

theorem checkDirection_fails (direction : String) : Fails Unplaced (checkDirection direction) := by
  simp [checkDirection]

theorem checkLink_fails (b : Base) (l : Link) : Fails Unplaced (checkLink b l) := by
  simp [checkLink]

theorem rules_fails (c : RelatedResource) : Fails Unplaced c.rules := by
  have hdirection : Fails Unplaced (ifPresent c.direction checkDirection) :=
    .ifPresent (checkDirection_fails _)
  have hlinks : Fails Unplaced (forM c.links (checkLink c.toBase)) :=
    .forM fun _ _ => checkLink_fails _ _
  simp [rules, hdirection, hlinks]

/-- A related resource is not called like the wrapper of its content. -/
theorem places (hctx : ctx.Standard) {e : Element} (he : e.writtenName ≠ "")
    (hw : e.localName ≠ wrapper) : Fails (Placed e) (ofElement ctx v e) := by
  refine .bind (.within he ?_) fun _ _ =>
    .bind (.own he (SecurityAttributes.ofElement_fails hctx e)) fun _ _ =>
      .bind (.check he (rules_fails _)) fun _ _ => .pure
  split
  case h_1 holder hh =>
    exact .withinHolder (holds_of_holder? hw hh) (by decide)
      ((Link.places hctx).readAll (by decide) _)
  · exact .ok

end RelatedResource

@[simp]
theorem Contact.rules_fails (c : Contact) : Fails Unplaced c.rules := by
  simp [Contact.rules]

namespace NamedEntity

theorem rules_fails (c : NamedEntity) : Fails Unplaced c.rules := by
  unfold rules
  split_ifs <;> simp

theorem places : Places ofElement ctx := fun _ _ he =>
  .bind (.check he (rules_fails _)) fun _ _ => .pure

end NamedEntity

namespace SubOrganization

theorem rules_fails (c : SubOrganization) : Fails Unplaced c.rules := by
  simp [rules]

theorem places (hctx : ctx.Standard) : Places ofElement ctx := fun _ e he =>
  .bind (.own he (SecurityAttributes.ofElement_fails hctx e)) fun _ _ =>
    .bind (.check he (rules_fails _)) fun _ _ => .pure

end SubOrganization

namespace Organization

theorem rules_fails (c : Organization) : Fails Unplaced c.rules := by
  simp [rules]

theorem places (hctx : ctx.Standard) : Places ofElement ctx := fun _ e he =>
  .bind (.within he ((SubOrganization.places hctx).readAll (by decide) e.uri)) fun _ _ =>
    .bind (.check he (rules_fails _)) fun _ _ => .pure

end Organization

namespace Person

theorem rules_fails (c : Person) : Fails Unplaced c.rules := by
  simp [rules]

theorem places : Places ofElement ctx := fun _ _ he =>
  .bind (.check he (rules_fails _)) fun _ _ => .pure

end Person

/-- The element of an entity has a name. -/
theorem Entity.writtenName_ne {e : Element} (h : Entity.isElement e v = true) :
    e.writtenName ≠ "" := by
  simp only [Entity.isElement, List.any_cons, List.any_nil, Bool.or_false, Bool.and_eq_true,
    Bool.or_eq_true, beq_iff_eq] at h
  have hname : ∀ kind ∈ ["organization", "person", "service", "unknown"],
      Entity.name v kind ≠ "" := by cases v <;> decide
  simp only [List.forall_mem_cons] at hname
  obtain ⟨-, h | h | h | h⟩ := h
  · exact DiscoveryMetadata.writtenName_ne hname.1 h
  · exact DiscoveryMetadata.writtenName_ne hname.2.1 h
  · exact DiscoveryMetadata.writtenName_ne hname.2.2.1 h
  · exact DiscoveryMetadata.writtenName_ne hname.2.2.2.1 h

/-- An element that no reader of entities takes is passed over, so a fault in the first child lies
in an entity. -/
theorem Producer.ofElement_fails (hctx : ctx.Standard) {e c : Element} (hc : c ∈ e.children)
    (hn : c.writtenName ≠ "") : Fails (Beneath e) (Producer.ofElement ctx v c) := by
  unfold Producer.ofElement
  dsimp only
  split_ifs
  · exact .map.2 ((Organization.places hctx v c hn).inChild hc)
  · exact .map.2 ((Person.places v c hn).inChild hc)
  · exact .map.2 ((NamedEntity.places v c hn).inChild hc)
  · exact .beneath (by simp)

namespace ProducerRole

theorem rules_fails (hctx : ctx.Standard) (c : ProducerRole) : Fails Unplaced (c.rules ctx) := by
  have htokens (hv : c.version.atLeast .v4_1 = true) :
      Fails Unplaced (ctx.checkTokens Vocabulary.Key.pocType c.version c.pocTypes) :=
    Context.checkTokens_fails hctx (Vocabulary.pocType_known (Version.atLeast_trans hv rfl)) _
  unfold rules
  refine .bind (requireDdmsUri_fails) fun _ _ => ?_
  by_cases hv : c.version.atLeast .v4_1 = true
  · cases c.entity <;> simp [missingEntity, pocTypeTooEarly, hv, htokens hv]
  · cases c.entity <;> simp [missingEntity, pocTypeTooEarly, hv]

theorem entityOf_fails (hctx : ctx.Standard) (e : Element) :
    Fails (Beneath e) (entityOf ctx v e) := by
  unfold entityOf
  split
  case h_1 child rest hchildren =>
    split_ifs with hentity
    · have hc : child ∈ e.children := by simp [hchildren]
      exact Fails.map.2 (Producer.ofElement_fails hctx hc (Entity.writtenName_ne hentity))
    · exact .ok
  · exact .ok

theorem places (hctx : ctx.Standard) : Places ofElement ctx := by
  intro v e he
  unfold ofElement
  split
  · exact .own he (by simp)
  · refine .bind (.within he (entityOf_fails hctx e)) fun _ _ =>
      .bind (.own he (SecurityAttributes.ofElement_fails hctx e)) fun _ _ => ?_
    exact .bind (.check he (rules_fails hctx _)) fun _ _ => .pure

end ProducerRole

namespace TaskingRole

theorem rules_fails (c : TaskingRole) : Fails Unplaced c.rules := by
  unfold rules
  refine .bind (requireDdmsUri_fails) fun _ _ => ?_
  split <;> simp [missingEntity]

theorem entity_fails (hctx : ctx.Standard) {e c : Element} (hc : c ∈ e.children)
    (hn : c.writtenName ≠ "") : Fails (Beneath e) (TaskingEntity.ofElement ctx v c) := by
  unfold TaskingEntity.ofElement
  split_ifs
  · exact Fails.map.2 ((Organization.places hctx v c hn).inChild hc)
  · exact Fails.map.2 ((Person.places v c hn).inChild hc)
  · exact .beneath (by simp [TaskingEntity.unfit])

theorem entityOf_fails (hctx : ctx.Standard) (e : Element) :
    Fails (Beneath e) (entityOf ctx v e) := by
  unfold entityOf
  split
  case h_1 child rest hchildren =>
    split_ifs with hentity
    · have hc : child ∈ e.children := by simp [hchildren]
      exact Fails.map.2 (entity_fails hctx hc (Entity.writtenName_ne hentity))
    · exact .ok
  · exact .ok

theorem places (hctx : ctx.Standard) : Places ofElement ctx := by
  intro v e he
  unfold ofElement
  split
  · exact .own he (by simp)
  · refine .bind (.within he (entityOf_fails hctx e)) fun _ _ =>
      .bind (.own he (SecurityAttributes.ofElement_fails hctx e)) fun _ _ => ?_
    exact .bind (.check he (rules_fails _)) fun _ _ => .pure

end TaskingRole

end DiscoveryMetadata
