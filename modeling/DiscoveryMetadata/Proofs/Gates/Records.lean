import DiscoveryMetadata.Proofs.Gates.Part
/-
  Components are allowed by the version they are accepted in: records and entities.

  Every component is checked at the end of reading and of making it, by the same rules. For a kind
  with versions of its own, `checked_sound` takes from those rules that the version allows it; for
  the others nothing is asked. Reading and building give sound components because they give sound
  parts to that last check.
-/
namespace DiscoveryMetadata

open Xml (Element)
open DiscoveryMetadata.Part (Sound AllSound)

variable {ctx : Context} {v : Version} {e : Element}

section Steps

variable {α δ : Type} {read : Context → Version → Element → Outcome α} {f : α → Part}

theorem readAll_sound (h : ∀ {e c}, read ctx v e = .ok c → Sound v (f c)) {es : List Element}
    {cs : List α} (hr : readAll read ctx v es = .ok cs) : AllSound v (cs.map f) :=
  .map (readAll_all (fun _ _ hc => h hc) hr)

theorem readOption_sound (h : ∀ {e c}, read ctx v e = .ok c → Sound v (f c)) {o : Option Element}
    {c : Option α} (hr : readOption read ctx v o = .ok c) : AllSound v (c.map f).toList :=
  .option (readOption_all (fun _ _ hc => h hc) hr)

variable [Buildable δ α]

theorem commitAs_sound (h : ∀ {d : δ} {c : α}, Buildable.build ctx v d = .ok c → Sound v (f c))
    {d : δ} {c : Option α} (hr : Buildable.commitAs ctx v d = .ok c) :
    AllSound v (c.map f).toList :=
  .option (Buildable.commitAs_all (fun _ hc => h hc) hr)

theorem commitAll_sound (h : ∀ {d : δ} {c : α}, Buildable.build ctx v d = .ok c → Sound v (f c))
    {ds : List δ} {cs : List α} (hr : Buildable.commitAll ctx v ds = .ok cs) :
    AllSound v (cs.map f) :=
  .map (Buildable.commitAll_all (fun _ _ _ hc => h hc) hr)

end Steps

/-! Kinds that are the same in all versions. -/
namespace Part.Sound

theorem identifier (c : Identifier) : Sound v (.identifier c) := .of trivial .nil

theorem language (c : Language) : Sound v (.language c) := .of trivial .nil

theorem rights (c : Rights) : Sound v (.rights c) := .of trivial .nil

theorem extent (c : Extent) : Sound v (.extent c) := .of trivial .nil

theorem format (c : Format) : Sound v (.format c) :=
  .of trivial (.option fun x _ => extent x)

theorem person (c : Person) : Sound v (.person c) := .of trivial .nil

theorem facilityIdentifier (c : FacilityIdentifier) : Sound v (.facilityIdentifier c) :=
  .of trivial .nil

theorem boundingBox (c : BoundingBox) : Sound v (.boundingBox c) := .of trivial .nil

theorem verticalExtent (c : VerticalExtent) : Sound v (.verticalExtent c) := .of trivial .nil

theorem position (c : Position) : Sound v (.position c) := .of trivial .nil

theorem point (c : Point) : Sound v (.point c) := .of trivial (.option fun x _ => position x)

theorem polygon (c : Polygon) : Sound v (.polygon c) := .of trivial (.map fun x _ => position x)

theorem boundingGeometry (c : BoundingGeometry) : Sound v (.boundingGeometry c) :=
  .of trivial (.append (.map fun x _ => polygon x) (.map fun x _ => point x))

theorem extensible (c : ExtensibleElement) : Sound v (.extensible c) := .of trivial .nil

end Part.Sound

section Records

namespace Caption

theorem ofElement_sound {c : Caption} (h : ofElement ctx v e = .ok c) : Sound v (.caption c) := by
  unfold ofElement at h
  cases hk : Kind.ofName? e.localName with
  | none => simp only [hk, within_ok, error_ok] at h
  | some kind =>
    simp only [hk, checked, bind_ok, within_ok, check_ok, pure_ok, exists_unit] at h
    obtain ⟨s, hs, -, rfl⟩ := h
    exact .of trivial (.cons (SecurityAttributes.ofElement_sound hs) .nil)

theorem build_sound {d : Draft} {c : Caption} (h : Buildable.build ctx v d = .ok c) :
    Sound v (.caption c) := by
  simp only [Buildable.build, make, checked, bind_ok, within_ok, check_ok, pure_ok,
    exists_unit] at h
  obtain ⟨s, hs, _, -, -, rfl⟩ := h
  exact .of trivial (.cons (SecurityAttributes.commitAs_sound hs) .nil)

end Caption

namespace ApproximableDate

theorem ofElement_sound {c : ApproximableDate} (h : ofElement ctx v e = .ok c) :
    Sound v (.approximableDate c) := by
  simp only [ofElement, checked, rules, bind_ok, check_ok, pure_ok, exists_unit,
    requireVersion_ok] at h
  obtain ⟨⟨-, -, hv, -⟩, rfl⟩ := h
  exact .of hv .nil

theorem build_sound {d : Draft} {c : ApproximableDate} (h : Buildable.build ctx v d = .ok c) :
    Sound v (.approximableDate c) := by
  simp only [Buildable.build, make] at h
  exact ofElement_sound h

end ApproximableDate

namespace Dates

/-- A date that was checked is one that the version has. -/
theorem since_of_checkEntry {name value : String} {since : Version}
    (h : DateValues.checkEntry v name since value = .ok ()) (hn : value ≠ "") :
    v.atLeast since = true := by
  simp only [DateValues.checkEntry, ifPresent_ok, bind_ok, exists_unit, demand_ok] at h
  exact (h hn).2

theorem checked_sound {c d : Dates} (h : checked c = .ok d)
    (hc : AllSound c.version (c.acquiredOns.map .approximableDate)) :
    Sound c.version (.dates d) := by
  simp only [checked, rules, bind_ok, check_ok, pure_ok, exists_unit, forM_ok] at h
  obtain ⟨⟨-, -, he, -⟩, rfl⟩ := h
  refine .of ⟨?_, ?_⟩ hc
  · exact since_of_checkEntry (he ("approvedOn", .v3_1, c.values.approvedOn) (by
      simp [DateValues.entries]))
  · exact since_of_checkEntry (he ("receivedOn", .v4_0_1, c.values.receivedOn) (by
      simp [DateValues.entries]))

theorem ofElement_sound {c : Dates} (h : ofElement ctx v e = .ok c) : Sound v (.dates c) := by
  simp only [ofElement, bind_ok, within_ok] at h
  obtain ⟨as, ha, h⟩ := h
  exact checked_sound h (readAll_sound ApproximableDate.ofElement_sound ha)

theorem build_sound {d : Draft} {c : Dates} (h : Buildable.build ctx v d = .ok c) :
    Sound v (.dates c) := by
  simp only [Buildable.build, make, bind_ok] at h
  obtain ⟨as, ha, h⟩ := h
  exact checked_sound h (commitAll_sound ApproximableDate.build_sound ha)

end Dates

namespace Source

theorem ofElement_sound {c : Source} (h : ofElement ctx v e = .ok c) : Sound v (.source c) := by
  simp only [ofElement, checked, rules, bind_ok, within_ok, check_ok, pure_ok, exists_unit,
    demand_ok, Bool.or_eq_true] at h
  obtain ⟨s, hs, ⟨-, -, hv⟩, rfl⟩ := h
  exact .of (fun hn => hv.resolve_right (by simp [hn]))
    (.cons (SecurityAttributes.ofElement_sound hs) .nil)

theorem build_sound {d : Draft} {c : Source} (h : Buildable.build ctx v d = .ok c) :
    Sound v (.source c) := by
  simp only [Buildable.build, make, bind_ok, within_ok] at h
  obtain ⟨_, -, _, -, h⟩ := h
  exact ofElement_sound h

end Source

namespace ResourceType

theorem ofElement_sound {c : ResourceType} (h : ofElement ctx v e = .ok c) :
    Sound v (.resourceType c) := by
  simp only [ofElement, checked, rules, bind_ok, within_ok, check_ok, pure_ok, exists_unit,
    ite_ok, demand_ok, Bool.not_eq_eq_eq_not, Bool.not_true] at h
  obtain ⟨s, hs, ⟨-, -, hv⟩, rfl⟩ := h
  refine .of ?_ (.cons (SecurityAttributes.ofElement_sound hs) .nil)
  cases hat : v.atLeast .v4_1 with
  | true => exact ⟨fun _ => hat, fun _ => hat⟩
  | false =>
    obtain ⟨hd, hsec⟩ := hv hat
    exact ⟨fun hn => absurd (String.isEmpty_iff.1 hd) hn, fun hn => by simp [hsec] at hn⟩

theorem build_sound {d : Draft} {c : ResourceType} (h : Buildable.build ctx v d = .ok c) :
    Sound v (.resourceType c) := by
  simp only [Buildable.build, make, bind_ok, within_ok] at h
  obtain ⟨_, -, _, -, h⟩ := h
  exact ofElement_sound h

end ResourceType

end Records

section Entities

namespace SubOrganization

theorem checked_sound {c d : SubOrganization} (h : checked c = .ok d)
    (hs : Sound c.version (.attributes c.security)) : Sound c.version (.subOrganization d) := by
  simp only [checked, rules, bind_ok, check_ok, pure_ok, exists_unit, requireVersion_ok] at h
  obtain ⟨⟨-, -, hv⟩, rfl⟩ := h
  exact .of hv (.cons hs .nil)

theorem ofElement_sound {c : SubOrganization} (h : ofElement ctx v e = .ok c) :
    Sound v (.subOrganization c) := by
  simp only [ofElement, bind_ok, within_ok] at h
  obtain ⟨s, hs, h⟩ := h
  exact checked_sound h (SecurityAttributes.ofElement_sound hs)

theorem build_sound {d : Draft} {c : SubOrganization} (h : Buildable.build ctx v d = .ok c) :
    Sound v (.subOrganization c) := by
  simp only [Buildable.build, make, bind_ok, within_ok] at h
  obtain ⟨s, hs, _, -, h⟩ := h
  exact checked_sound h (SecurityAttributes.commitAs_sound hs)

end SubOrganization

namespace Organization

theorem checked_sound {c d : Organization} (h : checked c = .ok d)
    (hc : AllSound c.version (c.subOrganizations.map .subOrganization)) :
    Sound c.version (.organization d) := by
  simp only [checked, rules, bind_ok, check_ok, pure_ok, exists_unit, demand_ok,
    Bool.or_eq_true, String.isEmpty_iff] at h
  obtain ⟨⟨-, -, -, hv⟩, rfl⟩ := h
  exact .of (fun hn => hv.resolve_right hn) hc

theorem ofElement_sound {c : Organization} (h : ofElement ctx v e = .ok c) :
    Sound v (.organization c) := by
  simp only [ofElement, bind_ok, within_ok] at h
  obtain ⟨subs, hs, h⟩ := h
  exact checked_sound h (readAll_sound SubOrganization.ofElement_sound hs)

theorem build_sound {d : Draft} {c : Organization} (h : Buildable.build ctx v d = .ok c) :
    Sound v (.organization c) := by
  simp only [Buildable.build, make, bind_ok] at h
  obtain ⟨subs, hs, h⟩ := h
  exact checked_sound h (commitAll_sound SubOrganization.build_sound hs)

end Organization

namespace NamedEntity

theorem checked_sound {c d : NamedEntity} (h : checked c = .ok d) :
    Sound c.version (.namedEntity d) := by
  simp only [checked, rules, bind_ok, check_ok, pure_ok, exists_unit, iteStep_ok,
    requireVersion_ok] at h
  obtain ⟨⟨-, hv, -⟩, rfl⟩ := h
  exact .of hv .nil

theorem ofElement_sound {c : NamedEntity} (h : ofElement ctx v e = .ok c) :
    Sound v (.namedEntity c) :=
  checked_sound h

theorem build_sound {d : Draft} {c : NamedEntity} (h : Buildable.build ctx v d = .ok c) :
    Sound v (.namedEntity c) := by
  simp only [Buildable.build, make] at h
  exact checked_sound h

end NamedEntity

theorem Producer.ofElement_sound {p : Producer} (h : ofElement ctx v e = .ok p) :
    Sound v (Part.ofProducer p) := by
  unfold ofElement at h
  simp only at h
  split_ifs at h
  · obtain ⟨o, ho, rfl⟩ := map_ok.1 h
    exact Organization.ofElement_sound ho
  · obtain ⟨c, -, rfl⟩ := map_ok.1 h
    exact Sound.person c
  · obtain ⟨n, hn, rfl⟩ := map_ok.1 h
    exact NamedEntity.ofElement_sound hn

theorem TaskingEntity.ofElement_sound {t : TaskingEntity} (h : ofElement ctx v e = .ok t) :
    Sound v (Part.ofTaskingEntity t) := by
  unfold ofElement at h
  split_ifs at h
  · obtain ⟨o, ho, rfl⟩ := map_ok.1 h
    exact Organization.ofElement_sound ho
  · obtain ⟨c, -, rfl⟩ := map_ok.1 h
    exact Sound.person c

namespace ProducerRole

theorem checked_sound {c d : ProducerRole} (h : checked ctx c = .ok d)
    (hs : Sound c.version (.attributes c.security))
    (he : AllSound c.version (c.entity.map Part.ofProducer).toList) :
    Sound c.version (.producerRole d) := by
  simp only [checked, bind_ok, check_ok, pure_ok] at h
  obtain ⟨ws, hr, rfl⟩ := h
  refine .of ?_ (.cons hs he)
  unfold rules at hr
  cases hc : c.entity with
  | none => simp only [hc, bind_ok, throw_ok, false_and, exists_false, and_false] at hr
  | some entity =>
    simp only [hc, bind_ok, exists_unit, demand_ok, Bool.or_eq_true, List.isEmpty_iff] at hr
    exact fun hn => hr.2.2.1.resolve_left hn

theorem entityOf_sound {o : Option Producer} (h : entityOf ctx v e = .ok o) :
    AllSound v (o.map Part.ofProducer).toList := by
  unfold entityOf at h
  split at h
  · split_ifs at h
    · obtain ⟨p, hp, rfl⟩ := map_ok.1 h
      exact .cons (Producer.ofElement_sound hp) .nil
    · cases h
      exact .nil
  · cases h
    exact .nil

theorem ofElement_sound {c : ProducerRole} (h : ofElement ctx v e = .ok c) :
    Sound v (.producerRole c) := by
  unfold ofElement at h
  cases hk : Kind.ofName? e.localName with
  | none => simp only [hk, within_ok, error_ok] at h
  | some kind =>
    simp only [hk, bind_ok, within_ok] at h
    obtain ⟨entity, he, s, hs, h⟩ := h
    exact checked_sound h (SecurityAttributes.ofElement_sound hs) (entityOf_sound he)

theorem commitEntity_sound {d : Draft} {o : Option Producer} (h : d.commitEntity ctx v = .ok o) :
    AllSound v (o.map Part.ofProducer).toList := by
  unfold Draft.commitEntity at h
  cases ht : d.entityType <;> simp only [ht, bind_ok, pure_ok] at h <;>
    obtain ⟨c, hc, rfl⟩ := h <;> rw [Option.map_map]
  · exact commitAs_sound Organization.build_sound hc
  · exact .option fun c _ => Sound.person c
  · exact commitAs_sound NamedEntity.build_sound hc
  · exact commitAs_sound NamedEntity.build_sound hc

theorem build_sound {d : Draft} {c : ProducerRole} (h : Buildable.build ctx v d = .ok c) :
    Sound v (.producerRole c) := by
  simp only [Buildable.build, bind_ok] at h
  obtain ⟨o, ho, h⟩ := h
  cases o with
  | none => simp only [within_ok, error_ok] at h
  | some entity =>
    simp only [make, bind_ok, within_ok] at h
    obtain ⟨s, hs, _, -, h⟩ := h
    exact checked_sound h (SecurityAttributes.commitAs_sound hs) (commitEntity_sound ho)

end ProducerRole

namespace TaskingRole

theorem checked_sound {c d : TaskingRole} (h : checked c = .ok d)
    (hs : Sound c.version (.attributes c.security))
    (he : AllSound c.version (c.entity.map Part.ofTaskingEntity).toList) :
    Sound c.version (.taskingRole d) := by
  simp only [checked, bind_ok, check_ok, pure_ok, exists_unit] at h
  obtain ⟨hr, rfl⟩ := h
  refine .of ?_ (.cons hs he)
  unfold rules at hr
  cases hc : c.entity with
  | none => simp only [hc, bind_ok, throw_ok, false_and, exists_false, and_false] at hr
  | some entity =>
    simp only [hc, bind_ok, exists_unit, requireVersion_ok] at hr
    exact hr.2.2.2

theorem entityOf_sound {o : Option TaskingEntity} (h : entityOf ctx v e = .ok o) :
    AllSound v (o.map Part.ofTaskingEntity).toList := by
  unfold entityOf at h
  split at h
  · split_ifs at h
    · obtain ⟨t, ht, rfl⟩ := map_ok.1 h
      exact .cons (TaskingEntity.ofElement_sound ht) .nil
    · cases h
      exact .nil
  · cases h
    exact .nil

theorem ofElement_sound {c : TaskingRole} (h : ofElement ctx v e = .ok c) :
    Sound v (.taskingRole c) := by
  unfold ofElement at h
  cases hk : Kind.ofName? e.localName with
  | none => simp only [hk, within_ok, error_ok] at h
  | some kind =>
    simp only [hk, bind_ok, within_ok] at h
    obtain ⟨entity, he, s, hs, h⟩ := h
    exact checked_sound h (SecurityAttributes.ofElement_sound hs) (entityOf_sound he)

theorem commitEntity_sound {d : Draft} {o : Option TaskingEntity}
    (h : d.commitEntity ctx v = .ok o) : AllSound v (o.map Part.ofTaskingEntity).toList := by
  unfold Draft.commitEntity at h
  cases ht : d.entityType <;> simp only [ht, bind_ok, pure_ok, within_ok, error_ok] at h <;>
    obtain ⟨c, hc, rfl⟩ := h <;> rw [Option.map_map]
  · exact commitAs_sound Organization.build_sound hc
  · exact .option fun c _ => Sound.person c

theorem build_sound {d : Draft} {c : TaskingRole} (h : Buildable.build ctx v d = .ok c) :
    Sound v (.taskingRole c) := by
  simp only [Buildable.build, bind_ok] at h
  obtain ⟨o, ho, h⟩ := h
  cases o with
  | none => simp only [within_ok, error_ok] at h
  | some entity =>
    simp only [make, bind_ok, within_ok] at h
    obtain ⟨s, hs, _, -, h⟩ := h
    exact checked_sound h (SecurityAttributes.commitAs_sound hs) (commitEntity_sound ho)

end TaskingRole

end Entities

end DiscoveryMetadata
