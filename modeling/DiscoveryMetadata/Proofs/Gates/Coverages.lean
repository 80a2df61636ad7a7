import DiscoveryMetadata.Proofs.Gates.Records
/-
  Components are allowed by the version they are accepted in: what a resource covers.
-/
namespace DiscoveryMetadata

open Xml (Element)
open DiscoveryMetadata.Part (Sound AllSound)

variable {ctx : Context} {v : Version} {e : Element}

section Subjects

namespace Keyword

theorem checked_sound {c d : Keyword} (h : checked c = .ok d)
    (hs : Sound c.version (.attributes c.security)) : Sound c.version (.keyword d) := by
  simp only [checked, rules, bind_ok, check_ok, pure_ok, exists_unit, requireSecuritySince_ok,
    requireExtensibleSince_ok, Bool.or_eq_true] at h
  obtain ⟨⟨-, -, hv, hx⟩, rfl⟩ := h
  exact .of ⟨fun hn => hv.resolve_left (by simp [hn]), fun hn => hx.resolve_left (by simp [hn])⟩
    (.cons hs .nil)

theorem ofElement_sound {c : Keyword} (h : ofElement ctx v e = .ok c) : Sound v (.keyword c) := by
  simp only [ofElement, bind_ok, within_ok] at h
  obtain ⟨s, hs, h⟩ := h
  exact checked_sound h (SecurityAttributes.ofElement_sound hs)

theorem build_sound {d : Draft} {c : Keyword} (h : Buildable.build ctx v d = .ok c) :
    Sound v (.keyword c) := by
  simp only [Buildable.build, make, bind_ok, within_ok] at h
  obtain ⟨s, hs, _, -, h⟩ := h
  exact checked_sound h (SecurityAttributes.commitAs_sound hs)

end Keyword

namespace Category

theorem checked_sound {c d : Category} (h : checked c = .ok d)
    (hs : Sound c.version (.attributes c.security)) : Sound c.version (.category d) := by
  simp only [checked, rules, bind_ok, check_ok, pure_ok, exists_unit, requireSecuritySince_ok,
    requireExtensibleSince_ok, Bool.or_eq_true] at h
  obtain ⟨⟨-, -, -, hv, hx⟩, rfl⟩ := h
  exact .of ⟨fun hn => hv.resolve_left (by simp [hn]), fun hn => hx.resolve_left (by simp [hn])⟩
    (.cons hs .nil)

theorem ofElement_sound {c : Category} (h : ofElement ctx v e = .ok c) :
    Sound v (.category c) := by
  simp only [ofElement, bind_ok, within_ok] at h
  obtain ⟨s, hs, h⟩ := h
  exact checked_sound h (SecurityAttributes.ofElement_sound hs)

theorem build_sound {d : Draft} {c : Category} (h : Buildable.build ctx v d = .ok c) :
    Sound v (.category c) := by
  simp only [Buildable.build, make, bind_ok, within_ok] at h
  obtain ⟨s, hs, _, -, h⟩ := h
  exact checked_sound h (SecurityAttributes.commitAs_sound hs)

end Category

namespace ProductionMetric

theorem checked_sound {c d : ProductionMetric} (h : checked c = .ok d)
    (hs : Sound c.version (.attributes c.security)) : Sound c.version (.productionMetric d) := by
  simp only [checked, rules, bind_ok, check_ok, pure_ok, exists_unit, requireVersion_ok] at h
  obtain ⟨⟨-, -, -, hv⟩, rfl⟩ := h
  exact .of hv (.cons hs .nil)

theorem ofElement_sound {c : ProductionMetric} (h : ofElement ctx v e = .ok c) :
    Sound v (.productionMetric c) := by
  simp only [ofElement, bind_ok, within_ok] at h
  obtain ⟨s, hs, h⟩ := h
  exact checked_sound h (SecurityAttributes.ofElement_sound hs)

theorem build_sound {d : Draft} {c : ProductionMetric} (h : Buildable.build ctx v d = .ok c) :
    Sound v (.productionMetric c) := by
  simp only [Buildable.build, make, bind_ok, within_ok] at h
  obtain ⟨s, hs, _, -, h⟩ := h
  exact checked_sound h (SecurityAttributes.commitAs_sound hs)

end ProductionMetric

namespace NonStateActor

theorem checked_sound {c d : NonStateActor} (h : checked c = .ok d)
    (hs : Sound c.version (.attributes c.security)) : Sound c.version (.nonStateActor d) := by
  simp only [checked, rules, bind_ok, check_ok, pure_ok, exists_unit, requireVersion_ok] at h
  obtain ⟨⟨-, -, hv⟩, rfl⟩ := h
  exact .of hv (.cons hs .nil)

theorem ofElement_sound {c : NonStateActor} (h : ofElement ctx v e = .ok c) :
    Sound v (.nonStateActor c) := by
  simp only [ofElement, bind_ok, within_ok] at h
  obtain ⟨_, -, s, hs, h⟩ := h
  exact checked_sound h (SecurityAttributes.ofElement_sound hs)

theorem build_sound {d : Draft} {c : NonStateActor} (h : Buildable.build ctx v d = .ok c) :
    Sound v (.nonStateActor c) := by
  simp only [Buildable.build, make, bind_ok, within_ok] at h
  obtain ⟨s, hs, _, -, h⟩ := h
  exact checked_sound h (SecurityAttributes.commitAs_sound hs)

end NonStateActor

namespace SubjectCoverage

theorem checked_sound {c d : SubjectCoverage} (h : checked c = .ok d)
    (hc : AllSound c.version (Part.subjectCoverage c).children) :
    Sound c.version (.subjectCoverage d) := by
  simp only [checked, rules, bind_ok, check_ok, pure_ok, exists_unit, requireSecuritySince_ok,
    Bool.or_eq_true] at h
  obtain ⟨⟨-, -, -, -, hv⟩, rfl⟩ := h
  exact .of (fun hn => hv.resolve_left (by simp [hn])) hc

theorem ofElement_sound {c : SubjectCoverage} (h : ofElement ctx v e = .ok c) :
    Sound v (.subjectCoverage c) := by
  simp only [ofElement, bind_ok, within_ok, withinHolder_ok] at h
  obtain ⟨ks, hk, cs, hc, ms, hm, as, ha, s, hs, h⟩ := h
  refine checked_sound h (.append (.append (.append (.cons ?_ ?_) ?_) ?_) ?_)
  · exact SecurityAttributes.ofElement_sound hs
  · exact readAll_sound Keyword.ofElement_sound hk
  · exact readAll_sound Category.ofElement_sound hc
  · exact readAll_sound ProductionMetric.ofElement_sound hm
  · exact readAll_sound NonStateActor.ofElement_sound ha

theorem build_sound {d : Draft} {c : SubjectCoverage} (h : Buildable.build ctx v d = .ok c) :
    Sound v (.subjectCoverage c) := by
  simp only [Buildable.build, make, bind_ok, within_ok] at h
  obtain ⟨ks, hk, cs, hc, ms, hm, as, ha, s, hs, _, -, h⟩ := h
  refine checked_sound h (.append (.append (.append (.cons ?_ ?_) ?_) ?_) ?_)
  · exact SecurityAttributes.commitAs_sound hs
  · exact commitAll_sound Keyword.build_sound hk
  · exact commitAll_sound Category.build_sound hc
  · exact commitAll_sound ProductionMetric.build_sound hm
  · exact commitAll_sound NonStateActor.build_sound ha

end SubjectCoverage

end Subjects

section Times

namespace VirtualCoverage

theorem checked_sound {c d : VirtualCoverage} (h : checked c = .ok d)
    (hs : Sound c.version (.attributes c.security)) : Sound c.version (.virtualCoverage d) := by
  simp only [checked, rules, bind_ok, check_ok, pure_ok, exists_unit, requireSecuritySince_ok,
    Bool.or_eq_true] at h
  obtain ⟨⟨-, -, hv⟩, rfl⟩ := h
  exact .of (fun hn => hv.resolve_left (by simp [hn])) (.cons hs .nil)

theorem ofElement_sound {c : VirtualCoverage} (h : ofElement ctx v e = .ok c) :
    Sound v (.virtualCoverage c) := by
  simp only [ofElement, bind_ok, within_ok] at h
  obtain ⟨s, hs, h⟩ := h
  exact checked_sound h (SecurityAttributes.ofElement_sound hs)

theorem build_sound {d : Draft} {c : VirtualCoverage} (h : Buildable.build ctx v d = .ok c) :
    Sound v (.virtualCoverage c) := by
  simp only [Buildable.build, make, bind_ok, within_ok] at h
  obtain ⟨s, hs, _, -, h⟩ := h
  exact checked_sound h (SecurityAttributes.commitAs_sound hs)

end VirtualCoverage

namespace TemporalCoverage

/-- The approximable date of a bound, if it has one, is sound. -/
def BoundSound (v : Version) (bound : Option TimeBound) : Prop :=
  ∀ date ∈ date? bound, Sound v (.approximableDate date)

theorem checked_sound {c d : TemporalCoverage} (h : checked c = .ok d)
    (hs : Sound c.version (.attributes c.security)) (hst : BoundSound c.version c.start)
    (hf : BoundSound c.version c.finish) : Sound c.version (.temporalCoverage d) := by
  simp only [checked, bind_ok, check_ok, pure_ok, exists_unit] at h
  obtain ⟨hr, rfl⟩ := h
  refine .of ?_ (.cons hs (.map ?_))
  · unfold rules at hr
    cases hh : c.element.holder? c.version wrapper with
    | none => simp only [hh, bind_ok, throw_ok, and_false, exists_false] at hr
    | some holder =>
      simp only [hh, bind_ok, exists_unit, requireSecuritySince_ok, Bool.or_eq_true] at hr
      exact fun hn => hr.2.2.resolve_left (by simp [hn])
  · intro date hd
    obtain ⟨bound, hb, hd⟩ := List.mem_filterMap.1 hd
    rcases List.mem_pair.1 hb with rfl | rfl
    · exact hst date hd
    · exact hf date hd

theorem readBound_sound {holder : Option Element} {exact approximate : String}
    {bound : Option TimeBound} (h : readBoundIn ctx v holder exact approximate = .ok bound) :
    BoundSound v bound := by
  unfold readBoundIn at h
  cases holder with
  | none =>
    cases h
    exact fun _ hd => by cases hd
  | some holder =>
    simp only [withinHolder_ok, readBound] at h
    split at h
    · cases h
      exact fun _ hd => by cases hd
    · simp only [bind_ok, pure_ok] at h
      obtain ⟨date, hd, rfl⟩ := h
      cases date with
      | none => exact fun _ hd => by cases hd
      | some date =>
        rintro _ ⟨⟩
        exact readOption_all (fun _ _ => ApproximableDate.ofElement_sound) hd _ rfl

theorem ofElement_sound {c : TemporalCoverage} (h : ofElement ctx v e = .ok c) :
    Sound v (.temporalCoverage c) := by
  simp only [ofElement, bind_ok, within_ok] at h
  obtain ⟨start, hst, finish, hf, s, hs, h⟩ := h
  exact checked_sound h (SecurityAttributes.ofElement_sound hs) (readBound_sound hst)
    (readBound_sound hf)

theorem bound_sound {text : String} {d : ApproximableDate.Draft} {bound : TimeBound}
    (h : Draft.bound ctx v text d = .ok bound) : BoundSound v (some (defaulted bound)) := by
  unfold Draft.bound at h
  split at h
  · simp only [bind_ok] at h
    obtain ⟨o, ho, h⟩ := h
    cases o with
    | none =>
      cases h
      exact fun _ hd => by cases hd
    | some date =>
      cases h
      rintro _ ⟨⟩
      exact Buildable.commitAs_all (fun _ => ApproximableDate.build_sound) ho _ rfl
  · cases h
    exact fun _ hd => by cases hd

theorem build_sound {d : Draft} {c : TemporalCoverage} (h : Buildable.build ctx v d = .ok c) :
    Sound v (.temporalCoverage c) := by
  simp only [Buildable.build, make, bind_ok, within_ok] at h
  obtain ⟨start, hst, finish, hf, s, hs, _, -, h⟩ := h
  exact checked_sound h (SecurityAttributes.commitAs_sound hs) (bound_sound hst) (bound_sound hf)

end TemporalCoverage

end Times

section Places

namespace AreaCode

theorem ofElement_sound {kind : Kind} {c : AreaCode} (h : ofElement kind ctx v e = .ok c) :
    Sound v (.areaCode c) := by
  simp only [ofElement, rules, bind_ok, check_ok, pure_ok, exists_unit, requireVersion_ok] at h
  obtain ⟨⟨-, -, -, hv⟩, rfl⟩ := h
  refine .of ?_ .nil
  rintro rfl
  exact hv

theorem build_sound {d : Draft} {c : AreaCode} (h : Buildable.build ctx v d = .ok c) :
    Sound v (.areaCode c) := by
  simp only [Buildable.build, make] at h
  exact ofElement_sound h

end AreaCode

namespace GeographicIdentifier

theorem checked_sound {c d : GeographicIdentifier} (h : checked c = .ok d)
    (hc : AllSound c.version (Part.geographicIdentifier c).children) :
    Sound c.version (.geographicIdentifier d) := by
  simp only [checked, bind_ok, check_ok, pure_ok, exists_unit] at h
  obtain ⟨-, rfl⟩ := h
  exact .of trivial hc

theorem ofElement_sound {c : GeographicIdentifier} (h : ofElement ctx v e = .ok c) :
    Sound v (.geographicIdentifier c) := by
  simp only [ofElement, bind_ok, within_ok] at h
  obtain ⟨country, hc, sub, hs, _, -, h⟩ := h
  exact checked_sound h (.append (.append (readOption_sound AreaCode.ofElement_sound hc)
    (readOption_sound AreaCode.ofElement_sound hs)) (.option fun c _ => .facilityIdentifier c))

theorem build_sound {d : Draft} {c : GeographicIdentifier} (h : Buildable.build ctx v d = .ok c) :
    Sound v (.geographicIdentifier c) := by
  simp only [Buildable.build, make, bind_ok] at h
  obtain ⟨country, hc, sub, hs, _, -, h⟩ := h
  exact checked_sound h (.append (.append (commitAs_sound AreaCode.build_sound hc)
    (commitAs_sound AreaCode.build_sound hs)) (.option fun c _ => .facilityIdentifier c))

end GeographicIdentifier

namespace PostalAddress

theorem checked_sound {c d : PostalAddress} (h : checked c = .ok d)
    (hc : AllSound c.version (c.countryCode.map .areaCode).toList) :
    Sound c.version (.postalAddress d) := by
  simp only [checked, bind_ok, check_ok, pure_ok, exists_unit] at h
  obtain ⟨-, rfl⟩ := h
  exact .of trivial hc

theorem ofElement_sound {c : PostalAddress} (h : ofElement ctx v e = .ok c) :
    Sound v (.postalAddress c) := by
  simp only [ofElement, bind_ok, within_ok] at h
  obtain ⟨country, hc, h⟩ := h
  exact checked_sound h (readOption_sound AreaCode.ofElement_sound hc)

theorem build_sound {d : Draft} {c : PostalAddress} (h : Buildable.build ctx v d = .ok c) :
    Sound v (.postalAddress c) := by
  simp only [Buildable.build, make, bind_ok] at h
  obtain ⟨country, hc, h⟩ := h
  exact checked_sound h (commitAs_sound AreaCode.build_sound hc)

end PostalAddress

/-- Ways to describe a space of which those with codes of areas are sound. -/
theorem GeospatialExtents.all_sound {x : GeospatialExtents}
    (hi : AllSound v (x.geographicIdentifier.map .geographicIdentifier).toList)
    (ha : AllSound v (x.postalAddress.map .postalAddress).toList) :
    AllSound v (Part.ofExtents x) :=
  .append (.append (.append (.append hi (.option fun c _ => .boundingBox c))
    (.option fun c _ => .boundingGeometry c)) ha) (.option fun c _ => .verticalExtent c)

namespace GeospatialCoverage

theorem checked_sound {c d : GeospatialCoverage} (h : checked c = .ok d)
    (hs : Sound c.version (.attributes c.security))
    (hx : AllSound c.version (Part.ofExtents c.extents)) :
    Sound c.version (.geospatialCoverage d) := by
  simp only [checked, bind_ok, check_ok, pure_ok, exists_unit] at h
  obtain ⟨hr, rfl⟩ := h
  refine .of ?_ (.cons hs hx)
  unfold rules at hr
  cases hh : c.element.holder? c.version wrapper with
  | none => simp only [hh, bind_ok, throw_ok, and_false, exists_false, false_and] at hr
  | some holder =>
    simp only [hh, bind_ok, exists_unit, demand_ok, requireSecuritySince_ok, Bool.or_eq_true,
      String.isEmpty_iff, Option.isNone_iff_eq_none] at hr
    obtain ⟨-, -, -, -, -, hp, ho, hsec, -⟩ := hr
    exact ⟨fun hn => hp.resolve_left hn, fun hn => ho.resolve_left hn,
      fun hn => hsec.resolve_left (by simp [hn])⟩

theorem ofElement_sound {c : GeospatialCoverage} (h : ofElement ctx v e = .ok c) :
    Sound v (.geospatialCoverage c) := by
  simp only [ofElement, bind_ok, within_ok] at h
  obtain ⟨x, hx, _, -, s, hs, h⟩ := h
  refine checked_sound h (SecurityAttributes.ofElement_sound hs) ?_
  split at hx
  · simp only [withinHolder_ok, GeospatialExtents.ofElement, bind_ok, pure_ok] at hx
    obtain ⟨i, hi, _, -, _, -, a, ha, _, -, rfl⟩ := hx
    exact GeospatialExtents.all_sound (readOption_sound GeographicIdentifier.ofElement_sound hi)
      (readOption_sound PostalAddress.ofElement_sound ha)
  · cases hx
    exact GeospatialExtents.all_sound .nil .nil

theorem build_sound {d : Draft} {c : GeospatialCoverage} (h : Buildable.build ctx v d = .ok c) :
    Sound v (.geospatialCoverage c) := by
  simp only [Buildable.build, make, bind_ok, within_ok] at h
  obtain ⟨i, hi, _, -, _, -, a, ha, _, -, s, hs, _, -, h⟩ := h
  exact checked_sound h (SecurityAttributes.commitAs_sound hs)
    (GeospatialExtents.all_sound (commitAs_sound GeographicIdentifier.build_sound hi)
      (commitAs_sound PostalAddress.build_sound ha))

end GeospatialCoverage

end Places

end DiscoveryMetadata
