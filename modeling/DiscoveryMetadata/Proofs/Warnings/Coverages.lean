import DiscoveryMetadata.Proofs.Warnings.Records
/-
  What is recorded at the components that say what a resource covers is what their checks find.
-/
namespace DiscoveryMetadata

open Xml (Element)
open DiscoveryMetadata.Part (Told AllTold)

variable {ctx : Context} {v : Version} {e : Element}

section Subjects

namespace Keyword

theorem checked_told {c d : Keyword} (h : checked c = .ok d)
    (hs : Told ctx (.attributes c.security)) : Told ctx (.keyword d) :=
  .checked (f := .keyword) h rfl (.cons hs .nil)

theorem ofElement_told {c : Keyword} (h : ofElement ctx v e = .ok c) : Told ctx (.keyword c) := by
  simp only [ofElement, bind_ok, within_ok] at h
  obtain ⟨s, hs, h⟩ := h
  exact checked_told h (SecurityAttributes.ofElement_told hs)

theorem build_told {d : Draft} {c : Keyword} (h : Buildable.build ctx v d = .ok c) :
    Told ctx (.keyword c) := by
  simp only [Buildable.build, make, bind_ok, within_ok] at h
  obtain ⟨s, hs, _, -, h⟩ := h
  exact checked_told h (SecurityAttributes.commitAs_told hs)

end Keyword

namespace Category

theorem checked_told {c d : Category} (h : checked c = .ok d)
    (hs : Told ctx (.attributes c.security)) : Told ctx (.category d) :=
  .checked (f := .category) h rfl (.cons hs .nil)

theorem ofElement_told {c : Category} (h : ofElement ctx v e = .ok c) :
    Told ctx (.category c) := by
  simp only [ofElement, bind_ok, within_ok] at h
  obtain ⟨s, hs, h⟩ := h
  exact checked_told h (SecurityAttributes.ofElement_told hs)

theorem build_told {d : Draft} {c : Category} (h : Buildable.build ctx v d = .ok c) :
    Told ctx (.category c) := by
  simp only [Buildable.build, make, bind_ok, within_ok] at h
  obtain ⟨s, hs, _, -, h⟩ := h
  exact checked_told h (SecurityAttributes.commitAs_told hs)

end Category

namespace ProductionMetric

theorem checked_told {c d : ProductionMetric} (h : checked c = .ok d)
    (hs : Told ctx (.attributes c.security)) : Told ctx (.productionMetric d) :=
  .checked (f := .productionMetric) h rfl (.cons hs .nil)

theorem ofElement_told {c : ProductionMetric} (h : ofElement ctx v e = .ok c) :
    Told ctx (.productionMetric c) := by
  simp only [ofElement, bind_ok, within_ok] at h
  obtain ⟨s, hs, h⟩ := h
  exact checked_told h (SecurityAttributes.ofElement_told hs)

theorem build_told {d : Draft} {c : ProductionMetric} (h : Buildable.build ctx v d = .ok c) :
    Told ctx (.productionMetric c) := by
  simp only [Buildable.build, make, bind_ok, within_ok] at h
  obtain ⟨s, hs, _, -, h⟩ := h
  exact checked_told h (SecurityAttributes.commitAs_told hs)

end ProductionMetric

namespace NonStateActor

theorem checked_told {c d : NonStateActor} (h : checked c = .ok d)
    (hs : Told ctx (.attributes c.security)) : Told ctx (.nonStateActor d) :=
  .checked (f := .nonStateActor) h rfl (.cons hs .nil)

theorem ofElement_told {c : NonStateActor} (h : ofElement ctx v e = .ok c) :
    Told ctx (.nonStateActor c) := by
  simp only [ofElement, bind_ok, within_ok] at h
  obtain ⟨_, -, s, hs, h⟩ := h
  exact checked_told h (SecurityAttributes.ofElement_told hs)

theorem build_told {d : Draft} {c : NonStateActor} (h : Buildable.build ctx v d = .ok c) :
    Told ctx (.nonStateActor c) := by
  simp only [Buildable.build, make, bind_ok, within_ok] at h
  obtain ⟨s, hs, _, -, h⟩ := h
  exact checked_told h (SecurityAttributes.commitAs_told hs)

end NonStateActor

namespace SubjectCoverage

theorem checked_told {c d : SubjectCoverage} (h : checked c = .ok d)
    (hc : AllTold ctx (Part.subjectCoverage c).children) : Told ctx (.subjectCoverage d) :=
  .checked (f := .subjectCoverage) h rfl hc

theorem ofElement_told {c : SubjectCoverage} (h : ofElement ctx v e = .ok c) :
    Told ctx (.subjectCoverage c) := by
  simp only [ofElement, bind_ok, within_ok, withinHolder_ok] at h
  obtain ⟨ks, hk, cs, hc, ms, hm, as, ha, s, hs, h⟩ := h
  refine checked_told h (.append (.append (.append (.cons ?_ ?_) ?_) ?_) ?_)
  · exact SecurityAttributes.ofElement_told hs
  · exact readAll_told Keyword.ofElement_told hk
  · exact readAll_told Category.ofElement_told hc
  · exact readAll_told ProductionMetric.ofElement_told hm
  · exact readAll_told NonStateActor.ofElement_told ha

theorem build_told {d : Draft} {c : SubjectCoverage} (h : Buildable.build ctx v d = .ok c) :
    Told ctx (.subjectCoverage c) := by
  simp only [Buildable.build, make, bind_ok, within_ok] at h
  obtain ⟨ks, hk, cs, hc, ms, hm, as, ha, s, hs, _, -, h⟩ := h
  refine checked_told h (.append (.append (.append (.cons ?_ ?_) ?_) ?_) ?_)
  · exact SecurityAttributes.commitAs_told hs
  · exact commitAll_told Keyword.build_told hk
  · exact commitAll_told Category.build_told hc
  · exact commitAll_told ProductionMetric.build_told hm
  · exact commitAll_told NonStateActor.build_told ha

end SubjectCoverage

end Subjects

section Times

namespace VirtualCoverage

theorem checked_told {c d : VirtualCoverage} (h : checked c = .ok d)
    (hs : Told ctx (.attributes c.security)) : Told ctx (.virtualCoverage d) :=
  .checked (f := .virtualCoverage) h rfl (.cons hs .nil)

theorem ofElement_told {c : VirtualCoverage} (h : ofElement ctx v e = .ok c) :
    Told ctx (.virtualCoverage c) := by
  simp only [ofElement, bind_ok, within_ok] at h
  obtain ⟨s, hs, h⟩ := h
  exact checked_told h (SecurityAttributes.ofElement_told hs)

theorem build_told {d : Draft} {c : VirtualCoverage} (h : Buildable.build ctx v d = .ok c) :
    Told ctx (.virtualCoverage c) := by
  simp only [Buildable.build, make, bind_ok, within_ok] at h
  obtain ⟨s, hs, _, -, h⟩ := h
  exact checked_told h (SecurityAttributes.commitAs_told hs)

end VirtualCoverage

namespace TemporalCoverage

/-- The approximable date of a bound, if it has one, is told. -/
def BoundTold (ctx : Context) (bound : Option TimeBound) : Prop :=
  ∀ date ∈ date? bound, Told ctx (.approximableDate date)

theorem checked_told {c d : TemporalCoverage} (h : checked c = .ok d)
    (hs : Told ctx (.attributes c.security)) (hst : BoundTold ctx c.start)
    (hf : BoundTold ctx c.finish) : Told ctx (.temporalCoverage d) := by
  refine .checked (f := .temporalCoverage) h rfl (.cons hs (.map ?_))
  intro date hd
  obtain ⟨bound, hb, hd⟩ := List.mem_filterMap.1 hd
  rcases List.mem_pair.1 hb with rfl | rfl
  · exact hst date hd
  · exact hf date hd

theorem readBound_told {holder : Option Element} {exact approximate : String}
    {bound : Option TimeBound} (h : readBoundIn ctx v holder exact approximate = .ok bound) :
    BoundTold ctx bound := by
  unfold readBoundIn at h
  cases holder with
  | none =>
    cases h
    exact fun _ hd => by cases hd
  | some holder =>
    simp only [withinHolder_ok, readBound] at h
    split at h
    · cases h
      exact fun _ hd => by cases hd
    · simp only [bind_ok, pure_ok] at h
      obtain ⟨date, hd, rfl⟩ := h
      cases date with
      | none => exact fun _ hd => by cases hd
      | some date =>
        rintro _ ⟨⟩
        exact readOption_all (fun _ _ => ApproximableDate.ofElement_told) hd _ rfl

theorem ofElement_told {c : TemporalCoverage} (h : ofElement ctx v e = .ok c) :
    Told ctx (.temporalCoverage c) := by
  simp only [ofElement, bind_ok, within_ok] at h
  obtain ⟨start, hst, finish, hf, s, hs, h⟩ := h
  exact checked_told h (SecurityAttributes.ofElement_told hs) (readBound_told hst)
    (readBound_told hf)

theorem bound_told {text : String} {d : ApproximableDate.Draft} {bound : TimeBound}
    (h : Draft.bound ctx v text d = .ok bound) : BoundTold ctx (some (defaulted bound)) := by
  unfold Draft.bound at h
  split at h
  · simp only [bind_ok] at h
    obtain ⟨o, ho, h⟩ := h
    cases o with
    | none =>
      cases h
      exact fun _ hd => by cases hd
    | some date =>
      cases h
      rintro _ ⟨⟩
      exact Buildable.commitAs_all (fun _ => ApproximableDate.build_told) ho _ rfl
  · cases h
    exact fun _ hd => by cases hd

theorem build_told {d : Draft} {c : TemporalCoverage} (h : Buildable.build ctx v d = .ok c) :
    Told ctx (.temporalCoverage c) := by
  simp only [Buildable.build, make, bind_ok, within_ok] at h
  obtain ⟨start, hst, finish, hf, s, hs, _, -, h⟩ := h
  exact checked_told h (SecurityAttributes.commitAs_told hs) (bound_told hst) (bound_told hf)

end TemporalCoverage

end Times

section Places

namespace AreaCode

theorem ofElement_told {kind : Kind} {c : AreaCode} (h : ofElement kind ctx v e = .ok c) :
    Told ctx (.areaCode c) :=
  .checked (f := .areaCode) h rfl .nil

theorem build_told {d : Draft} {c : AreaCode} (h : Buildable.build ctx v d = .ok c) :
    Told ctx (.areaCode c) :=
  ofElement_told h

end AreaCode

namespace FacilityIdentifier

theorem ofElement_told {c : FacilityIdentifier} (h : ofElement ctx v e = .ok c) :
    Told ctx (.facilityIdentifier c) :=
  .checked (f := .facilityIdentifier) h rfl .nil

theorem build_told {d : Draft} {c : FacilityIdentifier} (h : Buildable.build ctx v d = .ok c) :
    Told ctx (.facilityIdentifier c) :=
  ofElement_told h

end FacilityIdentifier

namespace GeographicIdentifier

theorem checked_told {c d : GeographicIdentifier} (h : checked c = .ok d)
    (hc : AllTold ctx (Part.geographicIdentifier c).children) : Told ctx (.geographicIdentifier d) :=
  .checked (f := .geographicIdentifier) h rfl hc

theorem ofElement_told {c : GeographicIdentifier} (h : ofElement ctx v e = .ok c) :
    Told ctx (.geographicIdentifier c) := by
  simp only [ofElement, bind_ok, within_ok] at h
  obtain ⟨country, hc, sub, hs, facility, hf, h⟩ := h
  exact checked_told h (.append (.append (readOption_told AreaCode.ofElement_told hc)
    (readOption_told AreaCode.ofElement_told hs))
    (readOption_told FacilityIdentifier.ofElement_told hf))

theorem build_told {d : Draft} {c : GeographicIdentifier} (h : Buildable.build ctx v d = .ok c) :
    Told ctx (.geographicIdentifier c) := by
  simp only [Buildable.build, make, bind_ok] at h
  obtain ⟨country, hc, sub, hs, facility, hf, h⟩ := h
  exact checked_told h (.append (.append (commitAs_told AreaCode.build_told hc)
    (commitAs_told AreaCode.build_told hs)) (commitAs_told FacilityIdentifier.build_told hf))

end GeographicIdentifier

namespace PostalAddress

theorem checked_told {c d : PostalAddress} (h : checked c = .ok d)
    (hc : AllTold ctx (c.countryCode.map .areaCode).toList) : Told ctx (.postalAddress d) :=
  .checked (f := .postalAddress) h rfl hc

theorem ofElement_told {c : PostalAddress} (h : ofElement ctx v e = .ok c) :
    Told ctx (.postalAddress c) := by
  simp only [ofElement, bind_ok, within_ok] at h
  obtain ⟨country, hc, h⟩ := h
  exact checked_told h (readOption_told AreaCode.ofElement_told hc)

theorem build_told {d : Draft} {c : PostalAddress} (h : Buildable.build ctx v d = .ok c) :
    Told ctx (.postalAddress c) := by
  simp only [Buildable.build, make, bind_ok] at h
  obtain ⟨country, hc, h⟩ := h
  exact checked_told h (commitAs_told AreaCode.build_told hc)

end PostalAddress

namespace Position

theorem ofElement_told {c : Position} (h : ofElement ctx v e = .ok c) :
    Told ctx (.position c) := by
  simp only [ofElement, bind_ok, within_ok] at h
  obtain ⟨_, -, _, -, h⟩ := h
  exact .checked (f := .position) h rfl .nil

theorem build_told {d : Draft} {c : Position} (h : Buildable.build ctx v d = .ok c) :
    Told ctx (.position c) := by
  simp only [Buildable.build, make, bind_ok] at h
  obtain ⟨_, -, h⟩ := h
  exact .checked (f := .position) h rfl .nil

end Position

namespace Point

theorem checked_told {c d : Point} (h : checked c = .ok d)
    (hc : AllTold ctx (c.position.map .position).toList) : Told ctx (.point d) :=
  .checked (f := .point) h rfl hc

theorem ofElement_told {c : Point} (h : ofElement ctx v e = .ok c) : Told ctx (.point c) := by
  simp only [ofElement, bind_ok, within_ok] at h
  obtain ⟨p, hp, _, -, h⟩ := h
  exact checked_told h (readOption_told Position.ofElement_told hp)

theorem build_told {d : Draft} {c : Point} (h : Buildable.build ctx v d = .ok c) :
    Told ctx (.point c) := by
  simp only [Buildable.build, bind_ok] at h
  obtain ⟨p, hp, h⟩ := h
  cases p with
  | none => simp only [within_ok, error_ok] at h
  | some p =>
    simp only [make, bind_ok] at h
    obtain ⟨_, -, h⟩ := h
    exact checked_told h (commitAs_told Position.build_told hp)

end Point

namespace Polygon

theorem checked_told {c d : Polygon} (h : checked c = .ok d)
    (hc : AllTold ctx (c.positions.map .position)) : Told ctx (.polygon d) :=
  .checked (f := .polygon) h rfl hc

theorem readPositions_told {ps : List Position} (h : readPositions ctx v e = .ok ps) :
    AllTold ctx (ps.map .position) := by
  unfold readPositions at h
  split at h
  · cases h
    exact .nil
  · split at h
    · cases h
      exact .nil
    · simp only [within_ok] at h
      exact readAll_told Position.ofElement_told h

theorem ofElement_told {c : Polygon} (h : ofElement ctx v e = .ok c) : Told ctx (.polygon c) := by
  simp only [ofElement, bind_ok, within_ok] at h
  obtain ⟨ps, hp, _, -, h⟩ := h
  exact checked_told h (readPositions_told hp)

theorem build_told {d : Draft} {c : Polygon} (h : Buildable.build ctx v d = .ok c) :
    Told ctx (.polygon c) := by
  simp only [Buildable.build, make, bind_ok] at h
  obtain ⟨ps, hp, _, -, _, -, _, -, h⟩ := h
  exact checked_told h (commitAll_told Position.build_told hp)

end Polygon

namespace BoundingGeometry

theorem checked_told {c d : BoundingGeometry} (h : checked c = .ok d)
    (hc : AllTold ctx (Part.boundingGeometry c).children) : Told ctx (.boundingGeometry d) :=
  .checked (f := .boundingGeometry) h rfl hc

theorem ofElement_told {c : BoundingGeometry} (h : ofElement ctx v e = .ok c) :
    Told ctx (.boundingGeometry c) := by
  simp only [ofElement, bind_ok, within_ok] at h
  obtain ⟨gs, hg, ps, hp, h⟩ := h
  exact checked_told h (.append (readAll_told Polygon.ofElement_told hg)
    (readAll_told Point.ofElement_told hp))

theorem build_told {d : Draft} {c : BoundingGeometry} (h : Buildable.build ctx v d = .ok c) :
    Told ctx (.boundingGeometry c) := by
  simp only [Buildable.build, make, bind_ok] at h
  obtain ⟨gs, hg, ps, hp, h⟩ := h
  exact checked_told h (.append (commitAll_told Polygon.build_told hg)
    (commitAll_told Point.build_told hp))

end BoundingGeometry

namespace BoundingBox

theorem ofElement_told {c : BoundingBox} (h : ofElement ctx v e = .ok c) :
    Told ctx (.boundingBox c) := by
  simp only [ofElement, bind_ok, within_ok] at h
  obtain ⟨_, -, _, -, _, -, _, -, h⟩ := h
  exact .checked (f := .boundingBox) h rfl .nil

theorem build_told {d : Draft} {c : BoundingBox} (h : Buildable.build ctx v d = .ok c) :
    Told ctx (.boundingBox c) :=
  ofElement_told h

end BoundingBox

namespace VerticalExtent

theorem ofElement_told {c : VerticalExtent} (h : ofElement ctx v e = .ok c) :
    Told ctx (.verticalExtent c) := by
  simp only [ofElement, bind_ok, within_ok] at h
  obtain ⟨_, -, _, -, h⟩ := h
  exact .checked (f := .verticalExtent) h rfl .nil

theorem build_told {d : Draft} {c : VerticalExtent} (h : Buildable.build ctx v d = .ok c) :
    Told ctx (.verticalExtent c) :=
  ofElement_told h

end VerticalExtent

namespace GeospatialCoverage

theorem checked_told {c d : GeospatialCoverage} (h : checked c = .ok d)
    (hs : Told ctx (.attributes c.security))
    (hx : AllTold ctx (Part.ofExtents c.extents)) : Told ctx (.geospatialCoverage d) :=
  .checked (f := .geospatialCoverage) h rfl (.cons hs hx)

theorem ofElement_told {c : GeospatialCoverage} (h : ofElement ctx v e = .ok c) :
    Told ctx (.geospatialCoverage c) := by
  simp only [ofElement, bind_ok, within_ok] at h
  obtain ⟨x, hx, _, -, s, hs, h⟩ := h
  refine checked_told h (SecurityAttributes.ofElement_told hs) ?_
  split at hx
  · simp only [withinHolder_ok, GeospatialExtents.ofElement, bind_ok, pure_ok] at hx
    obtain ⟨i, hi, b, hb, g, hg, a, ha, x, hx, rfl⟩ := hx
    exact .append (.append (.append (.append (readOption_told GeographicIdentifier.ofElement_told hi)
      (readOption_told BoundingBox.ofElement_told hb))
      (readOption_told BoundingGeometry.ofElement_told hg))
      (readOption_told PostalAddress.ofElement_told ha))
      (readOption_told VerticalExtent.ofElement_told hx)
  · cases hx
    exact .nil

theorem build_told {d : Draft} {c : GeospatialCoverage} (h : Buildable.build ctx v d = .ok c) :
    Told ctx (.geospatialCoverage c) := by
  simp only [Buildable.build, make, bind_ok, within_ok] at h
  obtain ⟨i, hi, b, hb, g, hg, a, ha, x, hx, s, hs, _, -, h⟩ := h
  exact checked_told h (SecurityAttributes.commitAs_told hs)
    (.append (.append (.append (.append (commitAs_told GeographicIdentifier.build_told hi)
      (commitAs_told BoundingBox.build_told hb))
      (commitAs_told BoundingGeometry.build_told hg))
      (commitAs_told PostalAddress.build_told ha)) (commitAs_told VerticalExtent.build_told hx))

end GeospatialCoverage

end Places

end DiscoveryMetadata
