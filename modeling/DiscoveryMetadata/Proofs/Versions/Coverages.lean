import DiscoveryMetadata.Proofs.Versions.Basic
/-
  Components have one version with their parts: what a resource covers.
-/
namespace DiscoveryMetadata

open Xml (Element)
open DiscoveryMetadata.Part (Fits)

variable {ctx : Context} {v : Version} {e : Element}

section Subjects

namespace Keyword

theorem checked_fits {c d : Keyword} (h : checked c = .ok d) (hs : c.security.version = c.version)
    (hx : c.extensible.isEmpty = false → c.extensible.version = c.version) :
    Fits (.keyword d) := by
  simp only [checked, bind_ok, check_ok, pure_ok, exists_unit] at h
  obtain ⟨-, rfl⟩ := h
  exact .of_extensible rfl rfl hx (.cons (Part.agree_attributes hs) .nil)

theorem ofElement_fits {c : Keyword} (h : ofElement ctx v e = .ok c) : Fits (.keyword c) := by
  simp only [ofElement, bind_ok, within_ok] at h
  obtain ⟨s, hs, h⟩ := h
  exact checked_fits h (SecurityAttributes.version_ofElement hs) fun _ => rfl

theorem make_fits {value : String} {s : SecurityAttributes} {x : ExtensibleAttributes} {c : Keyword}
    (h : make ctx v value s x = .ok c) : Fits (.keyword c) := by
  simp only [make, bind_ok, within_ok] at h
  obtain ⟨_, ⟨_, hs, hx⟩, h⟩ := h
  exact checked_fits h (SecurityAttributes.version_addTo hs) (ExtensibleAttributes.version_addTo hx)

end Keyword

namespace Category

theorem checked_fits {c d : Category} (h : checked c = .ok d)
    (hs : c.security.version = c.version)
    (hx : c.extensible.isEmpty = false → c.extensible.version = c.version) :
    Fits (.category d) := by
  simp only [checked, bind_ok, check_ok, pure_ok, exists_unit] at h
  obtain ⟨-, rfl⟩ := h
  exact .of_extensible rfl rfl hx (.cons (Part.agree_attributes hs) .nil)

theorem ofElement_fits {c : Category} (h : ofElement ctx v e = .ok c) : Fits (.category c) := by
  simp only [ofElement, bind_ok, within_ok] at h
  obtain ⟨s, hs, h⟩ := h
  exact checked_fits h (SecurityAttributes.version_ofElement hs) fun _ => rfl

theorem make_fits {qualifier code label : String} {s : SecurityAttributes}
    {x : ExtensibleAttributes} {c : Category} (h : make ctx v qualifier code label s x = .ok c) :
    Fits (.category c) := by
  simp only [make, bind_ok, within_ok] at h
  obtain ⟨_, ⟨_, hs, hx⟩, h⟩ := h
  exact checked_fits h (SecurityAttributes.version_addTo hs) (ExtensibleAttributes.version_addTo hx)

end Category

namespace ProductionMetric

theorem checked_fits {c d : ProductionMetric} (h : checked c = .ok d)
    (hs : c.security.version = c.version) : Fits (.productionMetric d) := by
  simp only [checked, bind_ok, check_ok, pure_ok, exists_unit] at h
  obtain ⟨-, rfl⟩ := h
  exact .marked rfl rfl rfl hs

theorem ofElement_fits {c : ProductionMetric} (h : ofElement ctx v e = .ok c) :
    Fits (.productionMetric c) := by
  simp only [ofElement, bind_ok, within_ok] at h
  obtain ⟨s, hs, h⟩ := h
  exact checked_fits h (SecurityAttributes.version_ofElement hs)

theorem make_fits {subject coverage : String} {s : SecurityAttributes}
    {c : ProductionMetric} (h : make ctx v subject coverage s = .ok c) :
    Fits (.productionMetric c) := by
  simp only [make, bind_ok, within_ok] at h
  obtain ⟨_, hs, h⟩ := h
  exact checked_fits h (SecurityAttributes.version_addTo hs)

end ProductionMetric

namespace NonStateActor

theorem checked_fits {c d : NonStateActor} (h : checked c = .ok d)
    (hs : c.security.version = c.version) : Fits (.nonStateActor d) := by
  simp only [checked, bind_ok, check_ok, pure_ok, exists_unit] at h
  obtain ⟨-, rfl⟩ := h
  exact .marked rfl rfl rfl hs

theorem ofElement_fits {c : NonStateActor} (h : ofElement ctx v e = .ok c) :
    Fits (.nonStateActor c) := by
  simp only [ofElement, bind_ok, within_ok] at h
  obtain ⟨_, -, s, hs, h⟩ := h
  exact checked_fits h (SecurityAttributes.version_ofElement hs)

theorem make_fits {value qualifier : String} {order : Option Int} {s : SecurityAttributes}
    {c : NonStateActor} (h : make ctx v value order qualifier s = .ok c) :
    Fits (.nonStateActor c) := by
  simp only [make, bind_ok, within_ok] at h
  obtain ⟨_, hs, h⟩ := h
  exact checked_fits h (SecurityAttributes.version_addTo hs)

end NonStateActor

namespace SubjectCoverage

theorem checked_fits {c d : SubjectCoverage} (h : checked c = .ok d)
    (hs : c.security.version = c.version) : Fits (.subjectCoverage d) := by
  simp only [checked, rules, bind_ok, check_ok, pure_ok, exists_unit,
    Base.requireSameVersions_ok] at h
  obtain ⟨⟨-, -, -, hc, -⟩, rfl⟩ := h
  simp only [parts, List.forall_mem_append] at hc
  obtain ⟨⟨⟨hk, hca⟩, hm⟩, ha⟩ := hc
  exact .of rfl rfl (.append (.append (.append (.cons (Part.agree_attributes hs)
    (.map hk fun _ => rfl)) (.map hca fun _ => rfl)) (.map hm fun _ => rfl)) (.map ha fun _ => rfl))

theorem ofElement_fits {c : SubjectCoverage} (h : ofElement ctx v e = .ok c) :
    Fits (.subjectCoverage c) := by
  simp only [ofElement, bind_ok, within_ok] at h
  obtain ⟨_, -, _, -, _, -, _, -, s, hs, h⟩ := h
  exact checked_fits h (SecurityAttributes.version_ofElement hs)

theorem make_fits {keywords : List Keyword} {categories : List Category}
    {metrics : List ProductionMetric} {actors : List NonStateActor} {s : SecurityAttributes}
    {c : SubjectCoverage} (h : make ctx v keywords categories metrics actors s = .ok c) :
    Fits (.subjectCoverage c) := by
  simp only [make, bind_ok, within_ok] at h
  obtain ⟨_, hs, h⟩ := h
  exact checked_fits h (SecurityAttributes.version_addTo hs)

end SubjectCoverage

end Subjects

section Times

namespace VirtualCoverage

theorem checked_fits {c d : VirtualCoverage} (h : checked c = .ok d)
    (hs : c.security.version = c.version) : Fits (.virtualCoverage d) := by
  simp only [checked, bind_ok, check_ok, pure_ok, exists_unit] at h
  obtain ⟨-, rfl⟩ := h
  exact .marked rfl rfl rfl hs

theorem ofElement_fits {c : VirtualCoverage} (h : ofElement ctx v e = .ok c) :
    Fits (.virtualCoverage c) := by
  simp only [ofElement, bind_ok, within_ok] at h
  obtain ⟨s, hs, h⟩ := h
  exact checked_fits h (SecurityAttributes.version_ofElement hs)

theorem make_fits {address protocol : String} {s : SecurityAttributes}
    {c : VirtualCoverage} (h : make ctx v address protocol s = .ok c) :
    Fits (.virtualCoverage c) := by
  simp only [make, bind_ok, within_ok] at h
  obtain ⟨_, hs, h⟩ := h
  exact checked_fits h (SecurityAttributes.version_addTo hs)

end VirtualCoverage

namespace TemporalCoverage

/-- The approximable dates that start or end a period were made for the version of the coverage. -/
theorem version_of_contentRules {c : TemporalCoverage} {holder : Element} {u : Unit}
    (h : c.contentRules holder = .ok u) : ∀ x ∈ c.parts, x.version = c.version := by
  have hfit : ∀ bound ∈ [c.start, c.finish].filterMap id, checkFit c.toBase bound = .ok () := by
    simp only [contentRules, bind_ok, exists_unit] at h
    obtain ⟨-, h⟩ := h
    split at h
    all_goals
      simp only [bind_ok, exists_unit, forM_ok] at h
      exact h.2.2.1
  rintro _ hx
  obtain ⟨date, hd, rfl⟩ := List.mem_map.1 hx
  obtain ⟨bound, hb, hd⟩ := List.mem_filterMap.1 hd
  obtain rfl : bound = some (.approximate date) := by
    unfold date? at hd
    split at hd
    case h_1 => cases hd; rfl
    case h_2 => cases hd
  exact (c.toBase.requireSameVersion_ok date.toBase).1
    (hfit _ (List.mem_filterMap.2 ⟨_, hb, rfl⟩))

theorem checked_fits {c d : TemporalCoverage} (h : checked c = .ok d)
    (hs : c.security.version = c.version) : Fits (.temporalCoverage d) := by
  simp only [checked, bind_ok, check_ok, pure_ok, exists_unit] at h
  obtain ⟨hr, rfl⟩ := h
  have hc : ∀ x ∈ c.parts, x.version = c.version := by
    unfold rules at hr
    cases hh : c.element.holder? c.version wrapper with
    | none => simp only [hh, bind_ok, throw_ok, and_false, exists_false] at hr
    | some holder =>
      simp only [hh, bind_ok, exists_unit, withinHolder_ok] at hr
      obtain ⟨-, hr, -⟩ := hr
      exact version_of_contentRules hr
  exact .of rfl rfl (.cons (Part.agree_attributes hs) (.map hc fun _ => rfl))

theorem ofElement_fits {c : TemporalCoverage} (h : ofElement ctx v e = .ok c) :
    Fits (.temporalCoverage c) := by
  simp only [ofElement, bind_ok, within_ok] at h
  obtain ⟨_, -, _, -, s, hs, h⟩ := h
  exact checked_fits h (SecurityAttributes.version_ofElement hs)

theorem make_fits {name : String} {start finish : TimeBound} {s : SecurityAttributes}
    {c : TemporalCoverage} (h : make ctx v name start finish s = .ok c) :
    Fits (.temporalCoverage c) := by
  simp only [make, bind_ok, within_ok] at h
  obtain ⟨_, hs, h⟩ := h
  exact checked_fits h (SecurityAttributes.version_addTo hs)

end TemporalCoverage

end Times

section Places

namespace GeographicIdentifier

theorem checked_fits {c d : GeographicIdentifier} (h : checked c = .ok d) :
    Fits (.geographicIdentifier d) := by
  simp only [checked, rules, bind_ok, check_ok, pure_ok, exists_unit,
    Base.requireSameVersions_ok, parts, codes, List.forall_mem_append] at h
  obtain ⟨⟨-, -, -, -, ⟨hcountry, hsub⟩, hfacility⟩, rfl⟩ := h
  exact .of rfl rfl (.append (.append (.option hcountry fun _ => rfl) (.option hsub fun _ => rfl))
    (.option hfacility fun _ => rfl))

theorem ofElement_fits {c : GeographicIdentifier} (h : ofElement ctx v e = .ok c) :
    Fits (.geographicIdentifier c) := by
  simp only [ofElement, bind_ok, within_ok] at h
  obtain ⟨_, -, _, -, _, -, h⟩ := h
  exact checked_fits h

end GeographicIdentifier

namespace Polygon

theorem checked_fits {c d : Polygon} (h : checked c = .ok d) : Fits (.polygon d) := by
  simp only [checked, bind_ok, check_ok, pure_ok, exists_unit] at h
  obtain ⟨hr, rfl⟩ := h
  have hc : ∀ x ∈ c.positions.map (·.toBase), x.version = c.version := by
    simp only [rules, bind_ok, exists_unit] at hr
    obtain ⟨-, hr⟩ := hr
    cases he : exterior? c.element with
    | none => simp only [he, bind_ok, throw_ok, false_and, exists_false] at hr
    | some exterior =>
      simp only [he, bind_ok, exists_unit, forM_ok, checkPosition, Base.requireSameVersion_ok] at hr
      obtain ⟨-, hr, -⟩ := hr
      exact List.forall_mem_map.2 fun p hp => (hr p hp).1
  exact .of rfl rfl (.map hc fun _ => rfl)

theorem ofElement_fits {c : Polygon} (h : ofElement ctx v e = .ok c) : Fits (.polygon c) := by
  simp only [ofElement, bind_ok, within_ok] at h
  obtain ⟨_, -, _, -, h⟩ := h
  exact checked_fits h

theorem make_fits {positions : List Position} {srs : SrsAttributes} {id : String} {c : Polygon}
    (h : make ctx v positions srs id = .ok c) : Fits (.polygon c) := by
  simp only [make, bind_ok] at h
  obtain ⟨_, -, _, -, _, -, h⟩ := h
  exact checked_fits h

end Polygon

namespace Point

theorem checked_fits {c d : Point} (h : checked c = .ok d) : Fits (.point d) := by
  simp only [checked, bind_ok, check_ok, pure_ok, exists_unit] at h
  obtain ⟨hr, rfl⟩ := h
  have hc : ∀ x ∈ (c.position.map (·.toBase)).toList, x.version = c.version := by
    unfold rules at hr
    cases ho : c.position with
    | none => simp only [ho, bind_ok, throw_ok, and_false, exists_false] at hr
    | some position =>
      simp only [ho, bind_ok, exists_unit, Base.requireSameVersion_ok] at hr
      obtain ⟨-, hv, -⟩ := hr
      simpa using hv
  exact .of rfl rfl (.option hc fun _ => rfl)

theorem ofElement_fits {c : Point} (h : ofElement ctx v e = .ok c) : Fits (.point c) := by
  simp only [ofElement, bind_ok, within_ok] at h
  obtain ⟨_, -, _, -, h⟩ := h
  exact checked_fits h

theorem make_fits {position : Position} {srs : SrsAttributes} {id : String} {c : Point}
    (h : make ctx v position srs id = .ok c) : Fits (.point c) := by
  simp only [make, bind_ok] at h
  obtain ⟨_, -, h⟩ := h
  exact checked_fits h

end Point

namespace BoundingGeometry

theorem checked_fits {c d : BoundingGeometry} (h : checked c = .ok d) :
    Fits (.boundingGeometry d) := by
  simp only [checked, rules, bind_ok, check_ok, pure_ok, exists_unit,
    Base.requireSameVersions_ok, parts, List.forall_mem_append] at h
  obtain ⟨⟨-, -, hpolygons, hpoints⟩, rfl⟩ := h
  exact .of rfl rfl (.append (.map hpolygons fun _ => rfl) (.map hpoints fun _ => rfl))

theorem ofElement_fits {c : BoundingGeometry} (h : ofElement ctx v e = .ok c) :
    Fits (.boundingGeometry c) := by
  simp only [ofElement, bind_ok, within_ok] at h
  obtain ⟨_, -, _, -, h⟩ := h
  exact checked_fits h

end BoundingGeometry

namespace PostalAddress

theorem checked_fits {c d : PostalAddress} (h : checked c = .ok d) : Fits (.postalAddress d) := by
  simp only [checked, rules, bind_ok, check_ok, pure_ok, exists_unit,
    Base.requireSameVersions_ok] at h
  obtain ⟨⟨-, -, -, -, hc⟩, rfl⟩ := h
  exact .of rfl rfl (.option hc fun _ => rfl)

theorem ofElement_fits {c : PostalAddress} (h : ofElement ctx v e = .ok c) :
    Fits (.postalAddress c) := by
  simp only [ofElement, bind_ok, within_ok] at h
  obtain ⟨_, -, h⟩ := h
  exact checked_fits h

end PostalAddress

namespace GeospatialCoverage

theorem checked_fits {c d : GeospatialCoverage} (h : checked c = .ok d)
    (hs : c.security.version = c.version) : Fits (.geospatialCoverage d) := by
  simp only [checked, bind_ok, check_ok, pure_ok, exists_unit] at h
  obtain ⟨hr, rfl⟩ := h
  have hc : ∀ x ∈ c.extents.parts, x.version = c.version := by
    unfold rules at hr
    cases hh : c.element.holder? c.version wrapper with
    | none => simp only [hh, bind_ok, throw_ok, and_false, exists_false, false_and] at hr
    | some holder =>
      simp only [hh, bind_ok, exists_unit, Base.requireSameVersions_ok] at hr
      obtain ⟨-, -, -, -, hparts, -⟩ := hr
      exact hparts
  simp only [GeospatialExtents.parts, List.forall_mem_append] at hc
  obtain ⟨⟨⟨⟨hidentifier, hbox⟩, hgeometry⟩, haddress⟩, hvertical⟩ := hc
  exact .of rfl rfl (.cons (Part.agree_attributes hs) (.append (.append (.append (.append
    (.option hidentifier fun _ => rfl) (.option hbox fun _ => rfl))
    (.option hgeometry fun _ => rfl)) (.option haddress fun _ => rfl))
    (.option hvertical fun _ => rfl)))

theorem ofElement_fits {c : GeospatialCoverage} (h : ofElement ctx v e = .ok c) :
    Fits (.geospatialCoverage c) := by
  simp only [ofElement, bind_ok, within_ok] at h
  obtain ⟨_, -, _, -, s, hs, h⟩ := h
  exact checked_fits h (SecurityAttributes.version_ofElement hs)

theorem make_fits {extents : GeospatialExtents} {precedence : String} {order : Option Int}
    {s : SecurityAttributes} {c : GeospatialCoverage}
    (h : make ctx v extents precedence order s = .ok c) : Fits (.geospatialCoverage c) := by
  simp only [make, bind_ok, within_ok] at h
  obtain ⟨_, hs, h⟩ := h
  exact checked_fits h (SecurityAttributes.version_addTo hs)

end GeospatialCoverage

end Places

end DiscoveryMetadata
