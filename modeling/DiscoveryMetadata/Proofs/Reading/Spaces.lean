import DiscoveryMetadata.Coverage.Geospatial
import DiscoveryMetadata.Proofs.Reading.Alike
/-
  Places, shapes and spaces from alike elements.
-/
namespace DiscoveryMetadata

open Xml (Element)

variable {p : Option String → Option String} {e e' : Element} {ctx : Context} {v : Version}

namespace AreaCode

variable {kind : Kind}

instance : Restyled AreaCode where
  restyle p c := { c with toBase := c.toBase.restyle p }
  lines_restyle p c stem index := by simp [Component.lines]

theorem beq_restyle (a b : AreaCode) : (restyle p a == restyle p b) = (a == b) := by
  cases a
  cases b
  exact congrArg (· && _) (Base.beq_restyle p _ _)

theorem rules_steady : Steady (restyle p) rules := by
  intro c r
  simp [rules, restyle]

theorem ofElement_alike (h : e.restyle p = e'.restyle p) :
    Alike (restyle p) (ofElement kind ctx v e) (ofElement kind ctx v e') := by
  refine Alike.checked (k := fun (c : AreaCode) _ => c) rules_steady (fun _ _ => rfl) ?_ _ _
  simp only [restyle, Base.restyle, h, Element.own_congr h]

end AreaCode

namespace FacilityIdentifier

instance : Restyled FacilityIdentifier where
  restyle p c := { c with toBase := c.toBase.restyle p }
  lines_restyle p c stem index := by simp [Component.lines]

theorem beq_restyle (a b : FacilityIdentifier) : (restyle p a == restyle p b) = (a == b) := by
  cases a
  cases b
  exact congrArg (· && _) (Base.beq_restyle p _ _)

theorem rules_steady : Steady (restyle p) rules := by
  intro c r
  simp [rules, restyle]

theorem ofElement_alike (h : e.restyle p = e'.restyle p) :
    Alike (restyle p) (ofElement ctx v e) (ofElement ctx v e') := by
  refine Alike.checked (k := fun (c : FacilityIdentifier) _ => c) rules_steady
    (fun _ _ => rfl) ?_ _ _
  simp only [restyle, Base.restyle, h, Element.own_congr h]

end FacilityIdentifier

namespace GeographicIdentifier

instance : Restyled GeographicIdentifier where
  restyle p c := { c with
    toBase := c.toBase.restyle p
    countryCode := c.countryCode.map (restyle p)
    subDivisionCode := c.subDivisionCode.map (restyle p)
    facilityIdentifier := c.facilityIdentifier.map (restyle p) }
  lines_restyle p c stem index := by simp [Component.lines]

theorem beq_restyle (a b : GeographicIdentifier) : (restyle p a == restyle p b) = (a == b) := by
  obtain ⟨b1, n1, r1, c1, s1, f1⟩ := a
  obtain ⟨b2, n2, r2, c2, s2, f2⟩ := b
  change (_ == _ && (_ == _ && (_ == _ && (_ == _ && (_ == _ && _ == _))))) =
    (_ == _ && (_ == _ && (_ == _ && (_ == _ && (_ == _ && _ == _)))))
  rw [Base.beq_restyle, beq_optionMap AreaCode.beq_restyle, beq_optionMap AreaCode.beq_restyle,
    beq_optionMap FacilityIdentifier.beq_restyle]

theorem codes_restyle (c : GeographicIdentifier) :
    (restyle p c).codes = c.codes.map (·.restyle p) := by
  simp [codes, restyle, Function.comp_def, ← Option.toList_map]

theorem parts_restyle (c : GeographicIdentifier) :
    (restyle p c).parts = c.parts.map (·.restyle p) := by
  rw [parts, parts, codes_restyle]
  simp [restyle, Function.comp_def, ← Option.toList_map]

theorem isNameless_restyle (c : GeographicIdentifier) :
    (restyle p c).isNameless = c.isNameless := by
  rw [isNameless, codes_restyle, List.isEmpty_map]
  rfl

theorem rules_steady : Steady (restyle p) rules := by
  intro c r
  have hf : (restyle p c).hasFacility = c.hasFacility := Option.isSome_map
  simp only [rules, parts_restyle, isNameless_restyle, hf]
  simp [restyle]

theorem ofElement_alike (h : e.restyle p = e'.restyle p) :
    Alike (restyle p) (ofElement ctx v e) (ofElement ctx v e') := by
  refine ((Alike.readOption (Element.ownChild?_congr h _) fun _ _ =>
    AreaCode.ofElement_alike).within _ _).bind fun c1 c2 hc => ?_
  refine ((Alike.readOption (Element.ownChild?_congr h _) fun _ _ =>
    AreaCode.ofElement_alike).within _ _).bind fun s1 s2 hs => ?_
  refine ((Alike.readOption (Element.ownChild?_congr h _) fun _ _ =>
    FacilityIdentifier.ofElement_alike).within _ _).bind fun f1 f2 hf => ?_
  refine Alike.checked (k := fun (c : GeographicIdentifier) _ => { c with warnings := c.findings })
    rules_steady (fun _ _ => rfl) ?_ _ _
  change GeographicIdentifier.mk ⟨_, _, _⟩ _ _ _ _ _ = GeographicIdentifier.mk ⟨_, _, _⟩ _ _ _ _ _
  simp only [h, hc, hs, hf, Element.childTexts_congr h, Element.uri_congr h]

end GeographicIdentifier

namespace Measure

theorem numberIn_congr (h : e.restyle p = e'.restyle p) (l : String) :
    numberIn e l = numberIn e' l := by
  have hc := Element.map_ownChild?_congr h (Element.content_restyle p) l
  unfold numberIn
  cases h1 : e.ownChild? l with
  | none =>
    rw [h1] at hc
    rw [Option.map_eq_none_iff.1 hc.symm]
  | some x =>
    rw [h1] at hc
    obtain ⟨y, hy, hxy⟩ := Option.map_eq_some_iff.1 hc.symm
    rw [hy]
    simp only [hxy]

theorem numberIn_alike (h : e.restyle p = e'.restyle p) (l m n : String) :
    Alike id (within m (numberIn e l)) (within n (numberIn e' l)) :=
  (Alike.of_eq (numberIn_congr h l)).within m n

end Measure

namespace BoundingBox

instance : Restyled BoundingBox where
  restyle p c := { c with toBase := c.toBase.restyle p }
  lines_restyle p c stem index := by simp [Component.lines]

theorem beq_restyle (a b : BoundingBox) : (restyle p a == restyle p b) = (a == b) := by
  cases a
  cases b
  exact congrArg (· && _) (Base.beq_restyle p _ _)

theorem rules_steady : Steady (restyle p) rules := by
  intro c r
  simp [rules, restyle]

theorem ofElement_alike (h : e.restyle p = e'.restyle p) :
    Alike (restyle p) (ofElement ctx v e) (ofElement ctx v e') := by
  refine (Measure.numberIn_alike h _ _ _).bind ?_
  rintro w _ rfl
  refine (Measure.numberIn_alike h _ _ _).bind ?_
  rintro x _ rfl
  refine (Measure.numberIn_alike h _ _ _).bind ?_
  rintro s _ rfl
  refine (Measure.numberIn_alike h _ _ _).bind ?_
  rintro n _ rfl
  refine Alike.checked (k := fun (c : BoundingBox) _ => c) rules_steady (fun _ _ => rfl) ?_ _ _
  simp only [restyle, Base.restyle, h, id]

end BoundingBox

namespace VerticalExtent

instance : Restyled VerticalExtent where
  restyle p c := { c with toBase := c.toBase.restyle p }
  lines_restyle p c stem index := by simp [Component.lines]

theorem beq_restyle (a b : VerticalExtent) : (restyle p a == restyle p b) = (a == b) := by
  cases a
  cases b
  exact congrArg (· && _) (Base.beq_restyle p _ _)

theorem checkInherited_restyle (c : VerticalExtent) (extent : Element) :
    (restyle p c).checkInherited (extent.restyle p) = c.checkInherited extent := by
  simp [checkInherited, restyle]

theorem rules_steady : Steady (restyle p) rules := by
  intro c r
  have he : (restyle p c).element = c.element.restyle p := rfl
  simp only [rules, bind_ok, forM_ok, he, requireDdms_restyle, Element.ownChild?_restyle,
    Option.toList_map, List.mem_map, forall_exists_index, and_imp, forall_apply_eq_imp_iff₂,
    checkInherited_restyle]
  exact Iff.rfl

theorem ofElement_alike (h : e.restyle p = e'.restyle p) :
    Alike (restyle p) (ofElement ctx v e) (ofElement ctx v e') := by
  refine (Measure.numberIn_alike h _ _ _).bind ?_
  rintro x _ rfl
  refine (Measure.numberIn_alike h _ _ _).bind ?_
  rintro y _ rfl
  refine Alike.checked (k := fun (c : VerticalExtent) _ => c) rules_steady (fun _ _ => rfl) ?_ _ _
  simp only [restyle, Base.restyle, h, Element.own_congr h, id]

end VerticalExtent

namespace PostalAddress

instance : Restyled PostalAddress where
  restyle p c := { c with
    toBase := c.toBase.restyle p, countryCode := c.countryCode.map (restyle p) }
  lines_restyle p c stem index := by simp [Component.lines]

theorem beq_restyle (a b : PostalAddress) : (restyle p a == restyle p b) = (a == b) := by
  obtain ⟨b1, s1, c1, t1, p1, z1, a1⟩ := a
  obtain ⟨b2, s2, c2, t2, p2, z2, a2⟩ := b
  change (_ == _ && (_ == _ && (_ == _ && (_ == _ && (_ == _ && (_ == _ && _ == _)))))) =
    (_ == _ && (_ == _ && (_ == _ && (_ == _ && (_ == _ && (_ == _ && _ == _))))))
  rw [Base.beq_restyle, beq_optionMap AreaCode.beq_restyle]

theorem rules_steady : Steady (restyle p) rules := by
  intro c r
  simp [rules, restyle]

theorem ofElement_alike (h : e.restyle p = e'.restyle p) :
    Alike (restyle p) (ofElement ctx v e) (ofElement ctx v e') := by
  refine ((Alike.readOption (Element.ownChild?_congr h _) fun _ _ =>
    AreaCode.ofElement_alike).within _ _).bind fun c1 c2 hc => ?_
  refine Alike.checked (k := fun (c : PostalAddress) _ => { c with warnings := c.findings })
    rules_steady (fun _ _ => rfl) ?_ _ _
  change PostalAddress.mk ⟨_, _, _⟩ _ _ _ _ _ _ = PostalAddress.mk ⟨_, _, _⟩ _ _ _ _ _ _
  simp only [h, hc, Element.childTexts_congr h, Element.uri_congr h, Element.ownText_congr h]

end PostalAddress

namespace Position

instance : Restyled Position where
  restyle p c := { c with toBase := c.toBase.restyle p }
  lines_restyle p c stem index := by simp [Component.lines]

theorem beq_restyle (a b : Position) : (restyle p a == restyle p b) = (a == b) := by
  cases a
  cases b
  exact congrArg (· && _) (Base.beq_restyle p _ _)

theorem rules_steady : Steady (restyle p) rules := by
  intro c r
  simp [rules, restyle]

theorem ofElement_alike (h : e.restyle p = e'.restyle p) :
    Alike (restyle p) (ofElement ctx v e) (ofElement ctx v e') := by
  rw [ofElement, ofElement, Element.content_congr h]
  refine ((Alike.of_eq (f := id) rfl).within _ _).bind ?_
  rintro xs _ rfl
  refine (SrsAttributes.ofElement_alike h _ _).bind ?_
  rintro a _ rfl
  refine Alike.checked (k := fun (c : Position) _ => c) rules_steady (fun _ _ => rfl) ?_ _ _
  simp only [restyle, Base.restyle, h, id]

end Position

@[simp]
theorem Shape.rules_restyle (b : Base) (localName id : String) (srs : SrsAttributes) {u : Unit} :
    Shape.rules (b.restyle p) localName id srs = .ok u ↔
      Shape.rules b localName id srs = .ok u := by
  simp [Shape.rules]

@[simp]
theorem Shape.checkSystem_restyle (srs : SrsAttributes) (c : Position) (sentence : String) :
    Shape.checkSystem srs (restyle p c) sentence = Shape.checkSystem srs c sentence := rfl

namespace Point

instance : Restyled Point where
  restyle p c := { c with toBase := c.toBase.restyle p, position := c.position.map (restyle p) }
  lines_restyle p c stem index := by simp [Component.lines]

theorem beq_restyle (a b : Point) : (restyle p a == restyle p b) = (a == b) := by
  obtain ⟨b1, i1, s1, c1⟩ := a
  obtain ⟨b2, i2, s2, c2⟩ := b
  change (_ == _ && (_ == _ && (_ == _ && _ == _))) = (_ == _ && (_ == _ && (_ == _ && _ == _)))
  rw [Base.beq_restyle, beq_optionMap Position.beq_restyle]

theorem rules_steady : Steady (restyle p) rules := by
  intro c r
  cases hc : c.position with
  | none => simp [rules, restyle, hc]
  | some position => simp [rules, restyle, hc, Shape.checkSystem]

theorem ofElement_alike (h : e.restyle p = e'.restyle p) :
    Alike (restyle p) (ofElement ctx v e) (ofElement ctx v e') := by
  refine ((Alike.readOption (Element.ownChild?_congr h _) fun _ _ =>
    Position.ofElement_alike).within _ _).bind fun c1 c2 hc => ?_
  refine (SrsAttributes.ofElement_alike h _ _).bind ?_
  rintro a _ rfl
  refine Alike.checked (k := fun (c : Point) _ => { c with warnings := c.findings })
    rules_steady (fun _ _ => rfl) ?_ _ _
  change Point.mk ⟨_, _, _⟩ _ _ _ = Point.mk ⟨_, _, _⟩ _ _ _
  simp only [h, hc, Element.attributeText_congr h]
  rfl

end Point

namespace Polygon

instance : Restyled Polygon where
  restyle p c := { c with toBase := c.toBase.restyle p, positions := c.positions.map (restyle p) }
  lines_restyle p c stem index := by simp [Component.lines]

theorem beq_restyle (a b : Polygon) : (restyle p a == restyle p b) = (a == b) := by
  obtain ⟨b1, i1, s1, c1⟩ := a
  obtain ⟨b2, i2, s2, c2⟩ := b
  change (_ == _ && (_ == _ && (_ == _ && _ == _))) = (_ == _ && (_ == _ && (_ == _ && _ == _)))
  rw [Base.beq_restyle, beq_map Position.beq_restyle]

theorem checkPosition_restyle (c : Polygon) (position : Position) {u : Unit} :
    (restyle p c).checkPosition (restyle p position) = .ok u ↔ c.checkPosition position = .ok u := by
  simp [checkPosition, restyle, Shape.checkSystem]

theorem samePlace_restyle (a b : Option Position) :
    samePlace (a.map (restyle p)) (b.map (restyle p)) = samePlace a b := by
  cases a <;> cases b <;> rfl

theorem exterior?_restyle (e : Element) :
    exterior? (e.restyle p) = (exterior? e).map (·.restyle p) := Element.ownChild?_restyle p e _

theorem ring?_restyle (e exterior : Element) :
    ring? (e.restyle p) (exterior.restyle p) = (ring? e exterior).map (·.restyle p) := by
  rw [ring?, ring?, Element.uri_restyle, Element.child?_restyle]

theorem rules_steady : Steady (restyle p) rules := by
  intro c r
  have hc : (restyle p c).positions = c.positions.map (restyle p) := rfl
  have hb : (restyle p c).toBase = c.toBase.restyle p := rfl
  have hpositions : (c.positions.map (restyle p)).forM (restyle p c).checkPosition = .ok () ↔
      c.positions.forM c.checkPosition = .ok () := by
    simp only [forM_ok, List.mem_map, forall_exists_index, and_imp, forall_apply_eq_imp_iff₂,
      checkPosition_restyle]
  cases hx : exterior? c.element with
  | none => simp [rules, hb, hx, exterior?_restyle]
  | some exterior =>
    simp only [rules, bind_ok, exists_unit, hb, hc, hx, hpositions, Base.element_restyle,
      exterior?_restyle, ring?_restyle, Shape.rules_restyle, Option.map_some, Option.isSome_map,
      List.length_map, List.head?_map, List.getLast?_map, samePlace_restyle, demand_ok]
    exact Iff.rfl

theorem readPositions_alike (h : e.restyle p = e'.restyle p) :
    Alike (List.map (restyle p)) (readPositions ctx v e) (readPositions ctx v e') := by
  have hx : (exterior? e).map (·.restyle p) = (exterior? e').map (·.restyle p) := by
    rw [← exterior?_restyle, h, exterior?_restyle]
  unfold readPositions
  cases h1 : exterior? e with
  | none =>
    rw [h1] at hx
    rw [Option.map_eq_none_iff.1 hx.symm]
    exact .of_eq rfl
  | some x =>
    rw [h1] at hx
    obtain ⟨x', hx', hxx⟩ := Option.map_eq_some_iff.1 hx.symm
    have hr : (ring? e x).map (·.restyle p) = (ring? e' x').map (·.restyle p) := by
      rw [← ring?_restyle, h, ← ring?_restyle, hxx]
    rw [hx']
    dsimp only
    cases h2 : ring? e x with
    | none =>
      rw [h2] at hr
      rw [Option.map_eq_none_iff.1 hr.symm]
      exact .of_eq rfl
    | some y =>
      rw [h2] at hr
      obtain ⟨y', hy', hyy⟩ := Option.map_eq_some_iff.1 hr.symm
      rw [hy', Element.uri_congr h]
      exact ((Alike.readAll (Element.childrenNamed_congr hyy.symm _ _) fun _ _ =>
        Position.ofElement_alike).within _ _).within _ _

theorem ofElement_alike (h : e.restyle p = e'.restyle p) :
    Alike (restyle p) (ofElement ctx v e) (ofElement ctx v e') := by
  refine ((readPositions_alike h).within _ _).bind fun c1 c2 hc => ?_
  refine (SrsAttributes.ofElement_alike h _ _).bind ?_
  rintro a _ rfl
  refine Alike.checked (k := fun (c : Polygon) _ => { c with warnings := c.findings })
    rules_steady (fun _ _ => rfl) ?_ _ _
  change Polygon.mk ⟨_, _, _⟩ _ _ _ = Polygon.mk ⟨_, _, _⟩ _ _ _
  simp only [h, hc, Element.attributeText_congr h]
  rfl

end Polygon

namespace BoundingGeometry

instance : Restyled BoundingGeometry where
  restyle p c := { c with
    toBase := c.toBase.restyle p
    polygons := c.polygons.map (restyle p)
    points := c.points.map (restyle p) }
  lines_restyle p c stem index := by simp [Component.lines]

theorem beq_restyle (a b : BoundingGeometry) : (restyle p a == restyle p b) = (a == b) := by
  obtain ⟨b1, s1, c1⟩ := a
  obtain ⟨b2, s2, c2⟩ := b
  change (_ == _ && (_ == _ && _ == _)) = (_ == _ && (_ == _ && _ == _))
  rw [Base.beq_restyle, beq_map Polygon.beq_restyle, beq_map Point.beq_restyle]

theorem parts_restyle (c : BoundingGeometry) :
    (restyle p c).parts = c.parts.map (·.restyle p) := by
  simp [parts, restyle, Function.comp_def]

theorem rules_steady : Steady (restyle p) rules := by
  intro c r
  simp only [rules, parts_restyle]
  simp [restyle]

theorem ofElement_alike (h : e.restyle p = e'.restyle p) :
    Alike (restyle p) (ofElement ctx v e) (ofElement ctx v e') := by
  refine ((Alike.readAll (Element.childrenNamed_congr h _ _) fun _ _ =>
    Polygon.ofElement_alike).within _ _).bind fun s1 s2 hs => ?_
  refine ((Alike.readAll (Element.childrenNamed_congr h _ _) fun _ _ =>
    Point.ofElement_alike).within _ _).bind fun c1 c2 hc => ?_
  refine Alike.checked (k := fun (c : BoundingGeometry) _ => { c with warnings := c.findings })
    rules_steady (fun _ _ => rfl) ?_ _ _
  change BoundingGeometry.mk ⟨_, _, _⟩ _ _ = BoundingGeometry.mk ⟨_, _, _⟩ _ _
  simp only [h, hs, hc]

end BoundingGeometry

namespace GeospatialExtents

/-- The descriptions with the prefixes of their elements changed. -/
def restyle (p : Option String → Option String) (x : GeospatialExtents) : GeospatialExtents :=
  ⟨x.geographicIdentifier.map (Restyled.restyle p), x.boundingBox.map (Restyled.restyle p),
    x.boundingGeometry.map (Restyled.restyle p), x.postalAddress.map (Restyled.restyle p),
    x.verticalExtent.map (Restyled.restyle p)⟩

@[simp]
theorem lines_restyle (x : GeospatialExtents) (stem : String) :
    (x.restyle p).lines stem = x.lines stem := by
  simp [lines, restyle]

theorem beq_restyle (a b : GeospatialExtents) : (a.restyle p == b.restyle p) = (a == b) := by
  obtain ⟨i1, x1, g1, a1, v1⟩ := a
  obtain ⟨i2, x2, g2, a2, v2⟩ := b
  change (_ == _ && (_ == _ && (_ == _ && (_ == _ && _ == _)))) =
    (_ == _ && (_ == _ && (_ == _ && (_ == _ && _ == _))))
  rw [beq_optionMap GeographicIdentifier.beq_restyle, beq_optionMap BoundingBox.beq_restyle,
    beq_optionMap BoundingGeometry.beq_restyle, beq_optionMap PostalAddress.beq_restyle,
    beq_optionMap VerticalExtent.beq_restyle]

@[simp]
theorem parts_restyle (x : GeospatialExtents) :
    (x.restyle p).parts = x.parts.map (·.restyle p) := by
  simp [parts, restyle, Restyled.restyle, Function.comp_def, ← Option.toList_map]

@[simp]
theorem hasFacility_restyle (x : GeospatialExtents) :
    (x.restyle p).hasFacility = x.hasFacility := by
  obtain ⟨_ | i, _, _, _, _⟩ := x
  · rfl
  · exact Option.isSome_map

@[simp]
theorem hasCountry_restyle (x : GeospatialExtents) : (x.restyle p).hasCountry = x.hasCountry := by
  obtain ⟨_ | i, _, _, _, _⟩ := x
  · rfl
  · exact Option.isSome_map

theorem ofElement_alike (h : e.restyle p = e'.restyle p) :
    Alike (restyle p) (ofElement ctx v e) (ofElement ctx v e') := by
  refine (Alike.readOption (Element.ownChild?_congr h _) fun _ _ =>
    GeographicIdentifier.ofElement_alike).bind fun i1 i2 hi => ?_
  refine (Alike.readOption (Element.ownChild?_congr h _) fun _ _ =>
    BoundingBox.ofElement_alike).bind fun b1 b2 hb => ?_
  refine (Alike.readOption (Element.ownChild?_congr h _) fun _ _ =>
    BoundingGeometry.ofElement_alike).bind fun g1 g2 hg => ?_
  refine (Alike.readOption (Element.ownChild?_congr h _) fun _ _ =>
    PostalAddress.ofElement_alike).bind fun a1 a2 ha => ?_
  refine (Alike.readOption (Element.ownChild?_congr h _) fun _ _ =>
    VerticalExtent.ofElement_alike).bind fun x1 x2 hx => ?_
  exact .ok (by simp only [restyle, hi, hb, hg, ha, hx])

end GeospatialExtents

namespace GeospatialCoverage

instance : Restyled GeospatialCoverage where
  restyle p c := { c with toBase := c.toBase.restyle p, extents := c.extents.restyle p }
  lines_restyle p c stem index := by
    simp [Component.lines]
    rfl

theorem beq_restyle (a b : GeospatialCoverage) : (restyle p a == restyle p b) = (a == b) := by
  obtain ⟨b1, x1, p1, o1, s1⟩ := a
  obtain ⟨b2, x2, p2, o2, s2⟩ := b
  change (_ == _ && (_ == _ && _)) = (_ == _ && (_ == _ && _))
  rw [Base.beq_restyle, GeospatialExtents.beq_restyle]

theorem rules_steady : Steady (restyle p) rules := by
  intro c r
  cases hm : c.element.holder? c.version wrapper with
  | none => simp [rules, restyle, hm]
  | some holder => simp [rules, restyle, hm, checkPrecedence, -List.forM_eq_forM]

theorem ofElement_alike (h : e.restyle p = e'.restyle p) :
    Alike (restyle p) (ofElement ctx v e) (ofElement ctx v e') := by
  rw [ofElement, ofElement, Element.own_congr h]
  apply (Alike.within (f := GeospatialExtents.restyle p) ?extents _ _).bind
  case extents =>
    -- both elements have a place for the extents, or neither has
    obtain ⟨hn, hn'⟩ | ⟨c, c', hc, hc', hcc⟩ := Element.holder?_cases h v wrapper
    · rw [hn, hn']
      exact .of_eq rfl
    · rw [hc, hc']
      exact (GeospatialExtents.ofElement_alike hcc).withinHolder _ _ _
  intro x1 x2 hx
  refine ((Alike.of_eq (f := id) rfl).within _ _).bind ?_
  rintro n _ rfl
  refine (SecurityAttributes.ofElement_alike h _ _).bind ?_
  rintro a _ rfl
  refine Alike.checked (k := fun (c : GeospatialCoverage) _ => { c with warnings := c.findings })
    rules_steady (fun _ _ => rfl) ?_ _ _
  change GeospatialCoverage.mk ⟨_, _, _⟩ _ _ _ _ = GeospatialCoverage.mk ⟨_, _, _⟩ _ _ _ _
  simp only [h, hx, id]

end GeospatialCoverage

end DiscoveryMetadata
