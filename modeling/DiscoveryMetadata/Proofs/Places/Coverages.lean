import DiscoveryMetadata.Coverage.Geospatial
import DiscoveryMetadata.Coverage.Temporal
import DiscoveryMetadata.Coverage.Virtual
import DiscoveryMetadata.Proofs.Places.Records
/-
  Where a fault lies in what a resource covers: subjects, times, spaces and addresses.

  Before version 4.0.1 the content of most coverages stands in a wrapper without a component of its
  own. The wrapper shows in the place of a fault all the same, and so do the two rings between a
  polygon and its positions.
-/
namespace DiscoveryMetadata

open Xml (Element)
open Fault (Unplaced Placed Beneath)

variable {ctx : Context} {v : Version}

section Subjects

@[simp]
theorem orderOf_fails (text : String) : Fails Unplaced (orderOf text) := by
  unfold orderOf
  split_ifs
  · exact .ok
  · split <;> simp

namespace Keyword

theorem rules_fails (c : Keyword) : Fails Unplaced c.rules := by
  simp [rules]

theorem places (hctx : ctx.Standard) : Places ofElement ctx := fun _ e he =>
  .bind (.own he (SecurityAttributes.ofElement_fails hctx e)) fun _ _ =>
    .bind (.check he (rules_fails _)) fun _ _ => .pure

end Keyword

namespace Category

theorem rules_fails (c : Category) : Fails Unplaced c.rules := by
  simp [rules]

theorem places (hctx : ctx.Standard) : Places ofElement ctx := fun _ e he =>
  .bind (.own he (SecurityAttributes.ofElement_fails hctx e)) fun _ _ =>
    .bind (.check he (rules_fails _)) fun _ _ => .pure

end Category

namespace ProductionMetric

theorem rules_fails (c : ProductionMetric) : Fails Unplaced c.rules := by
  simp [rules]

theorem places (hctx : ctx.Standard) : Places ofElement ctx := fun _ e he =>
  .bind (.own he (SecurityAttributes.ofElement_fails hctx e)) fun _ _ =>
    .bind (.check he (rules_fails _)) fun _ _ => .pure

end ProductionMetric

namespace NonStateActor

theorem rules_fails (c : NonStateActor) : Fails Unplaced c.rules := by
  simp [rules]

theorem places (hctx : ctx.Standard) : Places ofElement ctx := fun _ e he =>
  .bind (.own he (orderOf_fails _)) fun _ _ =>
    .bind (.own he (SecurityAttributes.ofElement_fails hctx e)) fun _ _ =>
      .bind (.check he (rules_fails _)) fun _ _ => .pure

end NonStateActor

namespace SubjectCoverage

theorem rules_fails (c : SubjectCoverage) : Fails Unplaced c.rules := by
  simp [rules]

/-- A subject coverage is not called like the wrapper of its content. -/
theorem places (hctx : ctx.Standard) {e : Element} (he : e.writtenName ≠ "")
    (hw : e.localName ≠ wrapper) : Fails (Placed e) (ofElement ctx v e) := by
  -- whatever kind of part is read from the holder of the content
  have hparts {α : Type} {f : Context → Version → Element → Outcome α} (hf : Places f ctx)
      {name : String} (hn : name ≠ "") : Fails (Placed e) (within e.writtenName
        (withinHolder ((e.holder? v wrapper).getD e) wrapper
          (readAll f ctx v (((e.holder? v wrapper).getD e).ownChildren name)))) :=
    .within he (.withinHolder (holds_getD hw) (by decide) (hf.readAll hn _))
  exact .bind (hparts (Keyword.places hctx) (by decide)) fun _ _ =>
    .bind (hparts (Category.places hctx) (by decide)) fun _ _ =>
      .bind (hparts (ProductionMetric.places hctx) (by decide)) fun _ _ =>
        .bind (hparts (NonStateActor.places hctx) (by decide)) fun _ _ =>
          .bind (.own he (SecurityAttributes.ofElement_fails hctx e)) fun _ _ =>
            .bind (.check he (rules_fails _)) fun _ _ => .pure

end SubjectCoverage

namespace VirtualCoverage

theorem rules_fails (c : VirtualCoverage) : Fails Unplaced c.rules := by
  have hprotocol : Fails Unplaced (ifPresent c.address fun _ => requireValue "protocol" c.protocol) :=
    .ifPresent (requireValue_fails _ _)
  simp [rules, hprotocol]

theorem places (hctx : ctx.Standard) : Places ofElement ctx := fun _ e he =>
  .bind (.own he (SecurityAttributes.ofElement_fails hctx e)) fun _ _ =>
    .bind (.check he (rules_fails _)) fun _ _ => .pure

end VirtualCoverage

end Subjects

namespace TemporalCoverage

theorem checkFit_fails (b : Base) (bound : TimeBound) : Fails Unplaced (checkFit b bound) := by
  cases bound <;> simp [checkFit, checkBound]

theorem contentRules_fails (c : TemporalCoverage) (holder : Element) :
    Fails Unplaced (c.contentRules holder) := by
  have hfit (bounds : List TimeBound) : Fails Unplaced (forM bounds (checkFit c.toBase)) :=
    .forM fun _ _ => checkFit_fails _ _
  unfold contentRules
  split_ifs <;> simp [hfit]

/-- The rules about the content speak of the wrapper, if there is one. -/
theorem rules_fails (c : TemporalCoverage) (hw : c.element.localName ≠ wrapper) :
    Fails (Beneath c.element) c.rules := by
  unfold rules
  refine .bind (requireDdms_fails _).beneath fun _ _ => ?_
  split
  · exact .beneath (by simp)
  case h_2 holder hh =>
    exact .bind (.withinHolder (holds_of_holder? hw hh) (by decide)
      (contentRules_fails c holder).beneath) fun _ _ => .beneath (requireSecuritySince_fails _ _)

theorem readBound_fails (holder : Element) {exact approximate : String} (hn : approximate ≠ "") :
    Fails (Beneath holder) (readBound ctx v holder exact approximate) := by
  unfold readBound
  split
  · exact .ok
  · exact .bind (ApproximableDate.places.readOption hn _) fun _ _ => .pure

theorem readBoundIn_fails {e : Element} (hw : e.localName ≠ wrapper) {exact approximate : String}
    (hn : approximate ≠ "") :
    Fails (Beneath e) (readBoundIn ctx v (e.holder? v wrapper) exact approximate) := by
  unfold readBoundIn
  split
  case h_1 holder hh =>
    exact .withinHolder (holds_of_holder? hw hh) (by decide) (readBound_fails holder hn)
  · exact .ok

/-- A temporal coverage is not called like the wrapper of its content. -/
theorem places (hctx : ctx.Standard) {e : Element} (he : e.writtenName ≠ "")
    (hw : e.localName ≠ wrapper) : Fails (Placed e) (ofElement ctx v e) :=
  .bind (.within he (readBoundIn_fails hw (by decide))) fun _ _ =>
    .bind (.within he (readBoundIn_fails hw (by decide))) fun _ _ =>
      .bind (.own he (SecurityAttributes.ofElement_fails hctx e)) fun _ _ =>
        .bind (.checkBeneath he (rules_fails _ hw)) fun _ _ => .pure

end TemporalCoverage

section Spaces

namespace AreaCode

theorem rules_fails (c : AreaCode) : Fails Unplaced c.rules := by
  simp [rules]

theorem places (kind : Kind) : Places (ofElement kind) ctx := fun _ _ he =>
  .bind (.check he (rules_fails _)) fun _ _ => .pure

end AreaCode

namespace FacilityIdentifier

theorem rules_fails (c : FacilityIdentifier) : Fails Unplaced c.rules := by
  simp [rules]

theorem places : Places ofElement ctx := fun _ _ he =>
  .bind (.check he (rules_fails _)) fun _ _ => .pure

end FacilityIdentifier

namespace GeographicIdentifier

theorem rules_fails (c : GeographicIdentifier) : Fails Unplaced c.rules := by
  simp [rules, nothingThere]

theorem places : Places ofElement ctx := fun _ e he =>
  .bind (.within he ((AreaCode.places _).readOption (by decide) e.uri)) fun _ _ =>
    .bind (.within he ((AreaCode.places _).readOption (by decide) e.uri)) fun _ _ =>
      .bind (.within he (FacilityIdentifier.places.readOption (by decide) e.uri)) fun _ _ =>
        .bind (.check he (rules_fails _)) fun _ _ => .pure

end GeographicIdentifier

@[simp]
theorem requireLatitude_fails (x : Double) : Fails Unplaced (requireLatitude x) := by
  simp [requireLatitude]

@[simp]
theorem requireLongitude_fails (x : Double) : Fails Unplaced (requireLongitude x) := by
  simp [requireLongitude]

/-- All versions draw on the schema of shapes. -/
theorem requireGml_fails (e : Element) (localName : String) :
    Fails Unplaced (requireIn e v .gml localName) :=
  requireIn_fails rfl _

namespace Position

theorem rules_fails (c : Position) : Fails Unplaced c.rules := by
  unfold rules
  refine .bind (requireGml_fails _ _) fun _ _ => ?_
  split <;> simp

theorem coordinateOf_fails (text : String) : Fails Unplaced (coordinateOf text) := by
  unfold coordinateOf
  split <;> simp

theorem places : Places ofElement ctx := fun _ e he =>
  .bind (.own he (.mapM fun _ _ => coordinateOf_fails _)) fun _ _ =>
    .bind (.own he (SrsAttributes.ofElement_fails e)) fun _ _ =>
      .bind (.check he (rules_fails _)) fun _ _ => .pure

end Position

@[simp]
theorem Shape.rules_fails (b : Base) (localName id : String) (srs : SrsAttributes) :
    Fails Unplaced (Shape.rules b localName id srs) := by
  simp [Shape.rules, requireGml_fails]

@[simp]
theorem Shape.checkSystem_fails (srs : SrsAttributes) (position : Position) (sentence : String) :
    Fails Unplaced (Shape.checkSystem srs position sentence) := by
  simp [Shape.checkSystem]

namespace Point

theorem rules_fails (c : Point) : Fails Unplaced c.rules := by
  unfold rules
  refine .bind (Shape.rules_fails _ _ _ _) fun _ _ => ?_
  split <;> simp [missingPosition]

theorem places : Places ofElement ctx := fun _ e he =>
  .bind (.within he (Position.places.readOption (by decide) e.uri)) fun _ _ =>
    .bind (.own he (SrsAttributes.ofElement_fails e)) fun _ _ =>
      .bind (.check he (rules_fails _)) fun _ _ => .pure

end Point

namespace Polygon

theorem checkPosition_fails (c : Polygon) (position : Position) :
    Fails Unplaced (c.checkPosition position) := by
  simp [checkPosition]

theorem rules_fails (c : Polygon) : Fails Unplaced c.rules := by
  have hpositions : Fails Unplaced (forM c.positions c.checkPosition) :=
    .forM fun _ _ => checkPosition_fails _ _
  unfold rules
  refine .bind (Shape.rules_fails _ _ _ _) fun _ _ => ?_
  cases exterior? c.element <;> simp [hpositions]

/-- Both rings show on the way from a position to its polygon. -/
theorem readPositions_fails (e : Element) : Fails (Beneath e) (readPositions ctx v e) := by
  unfold readPositions
  split
  · exact .ok
  case h_2 exterior hexterior =>
    split
    · exact .ok
    case h_2 ring hring =>
      have hin : exterior ∈ e.children := List.mem_of_find?_eq_some hexterior
      have hname := List.find?_some hexterior
      have hin' : ring ∈ exterior.children := List.mem_of_find?_eq_some hring
      have hname' := List.find?_some hring
      have hplaced : Fails (Placed ring) (within ring.writtenName
          (readAll Position.ofElement ctx v (ring.childrenNamed e.uri "pos"))) :=
        .within (writtenName_ne (by decide) (localName_eq hname'))
          (Position.places.readAll (by decide) e.uri)
      exact (Fails.within (writtenName_ne (by decide) (localName_eq hname))
        (hplaced.inChild hin')).inChild hin

theorem places : Places ofElement ctx := fun _ e he =>
  .bind (.within he (readPositions_fails e)) fun _ _ =>
    .bind (.own he (SrsAttributes.ofElement_fails e)) fun _ _ =>
      .bind (.check he (rules_fails _)) fun _ _ => .pure

end Polygon

namespace BoundingGeometry

theorem rules_fails (c : BoundingGeometry) : Fails Unplaced c.rules := by
  simp [rules]

theorem places : Places ofElement ctx := fun _ _ he =>
  .bind (.within he (Polygon.places.readAll (by decide) _)) fun _ _ =>
    .bind (.within he (Point.places.readAll (by decide) _)) fun _ _ =>
      .bind (.check he (rules_fails _)) fun _ _ => .pure

end BoundingGeometry

@[simp]
theorem Measure.numberIn_fails (e : Element) (localName : String) :
    Fails Unplaced (Measure.numberIn e localName) := by
  unfold Measure.numberIn
  split
  · exact .ok
  · split_ifs
    · exact .ok
    · split <;> simp

@[simp]
theorem Measure.require_fails (name : String) (x : Option Double) :
    Fails Unplaced (Measure.require name x) := by
  cases x <;> simp [Measure.require]

namespace BoundingBox

theorem rules_fails (c : BoundingBox) : Fails Unplaced c.rules := by
  simp [rules]

theorem places : Places ofElement ctx := fun _ e he =>
  have hread (name : String) : Fails (Placed e) (within e.writtenName (Measure.numberIn e name)) :=
    .own he (Measure.numberIn_fails e name)
  .bind (hread _) fun _ _ => .bind (hread _) fun _ _ => .bind (hread _) fun _ _ =>
    .bind (hread _) fun _ _ => .bind (.check he (rules_fails _)) fun _ _ => .pure

end BoundingBox

namespace VerticalExtent

theorem checkInherited_fails (c : VerticalExtent) (extent : Element) :
    Fails Unplaced (c.checkInherited extent) :=
  .forM fun _ _ => by simp

theorem rules_fails (c : VerticalExtent) : Fails Unplaced c.rules := by
  have hinherited : Fails Unplaced ([minimumName, maximumName].forM fun name =>
      ((c.element.ownChild? (Measure.nameIn c.version name)).toList).forM c.checkInherited) :=
    .forM fun _ _ => .forM fun _ _ => checkInherited_fails _ _
  unfold rules
  simp only [Fails.bind_iff, hinherited]
  simp

theorem places : Places ofElement ctx := fun _ e he =>
  .bind (.own he (Measure.numberIn_fails e _)) fun _ _ =>
    .bind (.own he (Measure.numberIn_fails e _)) fun _ _ =>
      .bind (.check he (rules_fails _)) fun _ _ => .pure

end VerticalExtent

namespace PostalAddress

theorem rules_fails (c : PostalAddress) : Fails Unplaced c.rules := by
  simp [rules]

theorem places : Places ofElement ctx := fun _ e he =>
  .bind (.within he ((AreaCode.places _).readOption (by decide) e.uri)) fun _ _ =>
    .bind (.check he (rules_fails _)) fun _ _ => .pure

end PostalAddress

theorem GeospatialExtents.ofElement_fails (e : Element) :
    Fails (Beneath e) (GeospatialExtents.ofElement ctx v e) :=
  .bind (GeographicIdentifier.places.readOption (by decide) _) fun _ _ =>
    .bind (BoundingBox.places.readOption (by decide) _) fun _ _ =>
      .bind (BoundingGeometry.places.readOption (by decide) _) fun _ _ =>
        .bind (PostalAddress.places.readOption (by decide) _) fun _ _ =>
          .bind (VerticalExtent.places.readOption (by decide) _) fun _ _ => .pure

namespace GeospatialCoverage

/-- The rules about the content speak of the wrapper, if there is one. -/
theorem rules_fails (c : GeospatialCoverage) (hw : c.element.localName ≠ wrapper) :
    Fails (Beneath c.element) c.rules := by
  have hprecedence : Fails Unplaced (ifPresent c.precedence (checkPrecedence c.extents)) :=
    .ifPresent (by simp [checkPrecedence])
  have hnames (holder : Element) : Fails Unplaced
      (GeospatialExtents.names.forM fun name => requireChildren holder name 0 1) :=
    .forM fun _ _ => requireChildren_fails _ _ _
  have hafter : Fails (Beneath c.element) (do
      let parts := c.extents.parts
      forbid parts.isEmpty nothingThere
      demand (!c.extents.hasFacility || parts.length ≤ 1) facilityNotAlone
      c.requireSameVersions parts
      demand (c.precedence.isEmpty || c.version.atLeast .v4_0_1)
        (.tooEarly "ddms:precedence attribute" "4.0.1")
      demand (c.order.isNone || c.version.atLeast .v4_0_1)
        (.tooEarly "ddms:order attribute" "4.0.1")
      requireSecuritySince c.version .v3_0 c.security
      ifPresent c.precedence (checkPrecedence c.extents)) :=
    .beneath (by simp [hprecedence, nothingThere, facilityNotAlone])
  unfold rules
  refine .bind (requireDdms_fails _).beneath fun _ _ => ?_
  split
  · exact .bind (.beneath (by simp)) fun _ _ => hafter
  case h_2 holder hh =>
    exact .bind (.withinHolder (holds_of_holder? hw hh) (by decide) (hnames holder).beneath)
      fun _ _ => hafter

/-- A geospatial coverage is not called like the wrapper of its content. -/
theorem places (hctx : ctx.Standard) {e : Element} (he : e.writtenName ≠ "")
    (hw : e.localName ≠ wrapper) : Fails (Placed e) (ofElement ctx v e) := by
  refine .bind (.within he ?_) fun _ _ => .bind (.own he (orderOf_fails _)) fun _ _ =>
    .bind (.own he (SecurityAttributes.ofElement_fails hctx e)) fun _ _ =>
      .bind (.checkBeneath he (rules_fails _ hw)) fun _ _ => .pure
  split
  case h_1 holder hh =>
    exact .withinHolder (holds_of_holder? hw hh) (by decide) (GeospatialExtents.ofElement_fails _)
  · exact .ok

end GeospatialCoverage

end Spaces

end DiscoveryMetadata
