import DiscoveryMetadata.Proofs.Equality
import DiscoveryMetadata.Proofs.Rebuilding.Records
/-
  Coverages of space from their own drafts.

  Boxes and ranges of heights are made by reading the element that was put together, and so their
  numbers are written and read once; they are kept where the draft holds faithful numbers only.
  Beside the two facts for each kind, `numbers_toDraft` says that the numbers of a component are
  among those of the draft that it was made of.
-/
namespace DiscoveryMetadata

open Buildable
open Xml (Element)

variable {ctx : Context} {v : Version} {s : SecurityAttributes}

namespace AreaCode

variable {c : AreaCode} {kind : Kind} {qualifier value : String}

theorem make_keeps (h : make kind ctx v qualifier value = .ok c) :
    c.kind = kind ∧ c.qualifier = qualifier ∧ c.value = value := by
  simp only [make, ofElement, bind_ok, check_ok, exists_unit, pure_ok] at h
  obtain ⟨-, rfl⟩ := h
  simp [Element.own, Element.attributeText_put]

theorem commitAs_kind {d : Draft} {o : Option AreaCode} (h : commitAs ctx v d = .ok o) :
    ∀ c ∈ o, c.kind = d.kind :=
  commitAs_all (fun _ hc => (make_keeps hc).1) h

theorem rebuilds (d : Draft) : Rebuilds ctx v toDraft d := by
  obtain ⟨_, kind, qualifier, value⟩ := d
  intro c h
  obtain ⟨he, h⟩ := commitAs_some.1 h
  obtain ⟨rfl, rfl, rfl⟩ := make_keeps h
  exact commitAs_some.2 ⟨he, h⟩

/-- The draft of a code is one for codes of its kind. -/
theorem toDraft_kind {c : AreaCode} {kind : Kind} (h : c.kind = kind) :
    { c.toDraft with kind } = c.toDraft := by
  subst h
  rfl

/-- Where codes of a kind stand, a code is committed again from its own draft. -/
theorem commitAs_toDraft {d e : Draft} {kind : Kind} {o : Option AreaCode}
    (he : isEmpty { e with kind } = true) (h : commitAs ctx v { d with kind } = .ok o) :
    commitAs ctx v { (o.map toDraft).getD e with kind } = .ok o :=
  commitAs_map_getD (g := fun d : Draft => { d with kind }) he (rebuilds _) h
    fun _ hc => toDraft_kind (commitAs_kind h _ hc)

end AreaCode

namespace FacilityIdentifier

variable {c : FacilityIdentifier} {beNumber osuffix : String}

theorem make_keeps (h : make ctx v beNumber osuffix = .ok c) :
    c.beNumber = beNumber ∧ c.osuffix = osuffix := by
  simp only [make, ofElement, bind_ok, check_ok, exists_unit, pure_ok] at h
  obtain ⟨-, rfl⟩ := h
  simp [Element.own, Element.attributeText_put]

theorem rebuilds (d : Draft) : Rebuilds ctx v toDraft d := by
  obtain ⟨_, beNumber, osuffix⟩ := d
  intro c h
  obtain ⟨he, h⟩ := commitAs_some.1 h
  obtain ⟨rfl, rfl⟩ := make_keeps h
  exact commitAs_some.2 ⟨he, h⟩

end FacilityIdentifier

namespace GeographicIdentifier

variable {c : GeographicIdentifier} {names regions : List String}
  {country subDivision : Option AreaCode} {facility : Option FacilityIdentifier}

theorem make_keeps (h : make ctx v names regions country subDivision facility = .ok c) :
    c.names = names ∧ c.regions = regions ∧ c.countryCode = country ∧
      c.subDivisionCode = subDivision ∧ c.facilityIdentifier = facility := by
  simp only [make, checked, bind_ok, check_ok, exists_unit, pure_ok] at h
  obtain ⟨-, rfl⟩ := h
  exact ⟨rfl, rfl, rfl, rfl, rfl⟩

theorem isEmpty_draft (d : Draft) :
    isEmpty d = (allBlank d.names && allBlank d.regions &&
      isEmpty { d.countryCode with kind := .country } &&
      isEmpty { d.subDivisionCode with kind := .subDivision } &&
      isEmpty d.facilityIdentifier) := rfl

theorem rebuilds (d : Draft) : Rebuilds ctx v toDraft d := by
  obtain ⟨_, names, regions, country, subDivision, facility⟩ := d
  intro c h
  obtain ⟨he, h⟩ := commitAs_some.1 h
  obtain ⟨x, hx, h⟩ := bind_ok.1 h
  obtain ⟨y, hy, h⟩ := bind_ok.1 h
  obtain ⟨z, hz, h⟩ := bind_ok.1 h
  obtain ⟨hnames, hregions, rfl, rfl, rfl⟩ := make_keeps h
  have hx' := AreaCode.commitAs_toDraft (e := {}) rfl hx
  have hy' := AreaCode.commitAs_toDraft (e := { kind := .subDivision }) rfl hy
  have hz' := commitAs_getD (e := {}) rfl (FacilityIdentifier.rebuilds _) hz
  refine commitAs_some.2 ⟨?_, bind_ok.2 ⟨_, hx', bind_ok.2 ⟨_, hy', bind_ok.2 ⟨_, hz', ?_⟩⟩⟩⟩
  · simpa only [isEmpty_draft, toDraft, hnames, hregions, allBlank_dropBlank, isEmpty_eq hx,
      isEmpty_eq hy, isEmpty_eq hz, isEmpty_eq hx', isEmpty_eq hy', isEmpty_eq hz'] using he
  · simpa only [toDraft, hnames, hregions, dropBlank_dropBlank] using h

end GeographicIdentifier

namespace PostalAddress

variable {c : PostalAddress} {streets : List String} {city state province postalCode : String}
  {country : Option AreaCode}

theorem make_keeps (h : make ctx v streets city state province postalCode country = .ok c) :
    c.streets = streets ∧ c.city = city ∧ c.state = state ∧ c.province = province ∧
      c.postalCode = postalCode ∧ c.countryCode = country := by
  simp only [make, checked, bind_ok, check_ok, exists_unit, pure_ok] at h
  obtain ⟨-, rfl⟩ := h
  exact ⟨rfl, rfl, rfl, rfl, rfl, rfl⟩

theorem isEmpty_draft (d : Draft) :
    isEmpty d = (allBlank d.streets && allBlank [d.city, d.state, d.province, d.postalCode] &&
      isEmpty { d.countryCode with kind := .country }) := rfl

theorem rebuilds (d : Draft) : Rebuilds ctx v toDraft d := by
  obtain ⟨_, streets, city, state, province, postalCode, country⟩ := d
  intro c h
  obtain ⟨he, h⟩ := commitAs_some.1 h
  obtain ⟨x, hx, h⟩ := bind_ok.1 h
  obtain ⟨hstreets, rfl, rfl, rfl, rfl, rfl⟩ := make_keeps h
  have hx' := AreaCode.commitAs_toDraft (e := {}) rfl hx
  refine commitAs_some.2 ⟨?_, bind_ok.2 ⟨_, hx', ?_⟩⟩
  · simpa only [isEmpty_draft, toDraft, hstreets, allBlank_dropBlank, isEmpty_eq hx,
      isEmpty_eq hx'] using he
  · simpa only [toDraft, hstreets, dropBlank_dropBlank] using h

end PostalAddress

namespace Position

variable {c : Position} {coordinates : List Double} {srs : SrsAttributes}

theorem make_keeps (h : make ctx v coordinates srs = .ok c) :
    c.coordinates = coordinates ∧ c.srs = srs := by
  simp only [make, checked, bind_ok, check_ok, exists_unit, pure_ok] at h
  obtain ⟨e, -, -, rfl⟩ := h
  exact ⟨rfl, rfl⟩

theorem all_isNone_filterMap (os : List (Option Double)) :
    ((os.filterMap id).map some).all Option.isNone = os.all Option.isNone := by
  induction os with
  | nil => rfl
  | cons o r ih =>
    cases o with
    | none => exact ih
    | some x => rfl

theorem rebuilds (d : Draft) : Rebuilds ctx v toDraft d := by
  obtain ⟨_, coordinates, srs⟩ := d
  intro c h
  obtain ⟨he, h⟩ := commitAs_some.1 h
  obtain ⟨hcoordinates, rfl⟩ := make_keeps h
  refine commitAs_some.2 ⟨?_, ?_⟩
  · simpa only [isEmpty, toDraft, hcoordinates, all_isNone_filterMap] using he
  · simpa [build, toDraft, hcoordinates] using h

theorem numbers_toDraft {d : Draft} (h : build ctx v d = .ok c) : c.toDraft.numbers ⊆ d.numbers := by
  obtain ⟨hcoordinates, -⟩ := make_keeps h
  simp [toDraft, Draft.numbers, hcoordinates]

end Position

section Collections

variable {δ α : Type} [Buildable δ α] {f : α → δ} {n : δ → List Double}

theorem append_subset_append {β : Type} {k k' l l' : List β} (hk : k ⊆ k') (hl : l ⊆ l') :
    k ++ l ⊆ k' ++ l' :=
  List.append_subset.2
    ⟨List.subset_append_of_subset_left _ hk, List.subset_append_of_subset_right _ hl⟩

/-- The numbers of the parts of a list are among those of their drafts. -/
theorem numbers_commitAll {ds : List δ} {cs : List α} (h : commitAll ctx v ds = .ok cs)
    (hf : ∀ d ∈ ds, ∀ c, commitAs ctx v d = .ok (some c) → n (f c) ⊆ n d) :
    (cs.map f).flatMap n ⊆ ds.flatMap n := by
  induction ds generalizing cs with
  | nil =>
    rw [commitAll_nil.1 h]
    exact List.Subset.refl _
  | cons d ds ih =>
    obtain ⟨hd, hrest⟩ := List.forall_mem_cons.1 hf
    obtain ⟨o, r, ho, hr, rfl⟩ := commitAll_cons.1 h
    have hr := ih hr hrest
    cases o with
    | none => exact List.subset_append_of_subset_right _ hr
    | some c => exact append_subset_append (hd c ho) hr

/-- The numbers of a part that may be there are among those of its draft. -/
theorem numbers_commitAs {d e : δ} {o : Option α} (h : commitAs ctx v d = .ok o)
    (he : n e = []) (hf : ∀ c, commitAs ctx v d = .ok (some c) → n (f c) ⊆ n d) :
    n ((o.map f).getD e) ⊆ n d := by
  cases o with
  | none =>
    rw [Option.map_none, Option.getD_none, he]
    exact List.nil_subset _
  | some c => exact hf c h

end Collections

namespace Point

variable {c : Point} {position : Position} {srs : SrsAttributes} {id : String}

theorem make_keeps (h : make ctx v position srs id = .ok c) :
    c.id = id ∧ c.srs = srs ∧ c.position = some position := by
  simp only [make, checked, bind_ok, check_ok, exists_unit, pure_ok] at h
  obtain ⟨e, -, -, rfl⟩ := h
  exact ⟨rfl, rfl, rfl⟩

/-- A point is made of a position that was made. -/
theorem build_ok {d : Draft} (h : build ctx v d = .ok c) :
    ∃ p, commitAs ctx v d.position = .ok (some p) ∧ make ctx v p d.srs d.id = .ok c := by
  obtain ⟨o, ho, h⟩ := bind_ok.1 h
  cases o with
  | none => simp at h
  | some p => exact ⟨p, ho, h⟩

theorem isEmpty_draft (d : Draft) :
    isEmpty d = (Text.isBlank d.id && d.srs.isEmpty && isEmpty d.position) := rfl

theorem rebuilds (d : Draft) : Rebuilds ctx v toDraft d := by
  obtain ⟨_, id, srs, position⟩ := d
  intro c h
  obtain ⟨-, h⟩ := commitAs_some.1 h
  obtain ⟨p, hp, h⟩ := build_ok h
  obtain ⟨rfl, rfl, hposition⟩ := make_keeps h
  have hagain := Position.rebuilds _ p hp
  refine commitAs_some.2 ⟨?_, bind_ok.2 ⟨some p, ?_, h⟩⟩
  · simp [isEmpty_draft, toDraft, hposition, isEmpty_eq hagain]
  · simp only [toDraft, hposition]
    exact hagain

theorem numbers_toDraft {d : Draft} (h : build ctx v d = .ok c) : c.toDraft.numbers ⊆ d.numbers := by
  obtain ⟨p, hp, h⟩ := build_ok h
  obtain ⟨-, -, hposition⟩ := make_keeps h
  simp only [toDraft, hposition, Draft.numbers, Option.map_some, Option.getD_some]
  exact Position.numbers_toDraft (commitAs_some.1 hp).2

end Point

namespace Polygon

variable {c : Polygon} {positions : List Position} {srs : SrsAttributes} {id : String}

theorem make_keeps (h : make ctx v positions srs id = .ok c) :
    c.id = id ∧ c.srs = srs ∧ c.positions = positions := by
  simp only [make, checked, bind_ok, check_ok, exists_unit, pure_ok] at h
  obtain ⟨ring, -, exterior, -, e, -, -, rfl⟩ := h
  exact ⟨rfl, rfl, rfl⟩

theorem rebuilds (d : Draft) : Rebuilds ctx v toDraft d := by
  obtain ⟨_, id, srs, positions⟩ := d
  intro c h
  obtain ⟨he, h⟩ := commitAs_some.1 h
  obtain ⟨ps, hps, h⟩ := bind_ok.1 h
  obtain ⟨rfl, rfl, rfl⟩ := make_keeps h
  have hagain := commitAll_toDraft (fun d _ => Position.rebuilds d) hps
  refine commitAs_some.2 ⟨?_, bind_ok.2 ⟨_, hagain, h⟩⟩
  simpa only [isEmpty, toDraft, allEmpty_eq hps, allEmpty_eq hagain] using he

theorem numbers_toDraft {d : Draft} (h : build ctx v d = .ok c) : c.toDraft.numbers ⊆ d.numbers := by
  obtain ⟨ps, hps, h⟩ := bind_ok.1 h
  obtain ⟨-, -, rfl⟩ := make_keeps h
  exact numbers_commitAll hps fun _ _ _ hp => Position.numbers_toDraft (commitAs_some.1 hp).2

end Polygon

namespace BoundingGeometry

variable {c : BoundingGeometry} {polygons : List Polygon} {points : List Point}

theorem make_keeps (h : make ctx v polygons points = .ok c) :
    c.polygons = polygons ∧ c.points = points := by
  simp only [make, checked, bind_ok, check_ok, exists_unit, pure_ok] at h
  obtain ⟨-, rfl⟩ := h
  exact ⟨rfl, rfl⟩

theorem rebuilds (d : Draft) : Rebuilds ctx v toDraft d := by
  obtain ⟨_, polygons, points⟩ := d
  intro c h
  obtain ⟨he, h⟩ := commitAs_some.1 h
  obtain ⟨gs, hgs, h⟩ := bind_ok.1 h
  obtain ⟨ps, hps, h⟩ := bind_ok.1 h
  obtain ⟨rfl, rfl⟩ := make_keeps h
  have hgs' := commitAll_toDraft (fun d _ => Polygon.rebuilds d) hgs
  have hps' := commitAll_toDraft (fun d _ => Point.rebuilds d) hps
  refine commitAs_some.2 ⟨?_, bind_ok.2 ⟨_, hgs', bind_ok.2 ⟨_, hps', h⟩⟩⟩
  simpa only [isEmpty, toDraft, allEmpty_eq hgs, allEmpty_eq hps, allEmpty_eq hgs',
    allEmpty_eq hps'] using he

theorem numbers_toDraft {d : Draft} (h : build ctx v d = .ok c) : c.toDraft.numbers ⊆ d.numbers := by
  obtain ⟨gs, hgs, h⟩ := bind_ok.1 h
  obtain ⟨ps, hps, h⟩ := bind_ok.1 h
  obtain ⟨rfl, rfl⟩ := make_keeps h
  exact append_subset_append
    (numbers_commitAll hgs fun _ _ _ hg => Polygon.numbers_toDraft (commitAs_some.1 hg).2)
    (numbers_commitAll hps fun _ _ _ hp => Point.numbers_toDraft (commitAs_some.1 hp).2)

end BoundingGeometry

namespace Measure

/-- The names of all measures. -/
def names : List String :=
  ["westBL", "eastBL", "southBL", "northBL", "minVerticalExtent", "maxVerticalExtent"]

/-- Measures are told apart by the names that they have in a version. -/
theorem nameIn_inj {l n : String} (hl : l ∈ names) (hn : n ∈ names) :
    nameIn v l = nameIn v n ↔ l = n := by
  have hall : ∀ l ∈ names, ∀ n ∈ names, nameIn v l = nameIn v n ↔ l = n := by cases v <;> decide
  exact hall l hl n hn

theorem find?_numberElements {l n : String} (x : Option Double) :
    (numberElements ctx v l x).find? (fun e => e.name.isNamed v.ddmsUri (nameIn v n)) =
      if nameIn v l = nameIn v n then
        x.map fun x => ctx.textElement v (nameIn v l) x.format
      else none := by
  cases x with
  | none => simp [numberElements]
  | some x => by_cases hn : nameIn v l = nameIn v n <;> simp [numberElements, hn]

/-- A faithful number is read as it was written, and where none was written none is read. -/
theorem numberIn_ok {e : Element} {n : String} {x : Option Double} (hx : ∀ y ∈ x, y.Faithful)
    (h : (e.ownChild? n).map (·.content) = x.map (·.format)) : numberIn e n = .ok x := by
  unfold numberIn
  cases x with
  | none =>
    rw [Option.map_none, Option.map_eq_none_iff] at h
    rw [h]
  | some x =>
    obtain ⟨child, hchild, htext⟩ := Option.map_eq_some_iff.1 h
    have hf := hx x rfl
    simp [hchild, htext, hf.isBlank_format, hf.2]

/-- Numbers that are all faithful are so one by one. -/
theorem forall_faithful {os : List (Option Double)} (h : ∀ x ∈ os.filterMap id, x.Faithful) :
    ∀ o ∈ os, ∀ x ∈ o, x.Faithful :=
  fun o ho x hx => h x (List.mem_filterMap.2 ⟨o, ho, hx⟩)

end Measure

namespace BoundingBox

variable {c : BoundingBox} {d : Draft}

variable (ctx v) in
theorem numberIn_elementOf (hd : ∀ x ∈ d.numbers, x.Faithful) :
    ∀ p ∈ [("westBL", d.west), ("eastBL", d.east), ("southBL", d.south), ("northBL", d.north)],
      Measure.numberIn (elementOf ctx v d.west d.east d.south d.north) (Measure.nameIn v p.1) =
        .ok p.2 := by
  have hx := Measure.forall_faithful hd
  simp only [List.forall_mem_cons, List.not_mem_nil, false_imp_iff, implies_true, and_true] at hx ⊢
  obtain ⟨hwest, heast, hsouth, hnorth⟩ := hx
  refine ⟨Measure.numberIn_ok hwest ?_, Measure.numberIn_ok heast ?_,
    Measure.numberIn_ok hsouth ?_, Measure.numberIn_ok hnorth ?_⟩ <;>
    simp (disch := decide) [elementOf, Element.ownChild?, Element.child?, List.find?_append,
      Measure.find?_numberElements, Measure.nameIn_inj, Function.comp_def]

theorem build_keeps (hd : ∀ x ∈ d.numbers, x.Faithful) (h : build ctx v d = .ok c) :
    c.west = d.west ∧ c.east = d.east ∧ c.south = d.south ∧ c.north = d.north := by
  obtain ⟨hwest, heast, hsouth, hnorth, -⟩ := by
    simpa only [List.forall_mem_cons] using numberIn_elementOf ctx v hd
  simp only [build, ofElement, checked, bind_ok, within_ok, check_ok, exists_unit, pure_ok, hwest,
    heast, hsouth, hnorth] at h
  obtain ⟨w, hw, e, he, s, hs, n, hn, -, rfl⟩ := h
  cases hw
  cases he
  cases hs
  cases hn
  exact ⟨rfl, rfl, rfl, rfl⟩

theorem rebuilds (d : Draft) (hd : ∀ x ∈ d.numbers, x.Faithful) : Rebuilds ctx v toDraft d := by
  intro c h
  obtain ⟨he, h⟩ := commitAs_some.1 h
  obtain ⟨hwest, heast, hsouth, hnorth⟩ := build_keeps hd h
  refine commitAs_some.2 ⟨?_, ?_⟩
  · simpa only [isEmpty, toDraft, hwest, heast, hsouth, hnorth] using he
  · simpa only [build, toDraft, hwest, heast, hsouth, hnorth] using h

theorem numbers_toDraft (hd : ∀ x ∈ d.numbers, x.Faithful) (h : build ctx v d = .ok c) :
    c.toDraft.numbers ⊆ d.numbers := by
  obtain ⟨hwest, heast, hsouth, hnorth⟩ := build_keeps hd h
  simp only [toDraft, Draft.numbers, hwest, heast, hsouth, hnorth, List.Subset.refl]

end BoundingBox

namespace VerticalExtent

variable {c : VerticalExtent} {d : Draft}

variable (ctx v) in
theorem numberIn_elementOf (hd : ∀ x ∈ d.numbers, x.Faithful) :
    ∀ p ∈ [(minimumName, d.minimum), (maximumName, d.maximum)],
      Measure.numberIn (elementOf ctx v d.minimum d.maximum d.unitOfMeasure d.datum)
        (Measure.nameIn v p.1) = .ok p.2 := by
  have hx := Measure.forall_faithful hd
  simp only [List.forall_mem_cons, List.not_mem_nil, false_imp_iff, implies_true, and_true] at hx ⊢
  obtain ⟨hminimum, hmaximum⟩ := hx
  refine ⟨Measure.numberIn_ok hminimum ?_, Measure.numberIn_ok hmaximum ?_⟩ <;>
    simp (disch := decide) [elementOf, Element.ownChild?, Element.child?, List.find?_append,
      Measure.find?_numberElements, Measure.nameIn_inj, minimumName, maximumName,
      Function.comp_def]

theorem build_keeps (hd : ∀ x ∈ d.numbers, x.Faithful) (h : build ctx v d = .ok c) :
    c.minimum = d.minimum ∧ c.maximum = d.maximum ∧ c.unitOfMeasure = d.unitOfMeasure ∧
      c.datum = d.datum := by
  obtain ⟨hminimum, hmaximum, -⟩ := by
    simpa only [List.forall_mem_cons] using numberIn_elementOf ctx v hd
  simp only [build, ofElement, checked, bind_ok, within_ok, check_ok, exists_unit, pure_ok,
    hminimum, hmaximum] at h
  obtain ⟨low, hlow, high, hhigh, -, rfl⟩ := h
  cases hlow
  cases hhigh
  simp [elementOf, Element.own, Element.attributeText_put]

theorem rebuilds (d : Draft) (hd : ∀ x ∈ d.numbers, x.Faithful) : Rebuilds ctx v toDraft d := by
  intro c h
  obtain ⟨he, h⟩ := commitAs_some.1 h
  obtain ⟨hminimum, hmaximum, hunit, hdatum⟩ := build_keeps hd h
  refine commitAs_some.2 ⟨?_, ?_⟩
  · simpa only [isEmpty, toDraft, hminimum, hmaximum, hunit, hdatum] using he
  · simpa only [build, toDraft, hminimum, hmaximum, hunit, hdatum] using h

theorem numbers_toDraft (hd : ∀ x ∈ d.numbers, x.Faithful) (h : build ctx v d = .ok c) :
    c.toDraft.numbers ⊆ d.numbers := by
  obtain ⟨hminimum, hmaximum, -⟩ := build_keeps hd h
  simp only [toDraft, Draft.numbers, hminimum, hmaximum, List.Subset.refl]

end VerticalExtent

namespace GeospatialCoverage

variable {c : GeospatialCoverage} {extents : GeospatialExtents} {precedence : String}
  {order : Option Int}

theorem make_keeps (h : make ctx v extents precedence order s = .ok c) :
    c.extents = extents ∧ c.precedence = precedence ∧ c.order = order ∧ c.security = s := by
  simp only [make, checked, bind_ok, within_ok, check_ok, exists_unit, pure_ok] at h
  obtain ⟨e, -, -, rfl⟩ := h
  exact ⟨rfl, rfl, rfl, rfl⟩

theorem isEmpty_draft (d : Draft) :
    isEmpty d = (isEmpty d.geographicIdentifier && isEmpty d.boundingBox &&
      isEmpty d.boundingGeometry && isEmpty d.postalAddress && isEmpty d.verticalExtent &&
      Text.isBlank d.precedence && d.order.isNone && d.security.isEmpty) := rfl

theorem forall_numbers {d : Draft} {p : Double → Prop} :
    (∀ x ∈ d.numbers, p x) ↔ (∀ x ∈ d.boundingBox.numbers, p x) ∧
      (∀ x ∈ d.boundingGeometry.numbers, p x) ∧ ∀ x ∈ d.verticalExtent.numbers, p x := by
  simp only [Draft.numbers, List.forall_mem_append, and_assoc]

theorem rebuilds (d : Draft) (hd : ∀ x ∈ d.numbers, x.Faithful) : Rebuilds ctx v toDraft d := by
  obtain ⟨hbox, -, hvertical⟩ := forall_numbers.1 hd
  obtain ⟨_, identifier, box, geometry, address, vertical, precedence, order, security⟩ := d
  intro c h
  obtain ⟨he, h⟩ := commitAs_some.1 h
  obtain ⟨i, hi, h⟩ := bind_ok.1 h
  obtain ⟨b, hb, h⟩ := bind_ok.1 h
  obtain ⟨g, hg, h⟩ := bind_ok.1 h
  obtain ⟨a, ha, h⟩ := bind_ok.1 h
  obtain ⟨x, hx, h⟩ := bind_ok.1 h
  obtain ⟨s, hs, h⟩ := bind_ok.1 h
  obtain ⟨hextents, rfl, rfl, rfl⟩ := make_keeps h
  have hi' := commitAs_getD (e := {}) rfl (GeographicIdentifier.rebuilds _) hi
  have hb' := commitAs_getD (e := {}) rfl (BoundingBox.rebuilds _ hbox) hb
  have hg' := commitAs_getD (e := {}) rfl (BoundingGeometry.rebuilds _) hg
  have ha' := commitAs_getD (e := {}) rfl (PostalAddress.rebuilds _) ha
  have hx' := commitAs_getD (e := {}) rfl (VerticalExtent.rebuilds _ hvertical) hx
  refine commitAs_some.2 ⟨?_, ?_⟩
  · simpa only [isEmpty_draft, toDraft, hextents, SecurityAttributes.toDraft_isEmpty hs,
      isEmpty_eq hi, isEmpty_eq hb, isEmpty_eq hg, isEmpty_eq ha, isEmpty_eq hx, isEmpty_eq hi',
      isEmpty_eq hb', isEmpty_eq hg', isEmpty_eq ha', isEmpty_eq hx'] using he
  · unfold toDraft
    rw [hextents]
    exact bind_ok.2 ⟨_, hi', bind_ok.2 ⟨_, hb', bind_ok.2 ⟨_, hg', bind_ok.2 ⟨_, ha',
      bind_ok.2 ⟨_, hx', bind_ok.2 ⟨_, SecurityAttributes.commitAs_toDraft hs, h⟩⟩⟩⟩⟩⟩

theorem numbers_toDraft {d : Draft} (hd : ∀ x ∈ d.numbers, x.Faithful)
    (h : build ctx v d = .ok c) : c.toDraft.numbers ⊆ d.numbers := by
  obtain ⟨hbox, -, hvertical⟩ := forall_numbers.1 hd
  obtain ⟨i, hi, h⟩ := bind_ok.1 h
  obtain ⟨b, hb, h⟩ := bind_ok.1 h
  obtain ⟨g, hg, h⟩ := bind_ok.1 h
  obtain ⟨a, ha, h⟩ := bind_ok.1 h
  obtain ⟨x, hx, h⟩ := bind_ok.1 h
  obtain ⟨s, -, h⟩ := bind_ok.1 h
  obtain ⟨hextents, -, -, -⟩ := make_keeps h
  have hbox := numbers_commitAs (n := BoundingBox.Draft.numbers) (e := {}) hb rfl
    fun _ hc => BoundingBox.numbers_toDraft hbox (commitAs_some.1 hc).2
  have hgeometry := numbers_commitAs (n := BoundingGeometry.Draft.numbers) (e := {}) hg rfl
    fun _ hc => BoundingGeometry.numbers_toDraft (commitAs_some.1 hc).2
  have hvertical := numbers_commitAs (n := VerticalExtent.Draft.numbers) (e := {}) hx rfl
    fun _ hc => VerticalExtent.numbers_toDraft hvertical (commitAs_some.1 hc).2
  unfold toDraft Draft.numbers
  rw [hextents]
  exact append_subset_append (append_subset_append hbox hgeometry) hvertical

end GeospatialCoverage

end DiscoveryMetadata
