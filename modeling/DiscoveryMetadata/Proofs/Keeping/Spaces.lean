import DiscoveryMetadata.Proofs.Keeping.Basic
import DiscoveryMetadata.Proofs.Returning.Spaces
/-
  What coverages of space keep through their drafts.

  Boxes and ranges of heights are made by writing their numbers and reading them again, and what is
  no number equals nothing; so all numbers have to be faithful. Lost are names, regions and streets
  that are blank.
-/
namespace DiscoveryMetadata

open Buildable
open Xml (Element)

variable {ctx : Context} {v : Version} {e : Element}

section Places

namespace AreaCode

theorem renews {kind : Kind} {c : AreaCode} (h : ofElement kind ctx v e = .ok c) :
    Renews ctx v (ctx.ddmsName v kind.name) { c.toDraft with kind } c := by
  simp only [ofElement, bind_ok, check_ok, exists_unit, pure_ok] at h
  obtain ⟨hr, rfl⟩ := h
  simp only [rules, bind_ok, exists_unit, requireDdms_ok] at hr
  obtain ⟨hname, hr⟩ := hr
  refine ⟨_, bind_ok.2 ⟨(), check_ok.2 ?rules, rfl⟩, ?same, rfl, by simp [Component.base]⟩
  case rules =>
    simpa [rules, bind_ok, exists_unit, requireDdms_ok, Element.own, Element.attributeText_put,
      toDraft] using hr
  case same =>
    change (_ == _ && (_ == _ && (_ == _ && _ == _))) = true
    simp [hname, Element.own, Element.attributeText_put, toDraft]

end AreaCode

namespace FacilityIdentifier

theorem renews {c : FacilityIdentifier} (h : ofElement ctx v e = .ok c) :
    Renews ctx v (ctx.ddmsName v "facilityIdentifier") c.toDraft c := by
  simp only [ofElement, bind_ok, check_ok, exists_unit, pure_ok] at h
  obtain ⟨hr, rfl⟩ := h
  simp only [rules, bind_ok, exists_unit, requireDdms_ok] at hr
  obtain ⟨hname, hr⟩ := hr
  refine ⟨_, bind_ok.2 ⟨(), check_ok.2 ?rules, rfl⟩, ?same, rfl, by simp [Component.base]⟩
  case rules =>
    simpa [rules, bind_ok, exists_unit, requireDdms_ok, Element.own, Element.attributeText_put,
      toDraft] using hr
  case same =>
    change (_ == _ && (_ == _ && _ == _)) = true
    simp [hname, Element.own, Element.attributeText_put, toDraft]

end FacilityIdentifier

/-- The code of an area that was read is made again, for the kind that it was read as. -/
theorem AreaCode.readOption_renews {kind : Kind} {o : Option Element} {p : Option AreaCode}
    {d : Draft} (hd : isEmpty d = true) (h : readOption (ofElement kind) ctx v o = .ok p)
    (hk : AllKept toDraft (fun _ => True) p.toList) :
    ∃ p', commitAs ctx v { (p.map (·.toDraft)).getD d with kind } = .ok p' ∧
      Option.Rel (Like v (ctx.ddmsName v kind.name)) p' p := by
  let f : AreaCode → Draft := fun c => { c.toDraft with kind }
  have hempty : isEmpty ({ d with kind } : Draft) = true := hd
  have hrenews : ∀ e ∈ o, ∀ c, ofElement kind ctx v e = .ok c → True →
      Renews ctx v (ctx.ddmsName v kind.name) (f c) c := fun _ _ _ h _ => renews h
  have hkept : AllKept f (fun _ => True) p.toList := fun c hc => ⟨(hk c hc).1, trivial⟩
  obtain ⟨p', hagain, hlike⟩ := DiscoveryMetadata.readOption_renews hempty hrenews h hkept
  refine ⟨p', ?_, hlike⟩
  cases p <;> exact hagain

namespace GeographicIdentifier

/-- An identifier is kept if none of its names and regions is blank and its parts are there as
drafts. -/
def Kept (c : GeographicIdentifier) : Prop :=
  dropBlank c.names = c.names ∧ dropBlank c.regions = c.regions ∧
    AllKept AreaCode.toDraft (fun _ => True) c.countryCode.toList ∧
    AllKept AreaCode.toDraft (fun _ => True) c.subDivisionCode.toList ∧
    AllKept FacilityIdentifier.toDraft (fun _ => True) c.facilityIdentifier.toList

instance (c : GeographicIdentifier) : Decidable c.Kept :=
  inferInstanceAs (Decidable (_ = _ ∧ _ = _ ∧ AllKept _ _ _ ∧ AllKept _ _ _ ∧ AllKept _ _ _))

variable {names regions : List String} {country country' subDivision subDivision' : Option AreaCode}
  {facility facility' : Option FacilityIdentifier} {n m k : Xml.QName}

variable (names regions) in
/-- Whether there is anything besides a facility, and whether there is a facility, does not depend
on more of the parts than that they are there. -/
theorem isNameless_like (b b' : Base) (hc : Option.Rel (Like v n) country' country)
    (hs : Option.Rel (Like v m) subDivision' subDivision)
    (hf : Option.Rel (Like v k) facility' facility) :
    (mk b' names regions country' subDivision' facility').isNameless =
        (mk b names regions country subDivision facility).isNameless ∧
      (mk b' names regions country' subDivision' facility').hasFacility =
        (mk b names regions country subDivision facility).hasFacility := by
  cases hc <;> cases hs <;> cases hf <;> exact ⟨rfl, rfl⟩

theorem make_like {w : List Finding}
    (hc : Option.Rel (Like v (ctx.ddmsName v "countryCode")) country' country)
    (hs : Option.Rel (Like v (ctx.ddmsName v "subDivisionCode")) subDivision' subDivision)
    (hf : Option.Rel (Like v (ctx.ddmsName v "facilityIdentifier")) facility' facility)
    (hr : rules ⟨⟨e, v, []⟩, names, regions, country, subDivision, facility⟩ = .ok ()) :
    ∃ c', make ctx v names regions country' subDivision' facility' = .ok c' ∧
      Like v (ctx.ddmsName v "geographicIdentifier") c'
        ⟨⟨e, v, w⟩, names, regions, country, subDivision, facility⟩ := by
  have hcn : ∀ e ∈ (country'.map (·.element)).toList, e.name = _ := Like.names_option hc
  have hsn : ∀ e ∈ (subDivision'.map (·.element)).toList, e.name = _ := Like.names_option hs
  have hfn : ∀ e ∈ (facility'.map (·.element)).toList, e.name = _ := Like.names_option hf
  simp only [rules, bind_ok, exists_unit, requireDdms_ok] at hr
  obtain ⟨hname, hsome, -, halone, -⟩ := hr
  refine ⟨_, bind_ok.2 ⟨(), check_ok.2 ?rules, rfl⟩, ?same, rfl, by simp [Component.base]⟩
  case rules =>
    have hnameless := fun b => (isNameless_like names regions ⟨e, v, []⟩ b hc hs hf).1
    have hfacility := fun b => (isNameless_like names regions ⟨e, v, []⟩ b hc hs hf).2
    simp only [rules, bind_ok, exists_unit, requireDdms_ok, hnameless, hfacility, forM_ok,
      requireChildren_ok, List.forall_mem_cons, Base.requireSameVersions_ok, parts, codes,
      List.forall_mem_append]
    refine ⟨by simp, hsome, ?_, halone,
      ⟨Like.versions_option hc, Like.versions_option hs⟩, Like.versions_option hf⟩
    simp [Element.ownChildren, Element.childrenNamed, filter_named hcn, filter_named hsn,
      filter_named hfn, filter_named (names_texts ctx v _ _)]
  case same =>
    change (_ == _ && (_ == _ && (_ == _ && (_ == _ && (_ == _ && _ == _))))) = true
    simp [hname, Like.beq_option hc, Like.beq_option hs, Like.beq_option hf]

theorem renews {c : GeographicIdentifier} (h : ofElement ctx v e = .ok c) (hk : c.Kept) :
    Renews ctx v (ctx.ddmsName v "geographicIdentifier") c.toDraft c := by
  simp only [ofElement, checked, bind_ok, within_ok, check_ok, exists_unit, pure_ok] at h
  obtain ⟨country, hc, subDivision, hs, facility, hf, hr, rfl⟩ := h
  obtain ⟨hnames, hregions, hck, hsk, hfk⟩ := hk
  obtain ⟨country', hc', hcl⟩ := AreaCode.readOption_renews (d := {}) rfl hc hck
  obtain ⟨subDivision', hs', hsl⟩ := AreaCode.readOption_renews (d := { kind := .subDivision }) rfl
    hs hsk
  obtain ⟨facility', hf', hfl⟩ := readOption_renews (d := ({} : FacilityIdentifier.Draft)) rfl
    (fun _ _ _ h _ => FacilityIdentifier.renews h) hf hfk
  obtain ⟨c', hmade, hlike⟩ := make_like hcl hsl hfl hr
  refine ⟨c', bind_ok.2 ⟨country', hc', bind_ok.2 ⟨subDivision', hs', bind_ok.2 ⟨facility', hf',
    ?_⟩⟩⟩, hlike⟩
  simpa only [toDraft, hnames, hregions] using hmade

end GeographicIdentifier

namespace PostalAddress

/-- An address is kept if none of its streets is blank and its country is there as a draft. -/
def Kept (c : PostalAddress) : Prop :=
  dropBlank c.streets = c.streets ∧ AllKept AreaCode.toDraft (fun _ => True) c.countryCode.toList

instance (c : PostalAddress) : Decidable c.Kept :=
  inferInstanceAs (Decidable (_ = _ ∧ AllKept _ _ _))

theorem make_like {streets : List String} {city state province postalCode : String}
    {country country' : Option AreaCode} {w : List Finding}
    (hname : e.name.isNamed v.ddmsUri "postalAddress" = true)
    (hone : (state.isEmpty || province.isEmpty) = true) (hstreets : streets.length ≤ 6)
    (hc : Option.Rel (Like v (ctx.ddmsName v "countryCode")) country' country) :
    ∃ c', make ctx v streets city state province postalCode country' = .ok c' ∧
      Like v (ctx.ddmsName v "postalAddress") c'
        ⟨⟨e, v, w⟩, streets, city, state, province, postalCode, country⟩ := by
  have hcn : ∀ e ∈ (country'.map (·.element)).toList, e.name = _ := Like.names_option hc
  refine ⟨_, bind_ok.2 ⟨(), check_ok.2 ?rules, rfl⟩, ?same, rfl, by simp [Component.base]⟩
  case rules =>
    simp only [rules, bind_ok, exists_unit, requireDdms_ok, demand_ok, forM_ok, requireChildren_ok,
      List.forall_mem_cons, Base.requireSameVersions_ok]
    refine ⟨by simp, hone, ?_, ?_, Like.versions_option hc⟩ <;>
      simp [Element.ownChildren, Element.childrenNamed, filter_named hcn,
        filter_named (names_texts ctx v _ _), filter_named (names_textElements ctx v _ _), hstreets]
  case same =>
    change (_ == _ && (_ == _ && (_ == _ && (_ == _ && (_ == _ && (_ == _ && _ == _)))))) = true
    simp [hname, Like.beq_option hc]

theorem renews {c : PostalAddress} (h : ofElement ctx v e = .ok c) (hk : c.Kept) :
    Renews ctx v (ctx.ddmsName v "postalAddress") c.toDraft c := by
  simp only [ofElement, checked, bind_ok, within_ok, check_ok, exists_unit, pure_ok] at h
  obtain ⟨country, hc, hr, rfl⟩ := h
  obtain ⟨hstreets, hck⟩ := hk
  simp only [rules, bind_ok, exists_unit, requireDdms_ok, demand_ok, requireChildren_ok] at hr
  obtain ⟨hname, hone, hcount, -⟩ := hr
  obtain ⟨country', hc', hcl⟩ := AreaCode.readOption_renews (d := {}) rfl hc hck
  have hlength : (e.childTexts e.uri "street").length ≤ 6 := by
    rw [Bool.and_eq_true, decide_eq_true_eq, decide_eq_true_eq] at hcount
    simpa [Element.childTexts, Element.ownChildren] using hcount.2
  obtain ⟨c', hmade, hlike⟩ := make_like hname hone hlength hcl
  refine ⟨c', bind_ok.2 ⟨country', hc', ?_⟩, hlike⟩
  simpa only [toDraft, hstreets] using hmade

end PostalAddress

end Places

section Shapes

theorem requireIn_gml {l : String} {x : Unit} :
    requireIn e v .gml l = .ok x ↔ e.name.isNamed v.gmlUri l = true :=
  requireIn_ok rfl

@[simp]
theorem Context.sameExpanded_gmlName (l : String) (q : Xml.QName) :
    (ctx.gmlName v l).sameExpanded q = q.isNamed v.gmlUri l :=
  Xml.QName.sameExpanded_prefixed ..

namespace Position

/-- A position is kept if all its coordinates are numbers. -/
def Kept (c : Position) : Prop := ∀ x ∈ c.coordinates, x.isNaN = false

instance (c : Position) : Decidable c.Kept := inferInstanceAs (Decidable (∀ x ∈ _, _))

/-- Positions with the same coordinates in the same system. -/
def Same (p' p : Position) : Prop := p'.coordinates = p.coordinates ∧ p'.srs = p.srs

theorem make_eq (xs : List Double) (a : SrsAttributes) : make ctx v xs a =
    checked ⟨⟨a.addTo (({ name := ctx.gmlName v "pos" } : Element).withText (listText xs)), v, []⟩,
      xs, a⟩ := rfl

theorem renews {c : Position} (h : ofElement ctx v e = .ok c) (hk : c.Kept) :
    Renews ctx v (ctx.gmlName v "pos") c.toDraft c := by
  simp only [ofElement, checked, bind_ok, within_ok, check_ok, exists_unit, pure_ok] at h
  obtain ⟨xs, -, a, -, hr, rfl⟩ := h
  simp only [rules, bind_ok, exists_unit, requireIn_gml] at hr
  obtain ⟨hname, hr⟩ := hr
  have hxs : (xs.map some).filterMap id = xs := by simp
  simp only [Renews, build, toDraft, hxs, make_eq]
  refine ⟨_, bind_ok.2 ⟨(), check_ok.2 ?rules, rfl⟩, ?same, rfl, by simp [Component.base]⟩
  case rules =>
    simp only [rules, bind_ok, exists_unit, requireIn_gml]
    exact ⟨by simp, hr⟩
  case same =>
    have hc : (xs == xs) = true := list_beq_self fun x hx => Double.beq_self (hk x hx)
    change (_ == _ && (_ == _ && _ == _)) = true
    simp [hname, hc]

/-- A position that is made of the draft of another is the same. -/
theorem build_same {p p' : Position} (h : build ctx v p.toDraft = .ok p') : p'.Same p := by
  obtain ⟨hcoordinates, hsrs⟩ := make_keeps h
  exact ⟨by simpa [toDraft] using hcoordinates, hsrs⟩

/-- Positions that are made of the drafts of others are the same, one by one. -/
theorem forall₂_same {ps ps' : List Position} (hk : AllKept toDraft Kept ps)
    (h : commitAll ctx v (ps.map toDraft) = .ok ps') : List.Forall₂ Same ps' ps := by
  induction ps generalizing ps' with
  | nil =>
    obtain rfl := commitAll_nil.1 h
    exact .nil
  | cons p r ih =>
    obtain ⟨⟨he, -⟩, hkr⟩ := List.forall_mem_cons.1 hk
    obtain ⟨o, r', ho, hr', rfl⟩ := commitAll_cons.1 h
    cases o with
    | none => simp [commitAs_none.1 ho] at he
    | some p' => exact .cons (build_same (commitAs_some.1 ho).2) (ih hkr hr')

end Position

namespace Shape

variable {localName id : String} {a : SrsAttributes}

/-- The element of a shape can always be made. -/
theorem element_total (ctx : Context) (v : Version) (localName id : String) (a : SrsAttributes) :
    ∃ e, element ctx v localName id a = .ok e := by
  simp only [element, Context.elementIn_gml, Context.putIn, Context.nameIn_gml, bind_ok,
    Except.ok.injEq, exists_eq_left']
  split <;> exact ⟨_, rfl⟩

/-- What shapes share in their rules asks no more of the element than its name. -/
theorem rules_ok {b : Base} {x : Unit} : rules b localName id a = .ok x ↔
    b.element.name.isNamed b.version.gmlUri localName = true ∧
      requireValue "srsName" a.name = .ok () ∧ requireValue "id" id = .ok () ∧
      Text.checkNCName id = .ok () := by
  simp only [rules, bind_ok, exists_unit, requireIn_gml]

theorem checkSystem_same {p p' : Position} {sentence : String} (h : p'.Same p) :
    checkSystem a p' sentence = checkSystem a p sentence := by
  rw [checkSystem, h.2, checkSystem]

end Shape

namespace Point

/-- A point is kept if its position is. -/
def Kept (c : Point) : Prop := AllKept Position.toDraft Position.Kept c.position.toList

instance (c : Point) : Decidable c.Kept := inferInstanceAs (Decidable (AllKept _ _ _))

theorem make_like {p p' : Position} {a : SrsAttributes} {id : String} {w : List Finding}
    (hlike : Like v (ctx.gmlName v "pos") p' p) (hsame : p'.Same p)
    (hr : rules ⟨⟨e, v, []⟩, id, a, some p⟩ = .ok ()) :
    ∃ c', make ctx v p' a id = .ok c' ∧
      Like v (ctx.gmlName v Shape.point) c' ⟨⟨e, v, w⟩, id, a, some p⟩ := by
  simp only [rules, bind_ok, exists_unit, Shape.rules_ok] at hr
  obtain ⟨⟨hname, hrest⟩, -, hsystem⟩ := hr
  obtain ⟨e', he'⟩ := Shape.element_total ctx v Shape.point id a
  have hname' := Shape.name_element he'
  refine ⟨_, bind_ok.2 ⟨e', he', bind_ok.2 ⟨(), check_ok.2 ?rules, rfl⟩⟩, ?same, rfl, hname'⟩
  case rules =>
    simp only [rules, bind_ok, exists_unit, Shape.rules_ok, Base.requireSameVersion_ok,
      Shape.checkSystem_same hsame]
    exact ⟨⟨by simp [hname'], hrest⟩, hlike.version, hsystem⟩
  case same =>
    have hp : (some p' == some p) = true := hlike.same
    change (_ == _ && (_ == _ && (_ == _ && _ == _))) = true
    simp [hname', hname, hp]

theorem renews {c : Point} (h : ofElement ctx v e = .ok c) (hk : c.Kept) :
    Renews ctx v (ctx.gmlName v Shape.point) c.toDraft c := by
  simp only [ofElement, checked, bind_ok, within_ok, check_ok, exists_unit, pure_ok] at h
  obtain ⟨o, ho, a, -, hr, rfl⟩ := h
  obtain ⟨o', hagain, hlikes⟩ := readOption_renews (d := ({} : Position.Draft)) rfl
    (fun _ _ _ h hk => Position.renews h hk) ho hk
  cases hlikes with
  | none => simp [rules] at hr
  | some hlike =>
    obtain ⟨c', hmade, hc⟩ := make_like hlike (Position.build_same (commitAs_some.1 hagain).2) hr
    exact ⟨c', bind_ok.2 ⟨_, hagain, hmade⟩, hc⟩

end Point

namespace Polygon

/-- A polygon is kept if its positions are. -/
def Kept (c : Polygon) : Prop := AllKept Position.toDraft Position.Kept c.positions

instance (c : Polygon) : Decidable c.Kept := inferInstanceAs (Decidable (AllKept _ _ _))

variable {ps ps' : List Position}

theorem samePlace_same {o o' r r' : Option Position} (ho : Option.Rel Position.Same o' o)
    (hr : Option.Rel Position.Same r' r) : samePlace o' r' = samePlace o r := by
  cases ho with
  | none => rfl
  | some ho =>
    cases hr with
    | none => rfl
    | some hr => simp only [samePlace, ho.1, ho.2, hr.1, hr.2]

/-- What the rules say of the positions, wherever the ring is. -/
theorem rules_ok {b : Base} {a : SrsAttributes} {id : String} {x : Unit} :
    rules ⟨b, id, a, ps⟩ = .ok x ↔ Shape.rules b Shape.polygon id a = .ok () ∧
      (∃ exterior, exterior? b.element = some exterior ∧
        (ring? b.element exterior).isSome = true) ∧
      (∀ p ∈ ps, p.version = b.version ∧ Shape.checkSystem a p
        "The srsName of each position must match the srsName of the Polygon." = .ok ()) ∧
      4 ≤ ps.length ∧ samePlace ps.head? ps.getLast? = true := by
  simp only [rules, bind_ok, exists_unit]
  cases exterior? b.element with
  | none => simp
  | some exterior =>
    simp only [bind_ok, exists_unit, demand_ok, forM_ok, checkPosition, Base.requireSameVersion_ok,
      decide_eq_true_eq, Option.some.injEq, exists_eq_left']

theorem make_like {a : SrsAttributes} {id : String} {w : List Finding}
    (hlike : List.Forall₂ (Like v (ctx.gmlName v "pos")) ps' ps)
    (hsame : List.Forall₂ Position.Same ps' ps)
    (hr : rules ⟨⟨e, v, []⟩, id, a, ps⟩ = .ok ()) :
    ∃ c', make ctx v ps' a id = .ok c' ∧
      Like v (ctx.gmlName v Shape.polygon) c' ⟨⟨e, v, w⟩, id, a, ps⟩ := by
  obtain ⟨hshape, -, hpositions, hlength, hplace⟩ := rules_ok.1 hr
  obtain ⟨hname, hrest⟩ := Shape.rules_ok.1 hshape
  obtain ⟨e', he'⟩ := Shape.element_total ctx v Shape.polygon id a
  have hname' := Shape.name_element he'
  obtain ⟨hfirst, hsecond⟩ := rings_made he' (ps'.map (·.element))
  have hmake : make ctx v ps' a id = checked
      ⟨⟨e'.add [exteriorElement ctx v (ps'.map (·.element))], v, []⟩, id, a, ps'⟩ := by
    simp only [make, Context.elementIn_gml, he']
    rfl
  rw [hmake]
  refine ⟨_, bind_ok.2 ⟨(), check_ok.2 (rules_ok.2 ⟨?shape, ⟨_, hfirst, ?ring⟩, ?positions, ?length,
    ?place⟩), rfl⟩, ?same, rfl, hname'⟩
  case shape => exact Shape.rules_ok.2 ⟨by simp [hname'], hrest⟩
  case ring => rw [hsecond, Option.isSome_some]
  case positions =>
    have hversions : ∀ p ∈ ps', p.version = v :=
      forall_mem_of_forall₂ (fun _ _ h _ => h.version) hlike hpositions
    have hsystems : ∀ p ∈ ps', Shape.checkSystem a p _ = .ok () := forall_mem_of_forall₂
      (fun _ _ h hp => (Shape.checkSystem_same h).trans hp.2) hsame hpositions
    exact fun p hp => ⟨hversions p hp, hsystems p hp⟩
  case length => rwa [hlike.length_eq]
  case place =>
    rw [samePlace_same (head?_of_forall₂ hsame) (getLast?_of_forall₂ hsame)]
    exact hplace
  case same =>
    have hp : (ps' == ps) = true := Like.beq_list hlike
    change (_ == _ && (_ == _ && (_ == _ && _ == _))) = true
    simp [hname', hname, hp]

theorem renews {c : Polygon} (h : ofElement ctx v e = .ok c) (hk : c.Kept) :
    Renews ctx v (ctx.gmlName v Shape.polygon) c.toDraft c := by
  simp only [ofElement, checked, bind_ok, within_ok, check_ok, exists_unit, pure_ok] at h
  obtain ⟨ps, hps, a, -, hr, rfl⟩ := h
  obtain ⟨es, hes⟩ : ∃ es, readAll Position.ofElement ctx v es = .ok ps := by
    unfold readPositions at hps
    split at hps
    · exact ⟨[], hps⟩
    · split at hps
      · exact ⟨[], hps⟩
      · exact ⟨_, within_ok.1 (within_ok.1 hps)⟩
  obtain ⟨ps', hagain, hlike⟩ := readAll_renews (fun _ _ _ h hk => Position.renews h hk) hes hk
  obtain ⟨c', hmade, hc⟩ := make_like hlike (Position.forall₂_same hk hagain) hr
  exact ⟨c', bind_ok.2 ⟨_, hagain, hmade⟩, hc⟩

end Polygon

namespace BoundingGeometry

/-- A geometry is kept if its shapes are. -/
def Kept (c : BoundingGeometry) : Prop :=
  AllKept Polygon.toDraft Polygon.Kept c.polygons ∧ AllKept Point.toDraft Point.Kept c.points

instance (c : BoundingGeometry) : Decidable c.Kept :=
  inferInstanceAs (Decidable (AllKept _ _ _ ∧ AllKept _ _ _))

theorem renews {c : BoundingGeometry} (h : ofElement ctx v e = .ok c) (hk : c.Kept) :
    Renews ctx v (ctx.ddmsName v "boundingGeometry") c.toDraft c := by
  simp only [ofElement, checked, bind_ok, within_ok, check_ok, exists_unit, pure_ok] at h
  obtain ⟨gs, hgs, ps, hps, hr, rfl⟩ := h
  obtain ⟨hgk, hpk⟩ := hk
  obtain ⟨gs', hgs', hgl⟩ := readAll_renews (fun _ _ _ h hk => Polygon.renews h hk) hgs hgk
  obtain ⟨ps', hps', hpl⟩ := readAll_renews (fun _ _ _ h hk => Point.renews h hk) hps hpk
  simp only [rules, bind_ok, exists_unit, requireDdms_ok, forbid_ok] at hr
  obtain ⟨hname, hsome, -⟩ := hr
  refine ⟨_, bind_ok.2 ⟨gs', hgs', bind_ok.2 ⟨ps', hps', bind_ok.2 ⟨(), check_ok.2 ?rules, rfl⟩⟩⟩,
    ?same, rfl, by simp [Component.base]⟩
  case rules =>
    simp only [rules, bind_ok, exists_unit, requireDdms_ok, forbid_ok, Base.requireSameVersions_ok,
      parts, List.forall_mem_append]
    refine ⟨by simp, ?_, Like.versions hgl, Like.versions hpl⟩
    rw [← hsome]
    cases hgl <;> cases hpl <;> rfl
  case same =>
    change (_ == _ && (_ == _ && _ == _)) = true
    simp [hname, Like.beq_list hgl, Like.beq_list hpl]

end BoundingGeometry

end Shapes

section Measures

/-- Numbers of which none is missing a value are equal to themselves. -/
theorem Measure.beq_self {x : Option Double} (h : ∀ y ∈ x, y.Faithful) : (x == x) = true :=
  option_beq_self fun y hy => Double.beq_self (h y hy).1

namespace BoundingBox

/-- A box is kept if its bounds are faithful numbers. -/
def Kept (c : BoundingBox) : Prop := ∀ x ∈ c.toDraft.numbers, x.Faithful

instance (c : BoundingBox) : Decidable c.Kept := inferInstanceAs (Decidable (∀ x ∈ _, _))

theorem renews {c : BoundingBox} (h : ofElement ctx v e = .ok c) (hk : c.Kept) :
    Renews ctx v (ctx.ddmsName v "boundingBox") c.toDraft c := by
  have hread := numberIn_elementOf ctx v hk
  have hfaithful := Measure.forall_faithful hk
  simp only [ofElement, checked, bind_ok, within_ok, check_ok, exists_unit, pure_ok] at h
  obtain ⟨west, -, east, -, south, -, north, -, hr, rfl⟩ := h
  simp only [toDraft, List.forall_mem_cons] at hread hfaithful
  obtain ⟨hwest, heast, hsouth, hnorth, -⟩ := hread
  obtain ⟨hw, he, hs, hn, -⟩ := hfaithful
  simp only [rules, bind_ok, exists_unit, requireDdms_ok] at hr
  obtain ⟨hname, hr⟩ := hr
  refine ⟨_, bind_ok.2 ⟨west, within_ok.2 hwest, bind_ok.2 ⟨east, within_ok.2 heast,
    bind_ok.2 ⟨south, within_ok.2 hsouth, bind_ok.2 ⟨north, within_ok.2 hnorth,
      bind_ok.2 ⟨(), check_ok.2 ?rules, rfl⟩⟩⟩⟩⟩, ?same, rfl, by simp [Component.base, elementOf]⟩
  case rules =>
    simp only [rules, bind_ok, exists_unit, requireDdms_ok]
    exact ⟨by simp [elementOf], hr⟩
  case same =>
    change (_ == _ && (_ == _ && (_ == _ && (_ == _ && _ == _)))) = true
    simp [elementOf, hname, Measure.beq_self hw, Measure.beq_self he, Measure.beq_self hs,
      Measure.beq_self hn]

end BoundingBox

namespace VerticalExtent

/-- A range of heights is kept if its ends are faithful numbers. -/
def Kept (c : VerticalExtent) : Prop := ∀ x ∈ c.toDraft.numbers, x.Faithful

instance (c : VerticalExtent) : Decidable c.Kept := inferInstanceAs (Decidable (∀ x ∈ _, _))

theorem name_elementOf (low high : Option Double) (unit datum : String) :
    (elementOf ctx v low high unit datum).name = ctx.ddmsName v "verticalExtent" := by
  simp [elementOf]

/-- The ends of a range that was made have no attributes of their own. -/
theorem checkInherited_elementOf {low high : Option Double} {unit datum : String}
    {c : VerticalExtent} :
    ∀ l ∈ [minimumName, maximumName], ∀ x ∈ ((elementOf ctx v low high unit datum).ownChild?
      (Measure.nameIn v l)).toList, c.checkInherited x = .ok () := by
  have hfree : ∀ x ∈ (elementOf ctx v low high unit datum).children, x.attributes = [] := by
    simp only [elementOf, Element.children_add, Element.children_put,
      Context.children_ddmsElement, List.nil_append, List.forall_mem_append,
      Measure.numberElements, Option.mem_toList, Option.map_eq_some_iff]
    constructor <;> rintro x ⟨y, -, rfl⟩ <;> exact ctx.attributes_textElement v _ _
  intro l _ x hx
  have hx := hfree x (List.mem_of_find?_eq_some (Option.mem_toList.1 hx))
  simp [checkInherited, Element.own, Element.attributeText, Element.attribute?, hx]

theorem renews {c : VerticalExtent} (h : ofElement ctx v e = .ok c) (hk : c.Kept) :
    Renews ctx v (ctx.ddmsName v "verticalExtent") c.toDraft c := by
  have hread := numberIn_elementOf ctx v hk
  have hfaithful := Measure.forall_faithful hk
  simp only [ofElement, checked, bind_ok, within_ok, check_ok, exists_unit, pure_ok] at h
  obtain ⟨low, -, high, -, hr, rfl⟩ := h
  simp only [toDraft, List.forall_mem_cons] at hread hfaithful
  obtain ⟨hlow, hhigh, -⟩ := hread
  obtain ⟨hl, hh, -⟩ := hfaithful
  simp only [rules, bind_ok, exists_unit, requireDdms_ok, forM_ok] at hr
  obtain ⟨hname, minimum, hminimum, maximum, hmaximum, hunit, hdatum, hunits, hdatums, -, hless⟩ :=
    hr
  obtain ⟨hu, hd⟩ : (elementOf ctx v low high (e.own "unitOfMeasure") (e.own "datum")).own
      "unitOfMeasure" = e.own "unitOfMeasure" ∧
      (elementOf ctx v low high (e.own "unitOfMeasure") (e.own "datum")).own "datum" =
        e.own "datum" := by
    simp [elementOf, Element.own, Element.attributeText_put]
  refine ⟨_, bind_ok.2 ⟨low, within_ok.2 hlow, bind_ok.2 ⟨high, within_ok.2 hhigh,
    bind_ok.2 ⟨(), check_ok.2 ?rules, rfl⟩⟩⟩, ?same, rfl, name_elementOf ..⟩
  case rules =>
    simp only [rules, bind_ok, exists_unit, requireDdms_ok, forM_ok, toDraft, hu, hd]
    exact ⟨by simp [name_elementOf], minimum, hminimum, maximum, hmaximum, hunit, hdatum, hunits,
      hdatums, checkInherited_elementOf, hless⟩
  case same =>
    change (_ == _ && (_ == _ && (_ == _ && (_ == _ && _ == _)))) = true
    simp [hname, toDraft, name_elementOf, hu, hd, Measure.beq_self hl, Measure.beq_self hh]

end VerticalExtent

end Measures

section Coverages

theorem Option.length_toList_rel {α β : Type} {R : α → α → Prop} {o' o : Option α} {f : α → β}
    (h : Option.Rel R o' o) : (o'.map f).toList.length = (o.map f).toList.length := by
  cases h <;> rfl

theorem Option.isSome_of_beq {α : Type} [BEq α] {o' o : Option α} (h : (o' == o) = true) :
    o'.isSome = o.isSome := by
  cases o' <;> cases o <;> simp_all

/-- Each part is like its counterpart and named for its place. -/
structure GeospatialExtents.LikeParts (ctx : Context) (v : Version)
    (x' x : GeospatialExtents) : Prop where
  geographicIdentifier : Option.Rel (Like v (ctx.ddmsName v "geographicIdentifier"))
    x'.geographicIdentifier x.geographicIdentifier
  boundingBox : Option.Rel (Like v (ctx.ddmsName v "boundingBox")) x'.boundingBox x.boundingBox
  boundingGeometry : Option.Rel (Like v (ctx.ddmsName v "boundingGeometry"))
    x'.boundingGeometry x.boundingGeometry
  postalAddress : Option.Rel (Like v (ctx.ddmsName v "postalAddress"))
    x'.postalAddress x.postalAddress
  verticalExtent : Option.Rel (Like v (ctx.ddmsName v "verticalExtent"))
    x'.verticalExtent x.verticalExtent

namespace GeospatialExtents.LikeParts

variable {x x' : GeospatialExtents}

theorem same (h : LikeParts ctx v x' x) : (x' == x) = true := by
  change (_ == _ && (_ == _ && (_ == _ && (_ == _ && _ == _)))) = true
  simp [Like.beq_option h.geographicIdentifier, Like.beq_option h.boundingBox,
    Like.beq_option h.boundingGeometry, Like.beq_option h.postalAddress,
    Like.beq_option h.verticalExtent]

theorem versions (h : LikeParts ctx v x' x) : ∀ b ∈ x'.parts, b.version = v := by
  simp only [parts, List.forall_mem_append]
  exact ⟨⟨⟨⟨Like.versions_option h.geographicIdentifier, Like.versions_option h.boundingBox⟩,
    Like.versions_option h.boundingGeometry⟩, Like.versions_option h.postalAddress⟩,
    Like.versions_option h.verticalExtent⟩

theorem named (h : LikeParts ctx v x' x) : x'.Named ctx v where
  geographicIdentifier := Like.names_option h.geographicIdentifier
  boundingBox := Like.names_option h.boundingBox
  boundingGeometry := Like.names_option h.boundingGeometry
  postalAddress := Like.names_option h.postalAddress
  verticalExtent := Like.names_option h.verticalExtent

theorem length_parts (h : LikeParts ctx v x' x) : x'.parts.length = x.parts.length := by
  simp only [parts, List.length_append, Option.length_toList_rel h.geographicIdentifier,
    Option.length_toList_rel h.boundingBox, Option.length_toList_rel h.boundingGeometry,
    Option.length_toList_rel h.postalAddress, Option.length_toList_rel h.verticalExtent]

/-- Whether the space is described by a facility, or by a country, does not change. -/
theorem described (h : LikeParts ctx v x' x) :
    x'.hasFacility = x.hasFacility ∧ x'.hasCountry = x.hasCountry := by
  obtain ⟨i, b, g, a, y⟩ := x
  obtain ⟨i', b', g', a', y'⟩ := x'
  cases h.geographicIdentifier with
  | none => exact ⟨rfl, rfl⟩
  | some hi =>
    have hparts := hi.same
    change (_ == _ && (_ == _ && (_ == _ && (_ == _ && (_ == _ && _ == _))))) = true at hparts
    simp only [Bool.and_eq_true] at hparts
    exact ⟨Option.isSome_of_beq hparts.2.2.2.2.2, Option.isSome_of_beq hparts.2.2.2.1⟩

end GeospatialExtents.LikeParts

variable {x x' : GeospatialExtents}

theorem GeospatialExtents.LikeParts.checkPrecedence (h : x'.LikeParts ctx v x) :
    GeospatialCoverage.checkPrecedence x' = GeospatialCoverage.checkPrecedence x := by
  funext precedence
  rw [GeospatialCoverage.checkPrecedence, GeospatialCoverage.checkPrecedence, h.described.2]

namespace GeospatialCoverage

/-- A coverage is kept with its markings if each way to describe the space is. -/
def Kept (c : GeospatialCoverage) : Prop :=
  c.security.Filled ∧
    AllKept GeographicIdentifier.toDraft GeographicIdentifier.Kept
      c.extents.geographicIdentifier.toList ∧
    AllKept BoundingBox.toDraft BoundingBox.Kept c.extents.boundingBox.toList ∧
    AllKept BoundingGeometry.toDraft BoundingGeometry.Kept c.extents.boundingGeometry.toList ∧
    AllKept PostalAddress.toDraft PostalAddress.Kept c.extents.postalAddress.toList ∧
    AllKept VerticalExtent.toDraft VerticalExtent.Kept c.extents.verticalExtent.toList

instance (c : GeospatialCoverage) : Decidable c.Kept :=
  inferInstanceAs (Decidable (SecurityAttributes.Filled _ ∧ AllKept _ _ _ ∧ AllKept _ _ _ ∧
    AllKept _ _ _ ∧ AllKept _ _ _ ∧ AllKept _ _ _))

/-- The rules on the element apart from those on the parts. -/
theorem rules_ok {c : GeospatialCoverage} {u : Unit} : rules c = .ok u ↔
    c.element.name.isNamed c.version.ddmsUri "geospatialCoverage" = true ∧
      (∃ holder, c.element.holder? c.version wrapper = some holder ∧
        ∀ l ∈ GeospatialExtents.names, requireChildren holder l 0 1 = .ok ()) ∧
      c.extents.parts.isEmpty = false ∧
      (!c.extents.hasFacility || decide (c.extents.parts.length ≤ 1)) = true ∧
      (∀ b ∈ c.extents.parts, b.version = c.version) ∧
      (c.precedence.isEmpty || c.version.atLeast .v4_0_1) = true ∧
      (c.order.isNone || c.version.atLeast .v4_0_1) = true ∧
      requireSecuritySince c.version .v3_0 c.security = .ok () ∧
      ifPresent c.precedence (checkPrecedence c.extents) = .ok () := by
  simp only [rules, bind_ok, exists_unit, requireDdms_ok]
  cases c.element.holder? c.version wrapper with
  | none => simp
  | some holder =>
    simp only [bind_ok, exists_unit, withinHolder_ok, forM_ok, forbid_ok, demand_ok,
      Base.requireSameVersions_ok, Option.some.injEq, exists_eq_left']

/-- Extents like those of a coverage make a coverage like it. -/
theorem make_like {precedence : String} {order : Option Int} {s : SecurityAttributes}
    {w : List Finding} (hx : x'.LikeParts ctx v x)
    (hput : ∀ e, s.addTo ctx v e = .ok (SecurityAttributes.mark ctx v s.values e))
    (hr : rules ⟨⟨e, v, []⟩, x, precedence, order, s⟩ = .ok ()) :
    ∃ c', make ctx v x' precedence order s = .ok c' ∧
      Like v (ctx.ddmsName v "geospatialCoverage") c' ⟨⟨e, v, w⟩, x, precedence, order, s⟩ := by
  obtain ⟨hname, -, hsome, halone, -, hprecedence, horder, hsince, hknown⟩ := rules_ok.1 hr
  refine ⟨_, bind_ok.2 ⟨_, within_ok.2 (hput _), bind_ok.2 ⟨(), check_ok.2 ?rules, rfl⟩⟩, ?same, rfl,
    by simp [Component.base]⟩
  case rules =>
    refine rules_ok.2 ⟨by simp, ?_, ?_, ?_, hx.versions, hprecedence, horder, hsince, ?_⟩
    · generalize hmade : ctx.addWrapped v wrapper _ (ctx.ddmsElement v "geospatialCoverage") = made
      obtain ⟨holder, hholder, hchildren, huri⟩ := holder?_addWrapped
        (e := SecurityAttributes.mark ctx v s.values
          ((made.put (ctx.ddmsName v "precedence") precedence).put (ctx.ddmsName v "order")
            (orderText order)))
        (by rw [SecurityAttributes.children_mark, Element.children_put, Element.children_put,
          ← hmade, children_addWrapped]) (by simp [← hmade])
      refine ⟨holder, hholder, ?_⟩
      simp [requireChildren_ok, GeospatialExtents.names, hx.named.ownChildren _ hchildren huri]
    · have hsome : x.parts.isEmpty = false := hsome
      rw [← Bool.not_eq_true, List.isEmpty_iff_length_eq_zero] at hsome ⊢
      rwa [hx.length_parts]
    · rwa [hx.length_parts, hx.described.1]
    · rwa [hx.checkPrecedence]
  case same =>
    change (_ == _ && (_ == _ && (_ == _ && (_ == _ && _ == _)))) = true
    simp [hname, hx.same]

/-- What was read of the space is made again, part by part. -/
theorem commitExtents {x : GeospatialExtents} {holder : Element}
    (hx : GeospatialExtents.ofElement ctx v holder = .ok x)
    (hi : AllKept GeographicIdentifier.toDraft GeographicIdentifier.Kept
      x.geographicIdentifier.toList)
    (hb : AllKept BoundingBox.toDraft BoundingBox.Kept x.boundingBox.toList)
    (hg : AllKept BoundingGeometry.toDraft BoundingGeometry.Kept x.boundingGeometry.toList)
    (ha : AllKept PostalAddress.toDraft PostalAddress.Kept x.postalAddress.toList)
    (hy : AllKept VerticalExtent.toDraft VerticalExtent.Kept x.verticalExtent.toList) :
    ∃ x' : GeospatialExtents, x'.LikeParts ctx v x ∧
      commitAs ctx v ((x.geographicIdentifier.map (·.toDraft)).getD {}) =
        .ok x'.geographicIdentifier ∧
      commitAs ctx v ((x.boundingBox.map (·.toDraft)).getD {}) = .ok x'.boundingBox ∧
      commitAs ctx v ((x.boundingGeometry.map (·.toDraft)).getD {}) = .ok x'.boundingGeometry ∧
      commitAs ctx v ((x.postalAddress.map (·.toDraft)).getD {}) = .ok x'.postalAddress ∧
      commitAs ctx v ((x.verticalExtent.map (·.toDraft)).getD {}) = .ok x'.verticalExtent := by
  simp only [GeospatialExtents.ofElement, bind_ok, pure_ok] at hx
  obtain ⟨i, hir, b, hbr, g, hgr, a, har, y, hyr, rfl⟩ := hx
  obtain ⟨i', hi', hil⟩ := readOption_renews (d := ({} : GeographicIdentifier.Draft)) rfl
    (fun _ _ _ h hk => GeographicIdentifier.renews h hk) hir hi
  obtain ⟨b', hb', hbl⟩ := readOption_renews (d := ({} : BoundingBox.Draft)) rfl
    (fun _ _ _ h hk => BoundingBox.renews h hk) hbr hb
  obtain ⟨g', hg', hgl⟩ := readOption_renews (d := ({} : BoundingGeometry.Draft)) rfl
    (fun _ _ _ h hk => BoundingGeometry.renews h hk) hgr hg
  obtain ⟨a', ha', hal⟩ := readOption_renews (d := ({} : PostalAddress.Draft)) rfl
    (fun _ _ _ h hk => PostalAddress.renews h hk) har ha
  obtain ⟨y', hy', hyl⟩ := readOption_renews (d := ({} : VerticalExtent.Draft)) rfl
    (fun _ _ _ h hk => VerticalExtent.renews h hk) hyr hy
  exact ⟨⟨i', b', g', a', y'⟩, ⟨hil, hbl, hgl, hal, hyl⟩, hi', hb', hg', ha', hy'⟩

theorem renews {c : GeospatialCoverage} (h : ofElement ctx v e = .ok c) (hk : c.Kept) :
    Renews ctx v (ctx.ddmsName v "geospatialCoverage") c.toDraft c := by
  simp only [ofElement, checked, bind_ok, within_ok, check_ok, exists_unit, pure_ok] at h
  obtain ⟨x, hx, order, -, s, hs, hr, rfl⟩ := h
  obtain ⟨hfilled, hi, hb, hg, ha, hy⟩ := hk
  obtain ⟨hput, hs⟩ := SecurityAttributes.commitAs_read hs hfilled
  obtain ⟨holder, hx⟩ : ∃ holder, GeospatialExtents.ofElement ctx v holder = .ok x := by
    split at hx
    · exact ⟨_, withinHolder_ok.1 hx⟩
    case _ hnone =>
      obtain ⟨-, ⟨holder, hholder, -⟩, -⟩ := rules_ok.1 hr
      cases hnone.symm.trans hholder
  obtain ⟨x', hlike, hi', hb', hg', ha', hy'⟩ := commitExtents hx hi hb hg ha hy
  obtain ⟨c', hmade, hc⟩ := make_like hlike hput hr
  exact ⟨c', bind_ok.2 ⟨_, hi', bind_ok.2 ⟨_, hb', bind_ok.2 ⟨_, hg', bind_ok.2 ⟨_, ha',
    bind_ok.2 ⟨_, hy', bind_ok.2 ⟨s, hs, hmade⟩⟩⟩⟩⟩⟩, hc⟩

end GeospatialCoverage

end Coverages

end DiscoveryMetadata
