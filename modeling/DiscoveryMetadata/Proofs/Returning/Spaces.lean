import DiscoveryMetadata.Coverage.Geospatial
import DiscoveryMetadata.Proofs.Attributes.Groups
import DiscoveryMetadata.Proofs.Rebuilding.Spaces
import DiscoveryMetadata.Proofs.Returning.Subjects
import DiscoveryMetadata.Proofs.Text.Numeral
/-
  Coverages of space are read again from the elements that they are made into.

  Coordinates, bounds and heights are written as texts, and those of faithful numbers read back to
  them. `Draft.systems` are the reference systems of a draft; each has to be sound.
-/
namespace DiscoveryMetadata

open Buildable
open Xml (Element IsName QName Tidy)
open Xml.Element (Regular)

variable {ctx : Context} {v : Version} {s : SecurityAttributes} {sd : SecurityAttributes.Draft}

section Places

variable {fit : String → Prop}

namespace AreaCode

theorem build_returns {d : Draft} {c : AreaCode} (h : build ctx v d = .ok c) :
    Returns fit (ofElement d.kind) ctx v (ctx.ddmsName v d.kind.name) c := by
  have hname : ∀ k : Kind, IsName k.name := by intro k; cases k <;> decide
  exact .of_made h (fun _ => rfl) h (by simp [Component.base])
    (((Regular.ddmsElement (hname _)).putDdms (by decide)).putDdms (by decide))

theorem commitAs_returns {kind : Kind} {d : Draft} {o : Option AreaCode}
    (h : commitAs ctx v { d with kind } = .ok o) :
    ∀ c ∈ o, Returns fit (ofElement kind) ctx v (ctx.ddmsName v kind.name) c := by
  rintro c rfl
  have hreturns : Returns fit (ofElement ({ d with kind } : Draft).kind) ctx v
      (ctx.ddmsName v ({ d with kind } : Draft).kind.name) c := build_returns (commitAs_some.1 h).2
  exact hreturns

end AreaCode

namespace FacilityIdentifier

theorem build_returns {d : Draft} {c : FacilityIdentifier} (h : build ctx v d = .ok c) :
    Returns fit ofElement ctx v (ctx.ddmsName v "facilityIdentifier") c :=
  .of_made h (fun _ => rfl) h (by simp [Component.base])
    (((Regular.ddmsElement (by decide)).putDdms (by decide)).putDdms (by decide))

end FacilityIdentifier

namespace GeographicIdentifier

variable {c : GeographicIdentifier} {names regions : List String}
  {country subDivision : Option AreaCode} {facility : Option FacilityIdentifier}

theorem make_returns (hnames : ∀ t ∈ names, fit t) (hregions : ∀ t ∈ regions, fit t)
    (hc : ∀ a ∈ country,
      Returns fit (AreaCode.ofElement .country) ctx v (ctx.ddmsName v "countryCode") a)
    (hs : ∀ a ∈ subDivision,
      Returns fit (AreaCode.ofElement .subDivision) ctx v (ctx.ddmsName v "subDivisionCode") a)
    (hf : ∀ f ∈ facility,
      Returns fit FacilityIdentifier.ofElement ctx v (ctx.ddmsName v "facilityIdentifier") f)
    (h : make ctx v names regions country subDivision facility = .ok c) :
    Returns fit ofElement ctx v (ctx.ddmsName v "geographicIdentifier") c := by
  obtain ⟨e, he⟩ : ∃ e, e = (ctx.ddmsElement v "geographicIdentifier").add
      (names.map (ctx.textElement v "name") ++ regions.map (ctx.textElement v "region") ++
        (country.map (·.element)).toList ++ (subDivision.map (·.element)).toList ++
        (facility.map (·.element)).toList) := ⟨_, rfl⟩
  have hmade : checked ⟨⟨e, v, []⟩, names, regions, country, subDivision, facility⟩ = .ok c := he ▸ h
  have hfind : ∀ l, e.ownChildren l =
      (if "name" = l then names.map (ctx.textElement v "name") else []) ++
        (if "region" = l then regions.map (ctx.textElement v "region") else []) ++
        (if "countryCode" = l then (country.map (·.element)).toList else []) ++
        (if "subDivisionCode" = l then (subDivision.map (·.element)).toList else []) ++
        (if "facilityIdentifier" = l then (facility.map (·.element)).toList else []) := by
    intro l
    have hcn : ∀ e ∈ (country.map (·.element)).toList, e.name = _ := names_returns_option hc
    have hsn : ∀ e ∈ (subDivision.map (·.element)).toList, e.name = _ := names_returns_option hs
    have hfn : ∀ e ∈ (facility.map (·.element)).toList, e.name = _ := names_returns_option hf
    simp [he, Element.ownChildren, Element.childrenNamed, filter_named hcn, filter_named hsn,
      filter_named hfn, filter_named (names_texts ctx v "name" names),
      filter_named (names_texts ctx v "region" regions)]
  refine .of_made (e := e) hmade (fun _ => rfl) ?_ (by simp [he]) ?_
  · have htexts : ∀ l, e.childTexts e.uri l = (e.ownChildren l).map (·.content) := fun _ => rfl
    simp only [ofElement, bind_ok, within_ok, htexts, Element.ownChild?_eq, hfind]
    refine ⟨country, ?_, subDivision, ?_, facility, ?_, ?_⟩
    · simpa [Component.base] using readOption_returns hc
    · simpa [Component.base] using readOption_returns hs
    · simpa [Component.base] using readOption_returns hf
    · simpa [Function.comp_def] using hmade
  · rw [he]
    refine (Regular.ddmsElement (by decide)).add ?_
    simp only [List.forall_mem_append]
    exact ⟨⟨⟨⟨Regular.texts (by decide) hnames, Regular.texts (by decide) hregions⟩,
      regular_returns_option hc⟩, regular_returns_option hs⟩, regular_returns_option hf⟩

/-- The texts of elements. -/
def Draft.texts (d : Draft) : List String := d.names ++ d.regions

theorem build_returns {d : Draft} (ht : ∀ t ∈ d.texts, fit t) (h : build ctx v d = .ok c) :
    Returns fit ofElement ctx v (ctx.ddmsName v "geographicIdentifier") c := by
  simp only [Draft.texts, List.forall_mem_append] at ht
  obtain ⟨country, hc, h⟩ := bind_ok.1 h
  obtain ⟨subDivision, hs, h⟩ := bind_ok.1 h
  obtain ⟨facility, hf, h⟩ := bind_ok.1 h
  exact make_returns (fit_dropBlank ht.1) (fit_dropBlank ht.2)
    (AreaCode.commitAs_returns hc) (AreaCode.commitAs_returns hs)
    (commitAs_all (fun _ => FacilityIdentifier.build_returns) hf) h

end GeographicIdentifier

namespace PostalAddress

variable {c : PostalAddress} {streets : List String} {city state province postalCode : String}
  {country : Option AreaCode}

theorem make_returns (hstreets : ∀ t ∈ streets, fit t)
    (hplaces : ∀ t ∈ [city, state, province, postalCode], fit t)
    (hc : ∀ a ∈ country,
      Returns fit (AreaCode.ofElement .country) ctx v (ctx.ddmsName v "countryCode") a)
    (h : make ctx v streets city state province postalCode country = .ok c) :
    Returns fit ofElement ctx v (ctx.ddmsName v "postalAddress") c := by
  obtain ⟨e, he⟩ : ∃ e, e = (ctx.ddmsElement v "postalAddress").add
      (streets.map (ctx.textElement v "street") ++ ctx.textElements v "city" city ++
        ctx.textElements v "state" state ++ ctx.textElements v "province" province ++
        ctx.textElements v "postalCode" postalCode ++ (country.map (·.element)).toList) := ⟨_, rfl⟩
  have hmade : checked ⟨⟨e, v, []⟩, streets, city, state, province, postalCode, country⟩ = .ok c :=
    he ▸ h
  have hfind : ∀ l, e.ownChildren l =
      (if "street" = l then streets.map (ctx.textElement v "street") else []) ++
        (if "city" = l then ctx.textElements v "city" city else []) ++
        (if "state" = l then ctx.textElements v "state" state else []) ++
        (if "province" = l then ctx.textElements v "province" province else []) ++
        (if "postalCode" = l then ctx.textElements v "postalCode" postalCode else []) ++
        (if "countryCode" = l then (country.map (·.element)).toList else []) := by
    intro l
    have hcn : ∀ e ∈ (country.map (·.element)).toList, e.name = _ := names_returns_option hc
    simp [he, Element.ownChildren, Element.childrenNamed, filter_named hcn,
      filter_named (names_texts ctx v "street" streets), filter_named (names_textElements ctx v _ _)]
  have htext : ∀ l, e.ownText l = ((e.ownChildren l).head?.map Element.content).getD "" := by
    intro l
    rw [← Element.ownChild?_eq]
    rfl
  refine .of_made (e := e) hmade (fun _ => rfl) ?_ (by simp [he]) ?_
  · have htexts : ∀ l, e.childTexts e.uri l = (e.ownChildren l).map (·.content) := fun _ => rfl
    simp only [ofElement, bind_ok, within_ok, htexts, htext, Element.ownChild?_eq, hfind]
    refine ⟨country, ?_, ?_⟩
    · simpa [Component.base] using readOption_returns hc
    · simpa [Function.comp_def, content_textElements] using hmade
  · simp only [List.forall_mem_cons] at hplaces
    obtain ⟨hcity, hstate, hprovince, hcode, -⟩ := hplaces
    rw [he]
    refine (Regular.ddmsElement (by decide)).add ?_
    simp only [List.forall_mem_append]
    exact ⟨⟨⟨⟨⟨Regular.texts (by decide) hstreets, Regular.textElements (by decide) hcity⟩,
      Regular.textElements (by decide) hstate⟩, Regular.textElements (by decide) hprovince⟩,
      Regular.textElements (by decide) hcode⟩, regular_returns_option hc⟩

/-- The texts of elements. -/
def Draft.texts (d : Draft) : List String :=
  d.streets ++ [d.city, d.state, d.province, d.postalCode]

theorem build_returns {d : Draft} (ht : ∀ t ∈ d.texts, fit t) (h : build ctx v d = .ok c) :
    Returns fit ofElement ctx v (ctx.ddmsName v "postalAddress") c := by
  obtain ⟨hstreets, hplaces⟩ := List.forall_mem_append.1 ht
  obtain ⟨country, hc, h⟩ := bind_ok.1 h
  exact make_returns (fit_dropBlank hstreets) hplaces (AreaCode.commitAs_returns hc) h

end PostalAddress

end Places

section Shapes

namespace Context

/-- A name of the elements of GML. -/
def gmlName (ctx : Context) (v : Version) (l : String) : QName :=
  .prefixed ctx.prefixes.gml v.gmlUri l

variable {l n : String}

theorem nameIn_gml : ctx.nameIn v .gml l = .ok (ctx.gmlName v l) := rfl

theorem elementIn_gml : ctx.elementIn v .gml l = .ok { name := ctx.gmlName v l } := rfl

@[simp]
theorem isNamed_gmlName : (ctx.gmlName v l).isNamed v.gmlUri n = (l == n) := by
  simp [gmlName, QName.isNamed]

theorem listed_gmlName (hl : IsName l) : (ctx.gmlName v l).Listed (ctx.bindings v) :=
  .intro (by simp [bindings]) hl

end Context

/-- A system adds names of no namespace. -/
theorem SrsAttributes.regular_addTo {fit : String → Prop} {a : SrsAttributes} {e : Element}
    (h : e.Regular fit (ctx.bindings v)) : (a.addTo e).Regular fit (ctx.bindings v) := by
  have hnames : ∀ p ∈ a.pairs, IsName p.1 := by
    simp only [SrsAttributes.pairs, List.forall_mem_cons]
    exact ⟨by decide, by decide, by decide, by decide, by simp⟩
  rw [addTo_eq]
  exact h.putAll fun p hp => .bare (hnames p hp)

namespace Position

variable {c : Position} {coordinates : List Double} {srs : SrsAttributes}

/-- The coordinates are found again in their text. -/
theorem coordinates_listText (h : ∀ x ∈ coordinates, x.Faithful) :
    (Text.words (listText coordinates)).mapM coordinateOf = .ok coordinates := by
  rw [listText, Text.words_unwords (List.forall_mem_map.2 fun x hx => (h x hx).isWord_format)]
  refine mapM_ok.2 ?_
  induction coordinates with
  | nil => exact .nil
  | cons x r ih =>
    obtain ⟨hx, hr⟩ := List.forall_mem_cons.1 h
    have hread : coordinateOf x.format = .ok x := by simp only [coordinateOf, hx.2]
    exact .cons hread (ih hr)

theorem make_returns (hx : ∀ x ∈ coordinates, x.Faithful) (ha : srs.Sound)
    (h : make ctx v coordinates srs = .ok c) :
    Returns Tidy ofElement ctx v (ctx.gmlName v "pos") c := by
  have hwords : ∀ w ∈ coordinates.map (·.format), Text.IsWord w :=
    List.forall_mem_map.2 fun x hc => (hx x hc).isWord_format
  simp only [make, Context.elementIn_gml, bind_ok, Except.ok.injEq, exists_eq_left'] at h
  have hne : listText coordinates ≠ "" := by
    cases coordinates with
    | nil =>
      -- a position of no coordinates is refused
      simp only [checked, bind_ok, check_ok, exists_unit] at h
      obtain ⟨-, -, hrefused⟩ := bind_ok.1 h.1
      cases hrefused
    | cons x r => exact Text.unwords_ne_empty (hwords _ List.mem_cons_self)
  refine .of_made h (fun _ => rfl) ?_ (by simp [Component.base])
    (SrsAttributes.regular_addTo ((Regular.bare (ctx.listed_gmlName (by decide))).withText hne
      (Text.trim_unwords hwords)))
  simp only [Component.base, ofElement, bind_ok, within_ok]
  refine ⟨coordinates, ?_, srs, SrsAttributes.ofElement_addTo ha fun _ => rfl, h⟩
  rw [SrsAttributes.content_addTo]
  exact coordinates_listText hx

namespace Draft

/-- The reference systems. -/
def systems (d : Draft) : List SrsAttributes := [d.srs]

end Draft

theorem build_returns {d : Draft} (hx : ∀ x ∈ d.numbers, x.Faithful) (ha : ∀ a ∈ d.systems, a.Sound)
    (h : build ctx v d = .ok c) : Returns Tidy ofElement ctx v (ctx.gmlName v "pos") c :=
  make_returns hx (by simpa [Draft.systems] using ha) h

end Position

/-- What is read of a system are the unqualified attributes. -/
theorem SrsAttributes.ofElement_congr {e e' : Element}
    (h : ∀ l, e.attribute? none l = e'.attribute? none l) : ofElement e = ofElement e' := by
  simp only [ofElement, readDimension, h]

namespace Shape

variable {localName id : String} {srs : SrsAttributes} {e : Element}

theorem element_ok (h : element ctx v localName id srs = .ok e) :
    e = (srs.addTo { name := ctx.gmlName v localName }).put (ctx.gmlName v "id") id := by
  simp only [element, Context.elementIn_gml, Context.putIn, Context.nameIn_gml, bind_ok,
    Except.ok.injEq, exists_eq_left'] at h
  unfold Element.put
  split at h
  case isTrue hid => rw [if_pos hid, Except.ok.inj h]
  case isFalse hid => rw [if_neg hid, pure_ok.1 h]

section Made

variable (h : element ctx v localName id srs = .ok e)

include h

theorem name_element : e.name = ctx.gmlName v localName := by simp [element_ok h]

theorem children_element : e.children = [] := by simp [element_ok h]

theorem uri_element : e.uri = v.gmlUri := by simp [element_ok h, Element.uri, Context.gmlName]

theorem attribute?_element (l : String) :
    e.attribute? none l =
      (srs.addTo { name := ctx.gmlName v localName }).attribute? none l := by
  simp [element_ok h, Element.attribute?_put, Context.gmlName]

theorem id_element : e.attributeText v.gmlUri "id" = id := by
  have hsrs : (srs.addTo { name := ctx.gmlName v localName }).attribute? (some v.gmlUri) "id" =
      none := by
    rw [SrsAttributes.addTo_eq, Element.attribute?_putAll_of_ne fun n => by simp]
    rfl
  have hname : (ctx.gmlName v "id").localName = "id" ∧ (ctx.gmlName v "id").uri = some v.gmlUri :=
    ⟨rfl, rfl⟩
  rw [element_ok h, Element.attributeText_put, hname.1, hname.2, if_pos ⟨rfl, rfl⟩,
    Element.attributeText, hsrs]
  simp

theorem regular_element {fit : String → Prop} (hl : IsName localName) :
    e.Regular fit (ctx.bindings v) := by
  rw [element_ok h]
  exact (SrsAttributes.regular_addTo (.bare (ctx.listed_gmlName hl))).put
    (.listed (ctx.listed_gmlName (by decide)))

/-- The system of a shape is read again, whatever is inside the shape. -/
theorem srs_element (ha : srs.Sound) (cs : List Element) :
    SrsAttributes.ofElement (e.add cs) = .ok srs := by
  let marked := srs.addTo { name := ctx.gmlName v localName }
  have hsame : ∀ l, (e.add cs).attribute? none l = marked.attribute? none l := fun l => by
    rw [Element.attribute?_add, attribute?_element h]
  rw [SrsAttributes.ofElement_congr hsame]
  exact SrsAttributes.ofElement_addTo ha fun _ => rfl

end Made

end Shape

namespace Point

variable {c : Point} {position : Position} {srs : SrsAttributes} {id : String}

theorem make_returns (hp : Returns Tidy Position.ofElement ctx v (ctx.gmlName v "pos") position)
    (ha : srs.Sound) (h : make ctx v position srs id = .ok c) :
    Returns Tidy ofElement ctx v (ctx.gmlName v Shape.point) c := by
  simp only [make, bind_ok] at h
  obtain ⟨e, he, hmade⟩ := h
  refine .of_made (e := e.add [position.element]) hmade (fun _ => rfl) ?_
    (show e.name = _ from Shape.name_element he)
    ((Shape.regular_element he (by decide)).add (List.forall_mem_singleton.2 hp.regular))
  have hposition : (e.add [position.element]).ownChild? "pos" = some position.element := by
    have hname : position.element.name = _ := hp.name
    rw [Element.ownChild?_eq, Element.ownChildren, Element.childrenNamed, Element.children_add,
      Element.uri_add, Shape.children_element he, Shape.uri_element he]
    simp [hname]
  have hid : (e.add [position.element]).attributeText v.gmlUri "id" = id := by
    rw [Element.attributeText_add, Shape.id_element he]
  simp only [ofElement, bind_ok, within_ok, hposition, hid]
  refine ⟨some position, ?_, srs, Shape.srs_element he ha _, hmade⟩
  exact readOption_returns (o := some position) (by simpa using hp)

/-- The reference systems. -/
def Draft.systems (d : Draft) : List SrsAttributes := d.srs :: d.position.systems

theorem build_returns {d : Draft} (hx : ∀ x ∈ d.numbers, x.Faithful) (ha : ∀ a ∈ d.systems, a.Sound)
    (h : build ctx v d = .ok c) : Returns Tidy ofElement ctx v (ctx.gmlName v Shape.point) c := by
  obtain ⟨hsrs, hsystems⟩ := List.forall_mem_cons.1 ha
  obtain ⟨p, hp, h⟩ := build_ok h
  exact make_returns (Position.build_returns hx hsystems (commitAs_some.1 hp).2) hsrs h

end Point

namespace Polygon

variable {c : Polygon} {positions : List Position} {srs : SrsAttributes} {id : String}

/-- The ring of a polygon, with what stands on it. -/
def ringElement (ctx : Context) (v : Version) (content : List Element) : Element :=
  ({ name := ctx.gmlName v "LinearRing" } : Element).add content

/-- The exterior of a polygon, with what stands on its ring. -/
def exteriorElement (ctx : Context) (v : Version) (content : List Element) : Element :=
  ({ name := ctx.gmlName v "exterior" } : Element).add [ringElement ctx v content]

/-- The exterior of a polygon that was made is found again, and its ring. -/
theorem rings_made {e : Element} (he : Shape.element ctx v Shape.polygon id srs = .ok e)
    (content : List Element) :
    exterior? (e.add [exteriorElement ctx v content]) = some (exteriorElement ctx v content) ∧
      ring? (e.add [exteriorElement ctx v content]) (exteriorElement ctx v content) =
        some (ringElement ctx v content) := by
  have huri : (e.add [exteriorElement ctx v content]).uri = v.gmlUri :=
    Element.uri_add.trans (Shape.uri_element he)
  constructor
  · rw [exterior?, Element.ownChild?, Element.child?, Element.children_add,
      Shape.children_element he, huri]
    simp [exteriorElement]
  · rw [ring?, Element.child?, huri]
    simp [exteriorElement, ringElement]

theorem make_returns
    (hp : ∀ p ∈ positions, Returns Tidy Position.ofElement ctx v (ctx.gmlName v "pos") p)
    (ha : srs.Sound) (h : make ctx v positions srs id = .ok c) :
    Returns Tidy ofElement ctx v (ctx.gmlName v Shape.polygon) c := by
  simp only [make, Context.elementIn_gml, bind_ok, Except.ok.injEq, exists_eq_left'] at h
  obtain ⟨e, he, hmade⟩ := h
  obtain ⟨content, hcontent⟩ : ∃ es : List Element, es = positions.map (·.element) := ⟨_, rfl⟩
  replace hmade : checked ⟨⟨e.add [exteriorElement ctx v content], v, []⟩, id, srs, positions⟩ =
      .ok c := by
    rw [hcontent]
    exact hmade
  obtain ⟨hfirst, hsecond⟩ := rings_made he content
  have hpositions : (ringElement ctx v content).childrenNamed
      (e.add [exteriorElement ctx v content]).uri "pos" = positions.map (·.element) := by
    have hnames : ∀ x ∈ positions.map (·.element), x.name = _ := names_returns hp
    rw [Element.childrenNamed, Element.uri_add, Shape.uri_element he, hcontent]
    simp [ringElement, filter_named hnames]
  have hid : (e.add [exteriorElement ctx v content]).attributeText v.gmlUri "id" = id := by
    rw [Element.attributeText_add, Shape.id_element he]
  refine .of_made (e := e.add [exteriorElement ctx v content]) hmade (fun _ => rfl) ?_
    (show e.name = _ from Shape.name_element he) ?_
  · simp only [ofElement, readPositions, hfirst, hsecond, hpositions, hid, bind_ok, within_ok]
    refine ⟨positions, ?_, srs, Shape.srs_element he ha _, hmade⟩
    simpa [Component.base] using readAll_returns hp
  · refine (Shape.regular_element he (by decide)).add (List.forall_mem_singleton.2 ?_)
    rw [hcontent]
    exact (Regular.bare (ctx.listed_gmlName (by decide))).add (List.forall_mem_singleton.2
      ((Regular.bare (ctx.listed_gmlName (by decide))).add (regular_returns hp)))

/-- The reference systems. -/
def Draft.systems (d : Draft) : List SrsAttributes := d.srs :: d.positions.flatMap (·.systems)

theorem build_returns {d : Draft} (hx : ∀ x ∈ d.numbers, x.Faithful) (ha : ∀ a ∈ d.systems, a.Sound)
    (h : build ctx v d = .ok c) : Returns Tidy ofElement ctx v (ctx.gmlName v Shape.polygon) c := by
  simp only [Draft.numbers, Draft.systems, List.forall_mem_cons, List.forall_mem_flatMap] at hx ha
  obtain ⟨ps, hps, h⟩ := bind_ok.1 h
  exact make_returns (commitAll_all (fun p hp _ => Position.build_returns (hx p hp) (ha.2 p hp)) hps)
    ha.1 h

end Polygon

namespace BoundingGeometry

variable {c : BoundingGeometry} {polygons : List Polygon} {points : List Point}

theorem make_returns
    (hg : ∀ g ∈ polygons, Returns Tidy Polygon.ofElement ctx v (ctx.gmlName v Shape.polygon) g)
    (hp : ∀ p ∈ points, Returns Tidy Point.ofElement ctx v (ctx.gmlName v Shape.point) p)
    (h : make ctx v polygons points = .ok c) :
    Returns Tidy ofElement ctx v (ctx.ddmsName v "boundingGeometry") c := by
  obtain ⟨e, he⟩ : ∃ e, e = (ctx.ddmsElement v "boundingGeometry").add
      (polygons.map (·.element) ++ points.map (·.element)) := ⟨_, rfl⟩
  have hmade : checked ⟨⟨e, v, []⟩, polygons, points⟩ = .ok c := he ▸ h
  have hfind : ∀ l, e.childrenNamed v.gmlUri l =
      (if Shape.polygon = l then polygons.map (·.element) else []) ++
        (if Shape.point = l then points.map (·.element) else []) := by
    intro l
    have hgn : ∀ e ∈ polygons.map (·.element), e.name = _ := names_returns hg
    have hpn : ∀ e ∈ points.map (·.element), e.name = _ := names_returns hp
    simp [he, Element.childrenNamed, filter_named hgn, filter_named hpn]
  refine .of_made (e := e) hmade (fun _ => rfl) ?_ (by simp [he]) ?_
  · simp only [ofElement, bind_ok, within_ok, hfind]
    refine ⟨polygons, ?_, points, ?_, hmade⟩
    · simpa [Component.base, Shape.polygon, Shape.point] using readAll_returns hg
    · simpa [Component.base, Shape.polygon, Shape.point] using readAll_returns hp
  · rw [he]
    exact (Regular.ddmsElement (by decide)).add
      (List.forall_mem_append.2 ⟨regular_returns hg, regular_returns hp⟩)

/-- The reference systems. -/
def Draft.systems (d : Draft) : List SrsAttributes :=
  d.polygons.flatMap (·.systems) ++ d.points.flatMap (·.systems)

theorem build_returns {d : Draft} (hx : ∀ x ∈ d.numbers, x.Faithful) (ha : ∀ a ∈ d.systems, a.Sound)
    (h : build ctx v d = .ok c) :
    Returns Tidy ofElement ctx v (ctx.ddmsName v "boundingGeometry") c := by
  simp only [Draft.numbers, Draft.systems, List.forall_mem_append, List.forall_mem_flatMap] at hx ha
  obtain ⟨gs, hgs, h⟩ := bind_ok.1 h
  obtain ⟨ps, hps, h⟩ := bind_ok.1 h
  exact make_returns
    (commitAll_all (fun g hg _ => Polygon.build_returns (hx.1 g hg) (ha.1 g hg)) hgs)
    (commitAll_all (fun p hp _ => Point.build_returns (hx.2 p hp) (ha.2 p hp)) hps) h

end BoundingGeometry

end Shapes

section Measures

theorem Double.tidy_format (x : Double) : Tidy x.format :=
  Text.trim_of_no_space fun _ => isSpace_format

namespace Measure

theorem isName_nameIn {l : String} (h : l ∈ names) : IsName (nameIn v l) := by
  have hall : ∀ l ∈ names, IsName l ∧ IsName l.capitalize := by decide +kernel
  unfold nameIn
  split
  · exact (hall l h).1
  · exact (hall l h).2

theorem regular_numberElements {fit : String → Prop} (hf : ∀ x : Double, fit x.format) {l : String}
    (x : Option Double) (h : l ∈ names) :
    ∀ e ∈ numberElements ctx v l x, e.Regular fit (ctx.bindings v) := by
  cases x with
  | none => simp [numberElements]
  | some x => exact List.forall_mem_singleton.2 (.textElement (isName_nameIn h) (hf x))

end Measure

namespace BoundingBox

theorem build_returns {fit : String → Prop} (hf : ∀ x : Double, fit x.format) {d : Draft}
    {c : BoundingBox} (h : build ctx v d = .ok c) :
    Returns fit ofElement ctx v (ctx.ddmsName v "boundingBox") c := by
  refine .of_read h ?_ (by simp [elementOf]) ((Regular.ddmsElement (by decide)).add ?_)
  · simp only [build, ofElement, checked, bind_ok, within_ok, exists_unit, pure_ok] at h
    obtain ⟨west, -, east, -, south, -, north, -, -, rfl⟩ := h
    rfl
  · simp only [List.forall_mem_append]
    exact ⟨⟨⟨Measure.regular_numberElements hf _ (by decide),
      Measure.regular_numberElements hf _ (by decide)⟩,
      Measure.regular_numberElements hf _ (by decide)⟩,
      Measure.regular_numberElements hf _ (by decide)⟩

end BoundingBox

namespace VerticalExtent

theorem build_returns {fit : String → Prop} (hf : ∀ x : Double, fit x.format) {d : Draft}
    {c : VerticalExtent} (h : build ctx v d = .ok c) :
    Returns fit ofElement ctx v (ctx.ddmsName v "verticalExtent") c := by
  refine .of_read h ?_ (by simp [elementOf])
    ((((Regular.ddmsElement (by decide)).putDdms (by decide)).putDdms (by decide)).add ?_)
  · simp only [build, ofElement, checked, bind_ok, within_ok, exists_unit, pure_ok] at h
    obtain ⟨low, -, high, -, -, rfl⟩ := h
    rfl
  · exact List.forall_mem_append.2 ⟨Measure.regular_numberElements hf _ (by decide),
      Measure.regular_numberElements hf _ (by decide)⟩

end VerticalExtent

end Measures

namespace GeospatialExtents

/-- Each part of the extents is read again from its element. -/
structure Returned (ctx : Context) (v : Version) (x : GeospatialExtents) : Prop where
  geographicIdentifier : ∀ c ∈ x.geographicIdentifier,
    Returns Tidy GeographicIdentifier.ofElement ctx v (ctx.ddmsName v "geographicIdentifier") c
  boundingBox : ∀ c ∈ x.boundingBox,
    Returns Tidy BoundingBox.ofElement ctx v (ctx.ddmsName v "boundingBox") c
  boundingGeometry : ∀ c ∈ x.boundingGeometry,
    Returns Tidy BoundingGeometry.ofElement ctx v (ctx.ddmsName v "boundingGeometry") c
  postalAddress : ∀ c ∈ x.postalAddress,
    Returns Tidy PostalAddress.ofElement ctx v (ctx.ddmsName v "postalAddress") c
  verticalExtent : ∀ c ∈ x.verticalExtent,
    Returns Tidy VerticalExtent.ofElement ctx v (ctx.ddmsName v "verticalExtent") c

variable {x : GeospatialExtents} {holder : Element}

theorem elements_eq (x : GeospatialExtents) : x.parts.map (·.element) =
    (x.geographicIdentifier.map (·.element)).toList ++ (x.boundingBox.map (·.element)).toList ++
      (x.boundingGeometry.map (·.element)).toList ++ (x.postalAddress.map (·.element)).toList ++
      (x.verticalExtent.map (·.element)).toList := by
  simp only [parts, List.map_append, ← Option.toList_map, Option.map_map, Function.comp_def]

theorem Returned.regular (h : x.Returned ctx v) :
    ∀ e ∈ x.parts.map (·.element), e.Regular Tidy (ctx.bindings v) := by
  rw [elements_eq]
  simp only [List.forall_mem_append]
  exact ⟨⟨⟨⟨regular_returns_option h.geographicIdentifier, regular_returns_option h.boundingBox⟩,
    regular_returns_option h.boundingGeometry⟩, regular_returns_option h.postalAddress⟩,
    regular_returns_option h.verticalExtent⟩

/-- Each part is named for its place. -/
structure Named (ctx : Context) (v : Version) (x : GeospatialExtents) : Prop where
  geographicIdentifier : ∀ e ∈ (x.geographicIdentifier.map (·.element)).toList,
    e.name = ctx.ddmsName v "geographicIdentifier"
  boundingBox : ∀ e ∈ (x.boundingBox.map (·.element)).toList, e.name = ctx.ddmsName v "boundingBox"
  boundingGeometry : ∀ e ∈ (x.boundingGeometry.map (·.element)).toList,
    e.name = ctx.ddmsName v "boundingGeometry"
  postalAddress : ∀ e ∈ (x.postalAddress.map (·.element)).toList,
    e.name = ctx.ddmsName v "postalAddress"
  verticalExtent : ∀ e ∈ (x.verticalExtent.map (·.element)).toList,
    e.name = ctx.ddmsName v "verticalExtent"

theorem Returned.named (h : x.Returned ctx v) : x.Named ctx v where
  geographicIdentifier := names_returns_option h.geographicIdentifier
  boundingBox := names_returns_option h.boundingBox
  boundingGeometry := names_returns_option h.boundingGeometry
  postalAddress := names_returns_option h.postalAddress
  verticalExtent := names_returns_option h.verticalExtent

theorem Named.ownChildren (h : x.Named ctx v) (l : String)
    (hc : holder.children = x.parts.map (·.element)) (hu : holder.uri = v.ddmsUri) :
    holder.ownChildren l =
      (if "geographicIdentifier" = l then (x.geographicIdentifier.map (·.element)).toList else []) ++
        (if "boundingBox" = l then (x.boundingBox.map (·.element)).toList else []) ++
        (if "boundingGeometry" = l then (x.boundingGeometry.map (·.element)).toList else []) ++
        (if "postalAddress" = l then (x.postalAddress.map (·.element)).toList else []) ++
        (if "verticalExtent" = l then (x.verticalExtent.map (·.element)).toList else []) := by
  simp [Element.ownChildren, Element.childrenNamed, hc, hu, elements_eq,
    filter_named h.geographicIdentifier, filter_named h.boundingBox,
    filter_named h.boundingGeometry, filter_named h.postalAddress, filter_named h.verticalExtent]

/-- Extents are read again from the element that holds just their parts. -/
theorem Returned.ofElement_eq (h : x.Returned ctx v)
    (hc : holder.children = x.parts.map (·.element)) (hu : holder.uri = v.ddmsUri) :
    ofElement ctx v holder = .ok x := by
  simp only [ofElement, Element.ownChild?_eq, h.named.ownChildren _ hc hu, bind_ok, pure_ok]
  refine ⟨x.geographicIdentifier, ?_, x.boundingBox, ?_, x.boundingGeometry, ?_, x.postalAddress, ?_,
    x.verticalExtent, ?_, rfl⟩
  · simpa [Component.base] using readOption_returns h.geographicIdentifier
  · simpa [Component.base] using readOption_returns h.boundingBox
  · simpa [Component.base] using readOption_returns h.boundingGeometry
  · simpa [Component.base] using readOption_returns h.postalAddress
  · simpa [Component.base] using readOption_returns h.verticalExtent

end GeospatialExtents

namespace GeospatialCoverage

variable {c : GeospatialCoverage} {extents : GeospatialExtents} {precedence : String}
  {order : Option Int}

theorem make_returns (hx : extents.Returned ctx v) (ho : ∀ n ∈ order, Text.fits 64 n = true)
    (hs : sd.commitAs ctx v = .ok s) (h : make ctx v extents precedence order s = .ok c) :
    Returns Tidy ofElement ctx v (ctx.ddmsName v "geospatialCoverage") c := by
  obtain ⟨e', he'⟩ : ∃ e, e = ((ctx.addWrapped v wrapper (extents.parts.map (·.element))
      (ctx.ddmsElement v "geospatialCoverage")).put (ctx.ddmsName v "precedence") precedence).put
      (ctx.ddmsName v "order") (orderText order) := ⟨_, rfl⟩
  simp only [make, ← he', bind_ok, within_ok] at h
  obtain ⟨e, he, hmade⟩ := h
  have hsec := SecurityAttributes.ofElement_addTo hs he (by
    simp [he', Element.attribute?_put, v.ddmsUri_ne_ismUri])
  obtain ⟨-, rfl⟩ := SecurityAttributes.addTo_ok.1 he
  have hwrapped : (SecurityAttributes.mark ctx v s.values e').children =
      if v.atLeast .v4_0_1 then extents.parts.map (·.element)
      else [(ctx.ddmsElement v wrapper).add (extents.parts.map (·.element))] := by
    rw [SecurityAttributes.children_mark, he', Element.children_put, Element.children_put]
    exact children_addWrapped "geospatialCoverage"
  obtain ⟨holder, hholder, hchildren, huri⟩ := holder?_addWrapped hwrapped (by simp [he'])
  have horder : (SecurityAttributes.mark ctx v s.values e').own "order" = orderText order := by
    rw [SecurityAttributes.own_mark (by simp [he'])]
    simp [he', Element.own, Element.attributeText, Element.attribute?_put]
  have hprecedence : (SecurityAttributes.mark ctx v s.values e').own "precedence" = precedence := by
    rw [SecurityAttributes.own_mark (by simp [he'])]
    simp [he', Element.own, Element.attributeText, Element.attribute?_put]
  refine .of_made (e := SecurityAttributes.mark ctx v s.values e') hmade (fun _ => rfl) ?_
    (by simp [he']) (.mark ?_ hs)
  · simp only [ofElement, hholder, horder, hprecedence, bind_ok, within_ok, withinHolder_ok]
    exact ⟨extents, hx.ofElement_eq hchildren huri, order, orderOf_orderText ho, s, hsec, hmade⟩
  · rw [he']
    exact (((Regular.ddmsElement (by decide)).addWrapped (by decide) hx.regular).putDdms
      (by decide)).putDdms (by decide)

namespace Draft

/-- The texts of elements. -/
def texts (d : Draft) : List String := d.geographicIdentifier.texts ++ d.postalAddress.texts

/-- The whole numbers. -/
def integers (d : Draft) : List Int := d.order.toList

/-- The reference systems. -/
def systems (d : Draft) : List SrsAttributes := d.boundingGeometry.systems

end Draft

theorem build_returns {d : Draft} (ht : ∀ t ∈ d.texts, Tidy t)
    (hn : ∀ n ∈ d.integers, Text.fits 64 n = true) (hx : ∀ x ∈ d.numbers, x.Faithful)
    (ha : ∀ a ∈ d.systems, a.Sound) (h : build ctx v d = .ok c) :
    Returns Tidy ofElement ctx v (ctx.ddmsName v "geospatialCoverage") c := by
  obtain ⟨hidentifier, haddress⟩ := List.forall_mem_append.1 ht
  obtain ⟨-, hgeometry, -⟩ := forall_numbers.1 hx
  obtain ⟨i, hi, h⟩ := bind_ok.1 h
  obtain ⟨b, hb, h⟩ := bind_ok.1 h
  obtain ⟨g, hg, h⟩ := bind_ok.1 h
  obtain ⟨a, haddr, h⟩ := bind_ok.1 h
  obtain ⟨x, hv, h⟩ := bind_ok.1 h
  obtain ⟨s, hs, h⟩ := bind_ok.1 h
  refine make_returns ?_ (by simpa [Draft.integers] using hn) hs h
  exact {
    geographicIdentifier := commitAs_all (fun _ => GeographicIdentifier.build_returns hidentifier) hi
    boundingBox := commitAs_all (fun _ => BoundingBox.build_returns Double.tidy_format) hb
    boundingGeometry := commitAs_all (fun _ => BoundingGeometry.build_returns hgeometry ha) hg
    postalAddress := commitAs_all (fun _ => PostalAddress.build_returns haddress) haddr
    verticalExtent := commitAs_all (fun _ => VerticalExtent.build_returns Double.tidy_format) hv }

end GeospatialCoverage

end DiscoveryMetadata
