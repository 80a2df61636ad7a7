import DiscoveryMetadata.Proofs.Reading.Management
import DiscoveryMetadata.Proofs.Reading.Protection
import DiscoveryMetadata.Proofs.Reading.Spaces
import DiscoveryMetadata.Resource
/-
  Whole resources from alike elements.

  Main statement: `Resource.ofElement_alike`. Of two elements that differ in their prefixes and
  declarations, both are read as resources or none is, and the resources agree up to that.
-/
namespace DiscoveryMetadata

open Xml (Element)

variable {p : Option String → Option String} {e e' : Element} {ctx : Context} {v : Version}

namespace ExtensibleElement

instance : Restyled ExtensibleElement where
  restyle p c := { c with toBase := c.toBase.restyle p }
  lines_restyle _ _ _ _ := rfl

theorem rules_steady : Steady (restyle p) rules := by
  intro c r
  simp [rules, restyle]

theorem ofElement_alike (h : e.restyle p = e'.restyle p) :
    Alike (restyle p) (ofElement ctx v e) (ofElement ctx v e') := by
  refine Alike.checked (k := fun (c : ExtensibleElement) _ => c) rules_steady
    (fun _ _ => rfl) ?_ _ _
  simp only [restyle, Base.restyle, h]

end ExtensibleElement

namespace TopLevel

/-- The component with the prefixes of its elements changed. -/
def restyle (p : Option String → Option String) : TopLevel → TopLevel
  | identifier c => identifier (Restyled.restyle p c)
  | caption c => caption (Restyled.restyle p c)
  | language c => language (Restyled.restyle p c)
  | dates c => dates (Restyled.restyle p c)
  | rights c => rights (Restyled.restyle p c)
  | source c => source (Restyled.restyle p c)
  | resourceType c => resourceType (Restyled.restyle p c)
  | producer c => producer (Restyled.restyle p c)
  | format c => format (Restyled.restyle p c)
  | subject c => subject (Restyled.restyle p c)
  | virtual c => virtual (Restyled.restyle p c)
  | temporal c => temporal (Restyled.restyle p c)
  | geospatial c => geospatial (Restyled.restyle p c)
  | related c => related (Restyled.restyle p c)
  | management c => management (Restyled.restyle p c)
  | security c => security (Restyled.restyle p c)
  | extensible c => extensible (Restyled.restyle p c)

@[simp]
theorem base_restyle (t : TopLevel) : (t.restyle p).base = t.base.restyle p := by cases t <;> rfl

@[simp]
theorem rank_restyle (t : TopLevel) : (t.restyle p).rank = t.rank := by cases t <;> rfl

@[simp]
theorem lines_restyle (t : TopLevel) (stem index : String) :
    (t.restyle p).lines stem index = t.lines stem index := by
  cases t <;> exact Restyled.lines_restyle p _ _ _

theorem place_restyle (t : TopLevel) (ts : List TopLevel) :
    place (t.restyle p) (ts.map (·.restyle p)) = (place t ts).map (·.restyle p) := by
  induction ts with
  | nil => rfl
  | cons s r ih =>
    rw [List.map_cons, place, place, rank_restyle, rank_restyle]
    split
    · rfl
    · rw [ih, List.map_cons]

theorem inOrder_restyle (ts : List TopLevel) :
    inOrder (ts.map (·.restyle p)) = (inOrder ts).map (·.restyle p) := by
  induction ts with
  | nil => rfl
  | cons t r ih =>
    rw [List.map_cons, inOrder, List.foldr_cons, ← inOrder, ih, place_restyle]
    rfl

/-- The component does not carry contents in which prefixes count, up to a change of these. -/
def IsFixed (p : Option String → Option String) : TopLevel → Prop
  | subject c => c.IsFixed p
  | extensible _ => False
  | _ => True

theorem beq_restyle {a b : TopLevel} (ha : a.IsFixed p) (hb : b.IsFixed p) :
    (a.restyle p == b.restyle p) = (a == b) := by
  cases a <;> cases b <;> try rfl
  case identifier.identifier => exact Identifier.beq_restyle _ _
  case caption.caption => exact Caption.beq_restyle _ _
  case language.language => exact Language.beq_restyle _ _
  case dates.dates => exact Dates.beq_restyle _ _
  case rights.rights => exact Rights.beq_restyle _ _
  case source.source => exact Source.beq_restyle _ _
  case resourceType.resourceType => exact ResourceType.beq_restyle _ _
  case producer.producer => exact ProducerRole.beq_restyle _ _
  case format.format => exact Format.beq_restyle _ _
  case virtual.virtual => exact VirtualCoverage.beq_restyle _ _
  case temporal.temporal => exact TemporalCoverage.beq_restyle _ _
  case geospatial.geospatial => exact GeospatialCoverage.beq_restyle _ _
  case related.related => exact RelatedResource.beq_restyle _ _
  case management.management => exact Management.beq_restyle _ _
  case security.security => exact Security.beq_restyle _ _
  case subject.subject => exact SubjectCoverage.beq_restyle ha hb
  case extensible.extensible => exact ha.elim

theorem ofDdmsElement_alike (h : e.restyle p = e'.restyle p) :
    Alike (restyle p) (ofDdmsElement ctx v e) (ofDdmsElement ctx v e') := by
  unfold ofDdmsElement
  rw [Element.localName_congr h]
  split
  · exact (Identifier.ofElement_alike h).map fun _ _ => congrArg identifier
  · exact (Language.ofElement_alike h).map fun _ _ => congrArg language
  · exact (Dates.ofElement_alike h).map fun _ _ => congrArg dates
  · exact (Rights.ofElement_alike h).map fun _ _ => congrArg rights
  · exact (Source.ofElement_alike h).map fun _ _ => congrArg source
  · exact (ResourceType.ofElement_alike h).map fun _ _ => congrArg resourceType
  · exact (Format.ofElement_alike h).map fun _ _ => congrArg format
  · exact (SubjectCoverage.ofElement_alike h).map fun _ _ => congrArg subject
  · exact (VirtualCoverage.ofElement_alike h).map fun _ _ => congrArg virtual
  · exact (TemporalCoverage.ofElement_alike h).map fun _ _ => congrArg temporal
  · exact (GeospatialCoverage.ofElement_alike h).map fun _ _ => congrArg geospatial
  · exact (Security.ofElement_alike h).map fun _ _ => congrArg security
  · split
    · exact (Management.ofElement_alike h).map fun _ _ => congrArg management
    split
    · exact (RelatedResource.ofElement_alike h).map fun _ _ => congrArg related
    split
    · exact (Caption.ofElement_alike h).map fun _ _ => congrArg caption
    split
    · exact (ProducerRole.ofElement_alike h).map fun _ _ => congrArg producer
    · exact .error _ _

theorem ofElement_alike (h : e.restyle p = e'.restyle p) :
    Alike (restyle p) (ofElement ctx v e) (ofElement ctx v e') := by
  have huri : e.name.uri = e'.name.uri :=
    Element.congr_of_restyle h (f := (·.name.uri)) fun e => by rw [Element.name_restyle]; rfl
  unfold ofElement
  rw [huri]
  split
  · exact ofDdmsElement_alike h
  · exact (ExtensibleElement.ofElement_alike h).map fun _ _ => congrArg extensible

end TopLevel

namespace Markings

theorem ofElement_congr (h : e.restyle p = e'.restyle p) : ofElement v e = ofElement v e' := by
  simp only [ofElement, versionOf, ntkVersionOf, flagOf, Element.attribute?_congr h,
    Element.attributeText_congr h]

end Markings

namespace Resource

/-- The resource with the prefixes of all its elements changed. -/
def restyle (p : Option String → Option String) (r : Resource) : Resource :=
  { r with
    toBase := r.toBase.restyle p
    components := r.components.map (·.restyle p)
    extensible := r.extensible.restyle p }

section Selections

variable (r : Resource)

theorem filterMap_restyle {α : Type} [Component α] [Restyled α] {f : TopLevel → Option α}
    (hf : ∀ t, f (t.restyle p) = (f t).map (Restyled.restyle p)) :
    (r.restyle p).components.filterMap f =
      (r.components.filterMap f).map (Restyled.restyle p) := by
  change (r.components.map (·.restyle p)).filterMap f = _
  rw [List.filterMap_map, List.map_filterMap]
  congr 1
  exact funext hf

theorem identifiers_restyle :
    (r.restyle p).identifiers = r.identifiers.map (Restyled.restyle p) :=
  r.filterMap_restyle fun t => by cases t <;> rfl

theorem titles_restyle : (r.restyle p).titles = r.titles.map (Restyled.restyle p) := by
  refine r.filterMap_restyle fun t => ?_
  cases t
  case caption c =>
    dsimp only [TopLevel.restyle]
    have hkind : (Restyled.restyle p c).kind = c.kind := rfl
    rw [hkind]
    split <;> rfl
  all_goals rfl

theorem producers_restyle : (r.restyle p).producers = r.producers.map (Restyled.restyle p) :=
  r.filterMap_restyle fun t => by cases t <;> rfl

theorem extensibleElements_restyle :
    (r.restyle p).extensibleElements = r.extensibleElements.map (Restyled.restyle p) :=
  r.filterMap_restyle fun t => by cases t <;> rfl

theorem ddmsComponents_restyle :
    (r.restyle p).ddmsComponents = r.ddmsComponents.map (·.restyle p) := by
  change (r.components.map (·.restyle p)).filter _ = _
  rw [List.filter_map]
  congr 2
  funext t
  cases t <;> rfl

theorem checkRollup_restyle : (r.restyle p).checkRollup = r.checkRollup := by
  have hsame : (r.restyle p).components.filterMap countedClassification? =
      r.components.filterMap countedClassification? := by
    change (r.components.map (·.restyle p)).filterMap _ = _
    rw [List.filterMap_map]
    congr 1
    funext t
    cases t <;> rfl
  rw [checkRollup, hsame]
  rfl

end Selections

/-- The resource does not carry contents in which prefixes count, up to a change of these. -/
structure IsFixed (p : Option String → Option String) (r : Resource) : Prop where
  components : ∀ t ∈ r.components, t.IsFixed p
  extensible : r.extensible.IsFixed p

theorem beq_restyle {a b : Resource} (ha : a.IsFixed p) (hb : b.IsFixed p) :
    (a.restyle p == b.restyle p) = (a == b) := by
  obtain ⟨b1, c1, m1, s1, n1, x1⟩ := a
  obtain ⟨b2, c2, m2, s2, n2, x2⟩ := b
  change (_ == _ && (_ == _ && (_ == _ && (_ == _ && (_ == _ && x1.restyle p == x2.restyle p))))) =
    (_ == _ && (_ == _ && (_ == _ && (_ == _ && (_ == _ && _ == _)))))
  rw [Base.beq_restyle, show x1.restyle p = x1 from ha.extensible,
    show x2.restyle p = x2 from hb.extensible,
    beq_map_of_mem fun x hx y hy => TopLevel.beq_restyle (ha.components x hx) (hb.components y hy)]

/-- Prefixes that stay as they are do not change how a component is counted. -/
theorem indexOf_restyle_id (ts : List TopLevel) (place : Nat) (t : TopLevel) :
    indexOf (ts.map (·.restyle id)) place (t.restyle id) = indexOf ts place t := by
  have hname : ∀ s : TopLevel, (s.restyle id).base.writtenName = s.base.writtenName := fun s => by
    rw [TopLevel.base_restyle, Base.writtenName, Base.element_restyle, Xml.Element.writtenName,
      Element.name_restyle]
    rfl
  simp only [indexOf, ← List.map_take, List.filter_map, List.length_map, hname,
    Function.comp_def]

theorem lines_restyle_id (r : Resource) (stem index : String) :
    Component.lines (r.restyle id) stem index = Component.lines r stem index := by
  have hline : ∀ x : TopLevel × Nat,
      (x.1.restyle id).lines (stem ++ index)
          (indexOf (r.components.map (·.restyle id)) x.2 (x.1.restyle id)) =
        x.1.lines (stem ++ index) (indexOf r.components x.2 x.1) := by
    intro x
    rw [TopLevel.lines_restyle, indexOf_restyle_id]
  simp only [Component.lines, extensibleElements_restyle, List.isEmpty_map]
  simp [restyle, List.zipIdx_map, List.flatMap_map, hline]

theorem rules_steady : Steady (restyle p) rules := by
  intro c r
  have hb : (c.restyle p).toBase = c.toBase.restyle p := rfl
  have hparts : (c.restyle p).ddmsComponents.map (·.base) =
      (c.ddmsComponents.map (·.base)).map (·.restyle p) := by
    simp [ddmsComponents_restyle, Function.comp_def]
  have hs : (c.restyle p).security = c.security := rfl
  simp only [rules, hb, hs, hparts, identifiers_restyle, titles_restyle, producers_restyle,
    extensibleElements_restyle, checkRollup_restyle, List.isEmpty_map, List.length_map,
    Base.version_restyle, Base.element_restyle, requireDdms_restyle, bind_ok]
  refine exists_congr fun _ => and_congr Iff.rfl ?_
  -- the steps after the first are the same whether or not the version has markings
  split <;>
    simp only [bind_ok, iteStep_ok, forM_ok, requireChildren_restyle,
      Base.requireSameVersions_restyle] <;>
    exact Iff.rfl

theorem ofElement_alike (h : e.restyle p = e'.restyle p) :
    Alike (restyle p) (ofElement ctx v e) (ofElement ctx v e') := by
  refine ((Alike.of_eq (f := id) (Markings.ofElement_congr h)).within _ _).bind ?_
  rintro m _ rfl
  refine ((Alike.readAll (Element.children_congr h) fun _ _ =>
    TopLevel.ofElement_alike).within _ _).bind fun c1 c2 hc => ?_
  refine (SecurityAttributes.ofElement_alike h _ _).bind ?_
  rintro a _ rfl
  refine (NoticeAttributes.ofElement_alike h _ _).bind ?_
  rintro n _ rfl
  refine Alike.checked (k := fun (c : Resource) _ => { c with warnings := c.findings })
    rules_steady (fun _ _ => rfl) ?_ _ _
  change Resource.mk ⟨_, _, _⟩ _ _ _ _ _ = Resource.mk ⟨_, _, _⟩ _ _ _ _ _
  have hc' : c1.map (·.restyle p) = c2.map (·.restyle p) := hc
  simp only [h, ← TopLevel.inOrder_restyle, hc', ExtensibleAttributes.ofElement_congr h, id]

end Resource

end DiscoveryMetadata
