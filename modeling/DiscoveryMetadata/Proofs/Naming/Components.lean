import DiscoveryMetadata.Proofs.Returning.Management
import DiscoveryMetadata.Proofs.Returning.Protection
import DiscoveryMetadata.Proofs.Returning.Spaces
/-
  The names in the elements of components.

  Components make their elements of names with the prefixes of the context, whatever texts and
  numbers they are given. So the element of every component that a draft leads to is regular if
  nothing is asked of its texts; `Prefixed` says this of one kind of drafts, and it is shown for
  one kind after the other. Components that are read again from their elements are known to be so;
  of the others, what is read plays no part here, only which elements are put together.
-/
namespace DiscoveryMetadata

open Buildable
open Xml (Element IsName)
open Xml.Element (Regular)

/-- Any text fits. -/
def AnyText (_ : String) : Prop := True

/-- The elements of the components that such drafts lead to have the prefixes of the context. -/
class Prefixed (δ α : Type) [Component α] [Buildable δ α] : Prop where
  regular : ∀ {ctx : Context} {v : Version} {d : δ} {c : α}, build ctx v d = .ok c →
    (Component.base c).element.Regular AnyText (ctx.bindings v)

variable {ctx : Context} {v : Version} {s : SecurityAttributes} {sd : SecurityAttributes.Draft}
  {e e' : Element}

theorem anyText {ts : List String} : ∀ t ∈ ts, AnyText t := fun _ _ => trivial

section Making

variable {δ α ρ : Type} [Component α] [Buildable δ α]

/-- A component that was made has a regular element if it is made with one. -/
theorem regular_made {x : Outcome ρ} {k : ρ → α} {c : α}
    (h : (do let r ← x; return k r) = .ok c) (hk : ∀ r, (Component.base (k r)).element = e)
    (he : e.Regular AnyText (ctx.bindings v)) :
    (Component.base c).element.Regular AnyText (ctx.bindings v) := by
  obtain ⟨r, -, hc⟩ := bind_ok.1 h
  obtain rfl := pure_ok.1 hc
  rwa [hk]

/-- A marked element is regular if the element was. -/
theorem regular_addTo (hs : sd.commitAs ctx v = .ok s) (h : s.addTo ctx v e = .ok e')
    (he : e.Regular AnyText (ctx.bindings v)) : e'.Regular AnyText (ctx.bindings v) := by
  obtain ⟨-, rfl⟩ := SecurityAttributes.addTo_ok.1 h
  exact he.mark hs

theorem regular_all [Prefixed δ α] {ds : List δ} {cs : List α} (h : commitAll ctx v ds = .ok cs) :
    ∀ e ∈ cs.map (fun c => (Component.base c).element), e.Regular AnyText (ctx.bindings v) :=
  List.forall_mem_map.2 (commitAll_all (fun _ _ _ => Prefixed.regular) h)

theorem regular_option [Prefixed δ α] {d : δ} {o : Option α} (h : commitAs ctx v d = .ok o) :
    ∀ e ∈ (o.map fun c => (Component.base c).element).toList,
      e.Regular AnyText (ctx.bindings v) := by
  intro e he
  obtain ⟨c, hc, rfl⟩ := Option.map_eq_some_iff.1 (Option.mem_toList.1 he)
  exact commitAs_all (fun _ => Prefixed.regular) h c hc

end Making

section Records

instance : Prefixed Identifier.Draft Identifier := ⟨fun h => (Identifier.build_returns h).regular⟩

instance : Prefixed Caption.Draft Caption := ⟨fun h => (Caption.build_returns anyText h).regular⟩

instance : Prefixed Language.Draft Language := ⟨fun h => (Language.build_returns h).regular⟩

instance : Prefixed Rights.Draft Rights := ⟨fun h => (Rights.build_returns h).regular⟩

instance : Prefixed Source.Draft Source := ⟨fun h => (Source.build_returns h).regular⟩

instance : Prefixed ResourceType.Draft ResourceType :=
  ⟨fun h => (ResourceType.build_returns anyText h).regular⟩

instance : Prefixed Extent.Draft Extent := ⟨fun h => (Extent.build_returns h).regular⟩

instance : Prefixed Format.Draft Format := ⟨fun h => (Format.build_returns anyText h).regular⟩

/-- An approximable date has one of the names that there are for it. -/
theorem ApproximableDate.name_of_build {d : Draft} {c : ApproximableDate}
    (h : build ctx v d = .ok c) : d.name ∈ names := by
  simp only [build, make, ofElement, checked, rules, bind_ok, check_ok, demand_ok] at h
  obtain ⟨-, ⟨-, hname, -⟩, -⟩ := h
  simpa [Base.localName, Element.localName] using hname

instance : Prefixed ApproximableDate.Draft ApproximableDate :=
  ⟨fun h => (ApproximableDate.build_returns (ApproximableDate.name_of_build h) anyText h).regular⟩

instance : Prefixed Dates.Draft Dates where
  regular := by
    intro ctx v d c h
    obtain ⟨dates, hdates, h⟩ := bind_ok.1 h
    refine regular_made h (fun _ => rfl) (Regular.add ?_ (regular_all hdates))
    simp only [DateValues.entries, List.foldl_cons, List.foldl_nil]
    exact (((((Regular.ddmsElement (by decide)).putDdms (by decide)).putDdms (by decide)).putDdms
      (by decide)).putDdms (by decide)).putDdms (by decide) |>.putDdms (by decide)

end Records

section Roles

instance : Prefixed Organization.Draft Organization :=
  ⟨fun h => (Organization.build_returns anyText h).regular⟩

instance : Prefixed SubOrganization.Draft SubOrganization :=
  ⟨fun h => (SubOrganization.build_returns anyText h).regular⟩

instance : Prefixed Person.Draft Person := ⟨fun h => (Person.build_returns anyText h).regular⟩

instance : Prefixed NamedEntity.Draft NamedEntity :=
  ⟨fun h => (NamedEntity.build_returns anyText h).regular⟩

instance : Prefixed TaskingRole.Draft TaskingRole :=
  ⟨fun h => (TaskingRole.build_returns anyText h).regular⟩

instance : Prefixed ProducerRole.Draft ProducerRole where
  regular := by
    intro ctx v d c h
    obtain ⟨o, ho, h⟩ := bind_ok.1 h
    cases o with
    | none => simp only [within_ok, error_ok] at h
    | some entity =>
      have hentity : entity.base.element.Regular AnyText (ctx.bindings v) :=
        (ProducerRole.Draft.commitEntity_returned anyText ho).regular
      have hkind : IsName d.kind.name := by cases d.kind <;> decide
      obtain ⟨s, hs, h⟩ := bind_ok.1 h
      simp only [ProducerRole.make, bind_ok, within_ok] at h
      obtain ⟨e, ⟨e', he', he⟩, h⟩ := h
      refine regular_made h (fun _ => rfl) (regular_addTo hs he ?_)
      have hbare := (Regular.ddmsElement hkind).add (List.forall_mem_singleton.2 hentity)
      rw [ProducerRole.addPocTypes_ok he']
      split
      · exact hbare
      · refine hbare.setAttribute (.listed ?_)
        split
        · exact Context.listed_ismName (by decide)
        · exact Context.listed_ddmsName (by decide)

end Roles

section Subjects

instance : Prefixed Link.Draft Link := ⟨fun h => (Link.build_returns h).regular⟩

instance : Prefixed RelatedResource.Draft RelatedResource :=
  ⟨fun h => (RelatedResource.build_returns h).regular⟩

instance : Prefixed Keyword.Draft Keyword := ⟨fun h => (Keyword.build_returns h).regular⟩

instance : Prefixed Category.Draft Category := ⟨fun h => (Category.build_returns h).regular⟩

instance : Prefixed ProductionMetric.Draft ProductionMetric :=
  ⟨fun h => (ProductionMetric.build_returns h).regular⟩

instance : Prefixed NonStateActor.Draft NonStateActor where
  regular := by
    intro ctx v d c h
    obtain ⟨s, hs, h⟩ := bind_ok.1 h
    simp only [NonStateActor.make, bind_ok, within_ok] at h
    obtain ⟨e, he, h⟩ := h
    refine regular_made h (fun _ => rfl) (regular_addTo hs he ?_)
    exact ((Regular.textElement (by decide) trivial).putDdms (by decide)).putDdms (by decide)

instance : Prefixed SubjectCoverage.Draft SubjectCoverage where
  regular := by
    intro ctx v d c h
    obtain ⟨keywords, hkeywords, h⟩ := bind_ok.1 h
    obtain ⟨categories, hcategories, h⟩ := bind_ok.1 h
    obtain ⟨metrics, hmetrics, h⟩ := bind_ok.1 h
    obtain ⟨actors, hactors, h⟩ := bind_ok.1 h
    obtain ⟨s, hs, h⟩ := bind_ok.1 h
    simp only [SubjectCoverage.make, bind_ok, within_ok] at h
    obtain ⟨e, he, h⟩ := h
    refine regular_made h (fun _ => rfl) (regular_addTo hs he ?_)
    refine (Regular.ddmsElement (by decide)).addWrapped (by decide) ?_
    simp only [List.forall_mem_append]
    exact ⟨⟨⟨regular_all hkeywords, regular_all hcategories⟩, regular_all hmetrics⟩,
      regular_all hactors⟩

instance : Prefixed VirtualCoverage.Draft VirtualCoverage :=
  ⟨fun h => (VirtualCoverage.build_returns h).regular⟩

/-- The element of a bound of a period, whether it is exact or not. -/
theorem TemporalCoverage.regular_boundElement {text l : String} {d : ApproximableDate.Draft}
    {b : TimeBound} (hl : IsName l) (h : Draft.bound ctx v text d = .ok b) :
    (boundElement ctx v l (defaulted b)).Regular AnyText (ctx.bindings v) := by
  have hexact : (boundElement ctx v l (defaulted (.exact text))).Regular AnyText
      (ctx.bindings v) := .textElement hl trivial
  unfold Draft.bound at h
  split at h
  · obtain ⟨o, ho, h⟩ := bind_ok.1 h
    cases o with
    | none => exact pure_ok.1 h ▸ hexact
    | some date =>
      obtain rfl := pure_ok.1 h
      have hdates := commitAs_all
        (Q := fun c : ApproximableDate => c.element.Regular AnyText (ctx.bindings v))
        (fun _ => Prefixed.regular) ho
      exact hdates date rfl
  · exact pure_ok.1 h ▸ hexact

instance : Prefixed TemporalCoverage.Draft TemporalCoverage where
  regular := by
    intro ctx v d c h
    obtain ⟨start, hstart, h⟩ := bind_ok.1 h
    obtain ⟨finish, hfinish, h⟩ := bind_ok.1 h
    obtain ⟨s, hs, h⟩ := bind_ok.1 h
    simp only [TemporalCoverage.make, bind_ok, within_ok] at h
    obtain ⟨e, he, h⟩ := h
    refine regular_made h (fun _ => rfl) (regular_addTo hs he ?_)
    refine (Regular.ddmsElement (by decide)).addWrapped (by decide) ?_
    simp only [List.forall_mem_append, List.forall_mem_cons]
    exact ⟨Regular.textElements (by decide) trivial,
      TemporalCoverage.regular_boundElement (by decide) hstart,
      TemporalCoverage.regular_boundElement (by decide) hfinish, by simp⟩

end Subjects

section Spaces

instance : Prefixed AreaCode.Draft AreaCode := ⟨fun h => (AreaCode.build_returns h).regular⟩

instance : Prefixed FacilityIdentifier.Draft FacilityIdentifier :=
  ⟨fun h => (FacilityIdentifier.build_returns h).regular⟩

instance : Prefixed GeographicIdentifier.Draft GeographicIdentifier :=
  ⟨fun h => (GeographicIdentifier.build_returns anyText h).regular⟩

instance : Prefixed PostalAddress.Draft PostalAddress :=
  ⟨fun h => (PostalAddress.build_returns anyText h).regular⟩

instance : Prefixed BoundingBox.Draft BoundingBox :=
  ⟨fun h => (BoundingBox.build_returns (fun _ => trivial) h).regular⟩

instance : Prefixed VerticalExtent.Draft VerticalExtent :=
  ⟨fun h => (VerticalExtent.build_returns (fun _ => trivial) h).regular⟩

/-- The coordinates of a position that is made are at least two, so that their text has a blank. -/
theorem Position.listText_ne_empty {coordinates : List Double} {e : Element} {srs : SrsAttributes}
    {c : Position} (h : checked ⟨⟨e, v, []⟩, coordinates, srs⟩ = .ok c) :
    listText coordinates ≠ "" := by
  simp only [checked, rules, bind_ok, check_ok, exists_unit] at h
  obtain ⟨⟨-, hcount⟩, -⟩ := h
  split at hcount
  · simp [listText, Text.unwords]
  · simp [listText, Text.unwords]
  · cases hcount

instance : Prefixed Position.Draft Position where
  regular := by
    intro ctx v d c h
    have htext := Position.listText_ne_empty h
    refine regular_made h (fun _ => rfl) (SrsAttributes.regular_addTo ?_)
    exact (Regular.bare (ctx.listed_gmlName (by decide))).withText htext trivial

instance : Prefixed Point.Draft Point where
  regular := by
    intro ctx v d c h
    obtain ⟨o, ho, h⟩ := bind_ok.1 h
    cases o with
    | none => simp only [within_ok, error_ok] at h
    | some position =>
      obtain ⟨e, he, h⟩ := bind_ok.1 h
      refine regular_made h (fun _ => rfl) ((Shape.regular_element he (by decide)).add ?_)
      exact regular_option ho

instance : Prefixed Polygon.Draft Polygon where
  regular := by
    intro ctx v d c h
    obtain ⟨positions, hpositions, h⟩ := bind_ok.1 h
    simp only [Polygon.make, Context.elementIn_gml, bind_ok, Except.ok.injEq, exists_eq_left'] at h
    obtain ⟨e, he, h⟩ := h
    refine regular_made h (fun _ => rfl) ((Shape.regular_element he (by decide)).add ?_)
    refine List.forall_mem_singleton.2 ((Regular.bare (ctx.listed_gmlName (by decide))).add ?_)
    exact List.forall_mem_singleton.2
      ((Regular.bare (ctx.listed_gmlName (by decide))).add (regular_all hpositions))

instance : Prefixed BoundingGeometry.Draft BoundingGeometry where
  regular := by
    intro ctx v d c h
    obtain ⟨polygons, hpolygons, h⟩ := bind_ok.1 h
    obtain ⟨points, hpoints, h⟩ := bind_ok.1 h
    refine regular_made h (fun _ => rfl) ((Regular.ddmsElement (by decide)).add ?_)
    exact List.forall_mem_append.2 ⟨regular_all hpolygons, regular_all hpoints⟩

instance : Prefixed GeospatialCoverage.Draft GeospatialCoverage where
  regular := by
    intro ctx v d c h
    obtain ⟨identifier, hidentifier, h⟩ := bind_ok.1 h
    obtain ⟨box, hbox, h⟩ := bind_ok.1 h
    obtain ⟨geometry, hgeometry, h⟩ := bind_ok.1 h
    obtain ⟨address, haddress, h⟩ := bind_ok.1 h
    obtain ⟨vertical, hvertical, h⟩ := bind_ok.1 h
    obtain ⟨s, hs, h⟩ := bind_ok.1 h
    simp only [GeospatialCoverage.make, bind_ok, within_ok] at h
    obtain ⟨e, he, h⟩ := h
    refine regular_made h (fun _ => rfl) (regular_addTo hs he ?_)
    refine (((Regular.ddmsElement (by decide)).addWrapped (by decide) ?_).putDdms
      (by decide)).putDdms (by decide)
    rw [GeospatialExtents.elements_eq]
    simp only [List.forall_mem_append]
    exact ⟨⟨⟨⟨regular_option hidentifier, regular_option hbox⟩, regular_option hgeometry⟩,
      regular_option haddress⟩, regular_option hvertical⟩

end Spaces

section Managements

instance : Prefixed ManagedText.Draft ManagedText :=
  ⟨fun h => (ManagedText.build_returns anyText h).regular⟩

instance : Prefixed TaskId.Draft TaskId := ⟨fun h => (TaskId.build_returns anyText h).regular⟩

instance : Prefixed RecordKeeper.Draft RecordKeeper :=
  ⟨fun h => (RecordKeeper.build_returns anyText h).regular⟩

instance : Prefixed RecordsInfo.Draft RecordsInfo :=
  ⟨fun h => (RecordsInfo.build_returns anyText h).regular⟩

instance : Prefixed TaskingInfo.Draft TaskingInfo :=
  ⟨fun h => (TaskingInfo.build_returns anyText h).regular⟩

instance : Prefixed ProcessingInfo.Draft ProcessingInfo :=
  ⟨fun h => (ProcessingInfo.build_returns anyText h).regular⟩

instance : Prefixed RevisionRecall.Draft RevisionRecall where
  regular := by
    intro ctx v d c h
    obtain ⟨n, link, s, links, details, -, -, hs, hlinks, hdetails, h⟩ := RevisionRecall.build_ok h
    simp only [RevisionRecall.make, bind_ok, within_ok] at h
    obtain ⟨e, he, h⟩ := h
    refine regular_made h (fun _ => rfl) (regular_addTo hs he (Link.regular_addTo ?_))
    refine (((((Regular.textElement (by decide) trivial).add ?_).putDdms (by decide)).putDdms
      (by decide)).put (.bare (by decide))).put (.bare (by decide))
    exact List.forall_mem_append.2 ⟨regular_all hlinks, regular_all hdetails⟩

instance : Prefixed Management.Draft Management where
  regular := by
    intro ctx v d c h
    obtain ⟨records, hrecords, h⟩ := bind_ok.1 h
    obtain ⟨revision, hrevision, h⟩ := bind_ok.1 h
    obtain ⟨taskings, htaskings, h⟩ := bind_ok.1 h
    obtain ⟨processings, hprocessings, h⟩ := bind_ok.1 h
    obtain ⟨s, hs, h⟩ := bind_ok.1 h
    simp only [Management.make, bind_ok, within_ok] at h
    obtain ⟨e, he, h⟩ := h
    refine regular_made h (fun _ => rfl) (regular_addTo hs he ?_)
    refine (Regular.ddmsElement (by decide)).add ?_
    simp only [List.forall_mem_append]
    exact ⟨⟨⟨regular_option hrecords, regular_option hrevision⟩, regular_all htaskings⟩,
      regular_all hprocessings⟩

end Managements

section Protections

instance : Prefixed NoticeText.Draft NoticeText where
  regular := by
    intro ctx v d c h
    obtain ⟨s, hs, h⟩ := bind_ok.1 h
    simp only [NoticeText.make, Context.elementIn_ism, bind_ok, within_ok, Except.ok.injEq,
      exists_eq_left'] at h
    obtain ⟨e, he, h⟩ := h
    refine regular_made h (fun _ => rfl) (Regular.put (regular_addTo hs he ?_) ?_)
    · exact (Regular.bare (ctx.listed_ismName (by decide))).putText trivial
    · exact .listed (ctx.listed_ismName (by decide))

/-- The attributes of a notice are put under names of the security markings. -/
theorem NoticeAttributes.regular_addTo {n : NoticeAttributes} (h : n.addTo ctx v e = .ok e')
    (he : e.Regular AnyText (ctx.bindings v)) : e'.Regular AnyText (ctx.bindings v) := by
  have hnames : ∀ l ∈ names, IsName l := by decide
  rw [addTo_ok h]
  exact he.putAll fun p hp =>
    .listed (ctx.listed_ismName (hnames _ (names_pairs ▸ List.mem_map_of_mem hp)))

instance : Prefixed Notice.Draft Notice where
  regular := by
    intro ctx v d c h
    obtain ⟨notice, -, h⟩ := bind_ok.1 h
    obtain ⟨texts, htexts, h⟩ := bind_ok.1 h
    obtain ⟨s, hs, h⟩ := bind_ok.1 h
    simp only [Notice.make, Context.elementIn_ism, bind_ok, within_ok, Except.ok.injEq,
      exists_eq_left'] at h
    obtain ⟨e, ⟨e', he', he⟩, h⟩ := h
    refine regular_made h (fun _ => rfl)
      (NoticeAttributes.regular_addTo he (regular_addTo hs he' ?_))
    exact (Regular.bare (ctx.listed_ismName (by decide))).add (regular_all htexts)

instance : Prefixed NoticeList.Draft NoticeList where
  regular := by
    intro ctx v d c h
    obtain ⟨notices, hnotices, h⟩ := bind_ok.1 h
    obtain ⟨s, hs, h⟩ := bind_ok.1 h
    simp only [NoticeList.make, bind_ok, within_ok] at h
    obtain ⟨e, he, h⟩ := h
    refine regular_made h (fun _ => rfl) (regular_addTo hs he ?_)
    exact (Regular.ddmsElement (by decide)).add (regular_all hnotices)

instance : Prefixed Access.Draft Access := ⟨fun h => (Access.build_returns anyText h).regular⟩

instance : Prefixed AccessText.Draft AccessText :=
  ⟨fun h => (AccessText.build_returns anyText h).regular⟩

instance : Prefixed AccessEntity.Draft AccessEntity :=
  ⟨fun h => (AccessEntity.build_returns anyText h).regular⟩

instance : Prefixed ProfileList.Draft ProfileList :=
  ⟨fun h => (ProfileList.build_returns anyText h).regular⟩

instance : Prefixed Security.Draft Security where
  regular := by
    intro ctx v d c h
    obtain ⟨noticeList, hnotices, h⟩ := bind_ok.1 h
    obtain ⟨access, haccess, h⟩ := bind_ok.1 h
    obtain ⟨s, hs, h⟩ := bind_ok.1 h
    simp only [Security.make, bind_ok, within_ok] at h
    obtain ⟨e, he, h⟩ := h
    refine regular_made h (fun _ => rfl) (regular_addTo hs he (Regular.add ?_ ?_))
    · split
      · exact (Regular.ddmsElement (by decide)).setAttribute
          (.listed (ctx.listed_ismName (by decide)))
      · exact .ddmsElement (by decide)
    · exact List.forall_mem_append.2 ⟨regular_option hnotices, regular_option haccess⟩

end Protections

end DiscoveryMetadata
