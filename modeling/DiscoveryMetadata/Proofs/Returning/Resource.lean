import DiscoveryMetadata.Proofs.Output.Resource
import DiscoveryMetadata.Proofs.Reading.Resource
import DiscoveryMetadata.Proofs.Rebuilding.Resource
import DiscoveryMetadata.Proofs.Returning.Management
import DiscoveryMetadata.Proofs.Returning.Protection
import DiscoveryMetadata.Proofs.Returning.Spaces
/-
  Resources are read again from the documents that they are written as.

  Each component is read again from its own element (`TopLevel.Returned`), and the element of the
  resource holds those of the components in their order. So the resource is read again from its
  element (`Resource.build_returned`); that element is regular, hence it can be written, and what is
  read back from the document is the same up to declarations (`Xml.Element.ofXml_toXml`). These do
  not change what is read, and the main statement, `Resource.written_read`, follows.
-/
namespace DiscoveryMetadata

open Buildable
open Text (IsWord)
open Xml (Element IsName QName Tidy)
open Xml.Element (Regular)

variable {ctx : Context} {v : Version} {sd : SecurityAttributes.Draft}

section Header

namespace Markings

variable {m : Markings} {e e' : Element}

/-- The names of the markings of a resource. -/
def names : List String := ["resourceElement", "createDate", versionName]

/-- The element with the markings put on it. -/
def put (ctx : Context) (v : Version) (m : Markings) (e : Element) : Element :=
  (((e.put (ctx.ismName v "resourceElement") ((m.resourceElement.map Text.ofTruth).getD "")).put
    (ctx.ismName v "createDate") m.createDate).put (ctx.ismName v versionName)
    ((m.ismVersion.map toString).getD "")).put (ctx.ntkName versionName)
    ((m.ntkVersion.map toString).getD "")

/-- Without need-to-know rules, no version of their schema can be given. -/
theorem addTo_ok (h : m.addTo ctx v e = .ok e') :
    e' = m.put ctx v e ∧ (v.atLeast .v4_0_1 = false → m.ntkVersion = none) := by
  refine ⟨Context.putIn_ntk h, fun hv => ?_⟩
  cases hn : m.ntkVersion with
  | none => rfl
  | some n =>
    have hne : (toString n).isEmpty = false := by simpa using Text.intText_ne_empty n
    simp only [addTo, hn, Option.map_some, Option.getD_some, Context.putIn, hne, Bool.false_eq_true,
      if_false, Context.nameIn, Version.uriOf, hv, bind_ok, pure_ok] at h
    obtain ⟨q, ⟨u, hu, -⟩, -⟩ := h
    cases hu

theorem versionOf_eq {u : String} {n : Option Int} (h : ∀ x ∈ n, Text.fits 64 x = true)
    (he : e.attribute? (some u) versionName = n.map toString) : versionOf e u = .ok n := by
  unfold versionOf
  rw [he]
  cases n with
  | none => rfl
  | some n =>
    have htrim : Text.trim (toString n) = toString n :=
      Text.trim_of_no_space fun c hc => Text.isSpace_intText hc
    simp only [Option.map_some, Option.mapM_some, htrim, Text.int64?_intText (h n rfl)]
    rfl

/-- The whole numbers. -/
def integers (m : Markings) : List Int := m.ismVersion.toList ++ m.ntkVersion.toList

/-- Markings that were put on an element are read again from one that has the same attributes for
them. -/
theorem ofElement_eq (ctx : Context) (hn : ∀ n ∈ m.integers, Text.fits 64 n = true)
    (hv : v.atLeast .v4_0_1 = false → m.ntkVersion = none)
    (hnone : ∀ u l, e.attribute? u l = none)
    (hism : ∀ l ∈ names, e'.attribute? (some v.ismUri) l =
      (m.put ctx v e).attribute? (some v.ismUri) l)
    (hntk : e'.attribute? (some Version.ntkUri) versionName =
      (m.put ctx v e).attribute? (some Version.ntkUri) versionName) :
    ofElement v e' = .ok m := by
  simp only [integers, List.forall_mem_append, Option.mem_toList] at hn
  have hne : ∀ n : Int, n.repr ≠ "" := Text.intText_ne_empty
  have hversion : e'.attribute? (some v.ismUri) versionName = m.ismVersion.map toString := by
    rw [hism _ (by decide)]
    cases hm : m.ismVersion <;>
      simp [put, Element.attribute?_put, hm, hnone, hne, Context.ismName, versionName,
        v.ntkUri_ne_ismUri]
  have hdate : e'.attributeText v.ismUri "createDate" = m.createDate := by
    rw [Element.attributeText, hism _ (by decide)]
    simp [put, Element.attribute?_put, hnone, Context.ismName, versionName]
  have hflag : e'.attribute? (some v.ismUri) "resourceElement" =
      m.resourceElement.map Text.ofTruth := by
    rw [hism _ (by decide)]
    cases hm : m.resourceElement <;>
      simp [put, Element.attribute?_put, hm, hnone, Text.ofTruth_ne_empty, Context.ismName,
        versionName]
  have hrules : e'.attribute? (some Version.ntkUri) versionName = m.ntkVersion.map toString := by
    rw [hntk]
    cases hm : m.ntkVersion <;>
      simp [put, Element.attribute?_put, hm, hnone, hne, Context.ismName, v.ntkUri_ne_ismUri.symm]
  have hntkVersion : ntkVersionOf v e' = .ok m.ntkVersion := by
    unfold ntkVersionOf Version.uriOf
    by_cases h : v.atLeast .v4_0_1 = true
    · simp only [if_pos h]
      exact versionOf_eq hn.2 hrules
    · simp only [if_neg h, hv (by simpa using h)]
  simp only [ofElement, versionOf_eq hn.1 hversion, hntkVersion, hdate, flagOf, hflag, bind_ok,
    pure_ok]
  refine ⟨_, rfl, _, rfl, m.resourceElement, ?_, rfl⟩
  cases m.resourceElement <;> simp

/-- Markings are not in the way of the other attributes of their namespace. -/
theorem attribute?_put_other {l : String} (h : l ∉ names) :
    (m.put ctx v e).attribute? (some v.ismUri) l = e.attribute? (some v.ismUri) l := by
  simp only [names, List.mem_cons, List.not_mem_nil, or_false, not_or] at h
  obtain ⟨hflag, hdate, hversion⟩ := h
  simp [put, Element.attribute?_put, Context.ismName, Ne.symm hflag, Ne.symm hdate,
    Ne.symm hversion, v.ntkUri_ne_ismUri]

/-- What holds of the names of all attributes holds after putting markings of such names. -/
theorem forall_name_put {P : QName → Prop} (h : ∀ a ∈ e.attributes, P a.name)
    (hism : ∀ l ∈ names, P (ctx.ismName v l))
    (hntk : m.ntkVersion = none ∨ P (ctx.ntkName versionName)) :
    ∀ a ∈ (m.put ctx v e).attributes, P a.name := by
  have hmarked := Element.forall_name_put (x := (m.ismVersion.map toString).getD "")
    (Element.forall_name_put (x := m.createDate)
      (Element.forall_name_put (x := (m.resourceElement.map Text.ofTruth).getD "") h
        (hism "resourceElement" (by decide))) (hism "createDate" (by decide)))
    (hism versionName (by decide))
  rcases hntk with hnone | hntk
  · simpa [put, hnone, Element.put] using hmarked
  · exact Element.forall_name_put hmarked hntk

theorem regular_put {fit : String → Prop} (h : e.Regular fit (ctx.bindings v)) :
    (m.put ctx v e).Regular fit (ctx.bindings v) := by
  have hism : ∀ l ∈ names, (ctx.ismName v l).Usable (ctx.bindings v) := fun l hl =>
    .listed (ctx.listed_ismName ((by decide : ∀ l ∈ names, IsName l) l hl))
  exact (((h.put (hism _ (by decide))).put (hism _ (by decide))).put (hism _ (by decide))).put
    (.listed (.intro (by simp [Context.bindings]) (by decide)))

end Markings

/-- The element of a resource without its components. -/
def Resource.heading (ctx : Context) (v : Version) (m : Markings) (s : SecurityAttributes)
    (n : NoticeAttributes) : Element :=
  (SecurityAttributes.mark ctx v s.values
    (m.put ctx v (ctx.ddmsElement v (TopLevel.resourceName v)))).putAll (ctx.ismName v) n.pairs

end Header

section Components

namespace TopLevel

/-- The component of a resource is read again from its element, which can be written. -/
structure Returned (ctx : Context) (v : Version) (t : TopLevel) : Prop where
  again : ofElement ctx v t.base.element = .ok t
  regular : t.base.element.Regular Tidy (ctx.bindings v)
  fixed : t.IsFixed id

section Kinds

variable {δ α : Type} [Component α] [Buildable δ α] {read : Context → Version → Element → Outcome α}
  {wrap : α → TopLevel} {l : String}

/-- A component that is read again is so as one of a resource, if its name is that of its kind. -/
theorem returned (hbase : ∀ c, (wrap c).base = Component.base c)
    (hread : ∀ e : Element, e.localName = l → ofDdmsElement ctx v e = (read ctx v e).map wrap)
    (hfixed : ∀ c, (wrap c).IsFixed id) {c : α} (h : Returns Tidy read ctx v (ctx.ddmsName v l) c) :
    (wrap c).Returned ctx v := by
  obtain ⟨hname, hagain, hregular⟩ := h
  refine ⟨?_, hbase c ▸ hregular, hfixed c⟩
  have hddms : (Component.base c).element.name.uri == some v.ddmsUri := by simp [hname]
  have hlocal : (Component.base c).element.localName = l := by rw [Element.localName, hname]; rfl
  rw [ofElement, hbase, if_pos hddms, hread _ hlocal, hagain]
  rfl

/-- So are the components that drafts of one kind lead to. -/
theorem returned_made {ds : List δ} {cs : List α} (hbase : ∀ c, (wrap c).base = Component.base c)
    (hread : ∀ e : Element, e.localName = l → ofDdmsElement ctx v e = (read ctx v e).map wrap)
    (hfixed : ∀ c, (wrap c).IsFixed id)
    (hb : ∀ d ∈ ds, ∀ c, build ctx v d = .ok c → Returns Tidy read ctx v (ctx.ddmsName v l) c)
    (h : commitAll ctx v ds = .ok cs) : ∀ t ∈ cs.map wrap, t.Returned ctx v :=
  List.forall_mem_map.2 fun c hc => returned hbase hread hfixed (commitAll_all hb h c hc)

theorem returned_one {d : δ} {o : Option α} (hbase : ∀ c, (wrap c).base = Component.base c)
    (hread : ∀ e : Element, e.localName = l → ofDdmsElement ctx v e = (read ctx v e).map wrap)
    (hfixed : ∀ c, (wrap c).IsFixed id)
    (hb : ∀ c, build ctx v d = .ok c → Returns Tidy read ctx v (ctx.ddmsName v l) c)
    (h : commitAs ctx v d = .ok o) : ∀ t ∈ o.toList.map wrap, t.Returned ctx v :=
  List.forall_mem_map.2 fun c hc =>
    returned hbase hread hfixed (commitAs_all hb h c (Option.mem_toList.1 hc))

end Kinds

theorem isFixed_subject (c : SubjectCoverage) : (TopLevel.subject c).IsFixed id :=
  ⟨fun k _ => k.extensible.restyle_id, fun k _ => k.extensible.restyle_id⟩

/-- Only extensible elements are not the same without their declarations. -/
theorem isFixed_restyle {t : TopLevel} : (t.restyle id).IsFixed id ↔ t.IsFixed id := by
  cases t with
  | subject c => exact iff_of_true (isFixed_subject _) (isFixed_subject c)
  | _ => exact Iff.rfl

variable {e : Element}

theorem ofDdmsElement_caption {kind : Caption.Kind} (h : e.localName = kind.name) :
    ofDdmsElement ctx v e = (Caption.ofElement ctx v e).map caption := by
  have hname : kind.name ≠ RelatedResource.name v ∧
      (Caption.Kind.ofName? kind.name).isSome = true := by cases kind <;> cases v <;> decide
  obtain ⟨hrelated, hkind⟩ := hname
  cases kind <;> simp only [Caption.Kind.name] at h hrelated hkind <;>
    simp [ofDdmsElement, h, hrelated, hkind]

theorem ofDdmsElement_producer {kind : ProducerRole.Kind} (h : e.localName = kind.name) :
    ofDdmsElement ctx v e = (ProducerRole.ofElement ctx v e).map producer := by
  have hname : kind.name ≠ RelatedResource.name v ∧ Caption.Kind.ofName? kind.name = none ∧
      (ProducerRole.Kind.ofName? kind.name).isSome = true := by
    cases kind <;> cases v <;> decide
  obtain ⟨hrelated, hcaption, hkind⟩ := hname
  cases kind <;> simp only [ProducerRole.Kind.name] at h hrelated hcaption hkind <;>
    simp [ofDdmsElement, h, hrelated, hcaption, hkind]

theorem ofDdmsElement_related (h : e.localName = RelatedResource.name v) :
    ofDdmsElement ctx v e = (RelatedResource.ofElement ctx v e).map related := by
  have hname : RelatedResource.name v = "relatedResource" ∨
      RelatedResource.name v = "relatedResources" := by cases v <;> decide
  rcases hname with hn | hn <;> rw [hn] at h <;> simp [ofDdmsElement, h, hn]

theorem ofDdmsElement_management (hv : v.atLeast .v4_0_1 = true)
    (h : e.localName = "resourceManagement") :
    ofDdmsElement ctx v e = (Management.ofElement ctx v e).map management := by
  simp [ofDdmsElement, h, hv]

/-- What is read again as a management is one of a version that has it. -/
theorem version_management {c : Management} (h : Management.ofElement ctx v e = .ok c) :
    v.atLeast .v4_0_1 = true := by
  simp only [Management.ofElement, bind_ok, within_ok, pure_ok] at h
  obtain ⟨_, ⟨_, -, _, -, _, -, _, -, _, -, rfl⟩, h⟩ := h
  simp only [Management.checked, Management.rules, bind_ok, check_ok, exists_unit, requireVersion,
    demand_ok] at h
  exact h.1.2.2.2.2

/-- The captions of one kind. -/
theorem returned_captions {kind : Caption.Kind} {ds : List Caption.Draft} {cs : List Caption}
    (ht : ∀ d ∈ ds, ∀ t ∈ d.texts, Tidy t)
    (h : commitAll ctx v (ds.map fun c => { c with kind }) = .ok cs) :
    ∀ t ∈ cs.map caption, t.Returned ctx v :=
  returned_made (fun _ => rfl) (fun _ => ofDdmsElement_caption) (fun _ => trivial)
    (List.forall_mem_map.2 fun d hd _ => Caption.build_returns (d := { d with kind }) (ht d hd)) h

/-- The producers in one role. -/
theorem returned_producers {kind : ProducerRole.Kind} {ds : List ProducerRole.Draft}
    {cs : List ProducerRole} (ht : ∀ d ∈ ds, ∀ t ∈ d.texts, Tidy t)
    (hi : ∀ d ∈ ds, ∀ t ∈ d.items, IsWord t)
    (h : commitAll ctx v (ds.map fun c => { c with kind }) = .ok cs) :
    ∀ t ∈ cs.map producer, t.Returned ctx v :=
  returned_made (fun _ => rfl) (fun _ => ofDdmsElement_producer) (fun _ => trivial)
    (List.forall_mem_map.2 fun d hd _ =>
      ProducerRole.build_returns (d := { d with kind }) (ht d hd) (hi d hd)) h

theorem readAll_returned {ts : List TopLevel} (h : ∀ t ∈ ts, t.Returned ctx v) :
    readAll ofElement ctx v (ts.map (·.base.element)) = .ok ts := by
  refine readAll_ok.2 ?_
  induction ts with
  | nil => exact .nil
  | cons t r ih =>
    obtain ⟨ht, hr⟩ := List.forall_mem_cons.1 h
    exact .cons ht.again (ih hr)

end TopLevel

end Components

namespace Resource

namespace Draft

/-- The captions, of all kinds. -/
def captions (d : Draft) : List Caption.Draft := d.titles ++ d.subtitles ++ [d.description]

/-- The producers, in all roles. -/
def producers (d : Draft) : List ProducerRole.Draft :=
  d.creators ++ d.publishers ++ d.contributors ++ d.pointsOfContact

/-- The texts of elements. -/
def texts (d : Draft) : List String :=
  d.captions.flatMap (·.texts) ++ d.dates.texts ++ d.types.flatMap (·.texts) ++
    d.producers.flatMap (·.texts) ++ d.format.texts ++ d.subjectCoverages.flatMap (·.texts) ++
    d.temporalCoverages.flatMap (·.texts) ++ d.geospatialCoverages.flatMap (·.texts) ++
    d.management.texts ++ d.securityComponent.texts

/-- The items of lists. -/
def items (d : Draft) : List String := d.producers.flatMap (·.items) ++ d.securityComponent.items

/-- The whole numbers. -/
def integers (d : Draft) : List Int :=
  d.markings.integers ++ d.subjectCoverages.flatMap (·.integers) ++
    d.geospatialCoverages.flatMap (·.integers) ++ d.management.integers

/-- The reference systems. -/
def systems (d : Draft) : List SrsAttributes := d.geospatialCoverages.flatMap (·.systems)

/-- What the draft holds is read again as it was written: texts without white space at the ends,
lists of words, dates with the names of their elements, numbers that fit or are faithful, and sound
reference systems, and nothing from outside the schemas. -/
structure Readable (d : Draft) : Prop where
  texts : ∀ t ∈ d.texts, Tidy t
  items : ∀ t ∈ d.items, IsWord t
  acquiredOns : ∀ a ∈ d.dates.acquiredOns, a.name = "acquiredOn"
  bounds : ∀ t ∈ d.temporalCoverages, t.Slotted
  integers : ∀ n ∈ d.integers, Text.fits 64 n = true
  numbers : ∀ x ∈ d.numbers, x.Faithful
  systems : ∀ a ∈ d.systems, a.Sound
  attributes : d.extensible = []
  elements : allEmpty d.extensibleElements = true

end Draft

open TopLevel in
/-- Every component that a readable draft leads to is read again. -/
theorem Parts.MadeOf.returned {d : Draft} {p : Parts} (h : p.MadeOf ctx v d) (hd : d.Readable) :
    ∀ t ∈ p.groups.flatten, t.Returned ctx v := by
  obtain ⟨ht, hi, hacquired, hbounds, hn, hx, ha, -, helements⟩ := hd
  simp only [Draft.texts, Draft.captions, Draft.producers, Draft.items, Draft.integers, Draft.systems,
    Draft.numbers, List.forall_mem_append, List.forall_mem_flatMap, List.forall_mem_singleton]
    at ht hi hn ha hx
  obtain ⟨⟨⟨⟨⟨⟨⟨⟨⟨⟨⟨htitles, hsubtitles⟩, hdescription⟩, hdates⟩, htypes⟩, ⟨⟨hcreators, hpublishers⟩,
    hcontributors⟩, hcontacts⟩, hformat⟩, hsubjects⟩, htemporals⟩, hgeospatials⟩, hmanagement⟩,
    hsecurity⟩ := ht
  obtain ⟨⟨⟨⟨icreators, ipublishers⟩, icontributors⟩, icontacts⟩, isecurity⟩ := hi
  obtain ⟨⟨⟨-, nsubjects⟩, ngeospatials⟩, nmanagement⟩ := hn
  simp only [Parts.groups, List.flatten_cons, List.flatten_nil, List.append_nil,
    List.forall_mem_append]
  refine ⟨?identifiers, returned_captions htitles h.titles,
    returned_captions hsubtitles h.subtitles, ?description, ?languages, ?dates, ?rights, ?sources,
    ?types, returned_producers hcreators icreators h.creators,
    returned_producers hpublishers ipublishers h.publishers,
    returned_producers hcontributors icontributors h.contributors,
    returned_producers hcontacts icontacts h.pointsOfContact, ?format, ?subjects, ?virtuals,
    ?temporals, ?geospatials, ?related, ?management, ?security, ?extensible⟩
  case identifiers =>
    exact returned_made (fun _ => rfl) (fun e he => by simp [ofDdmsElement, he]) (fun _ => trivial)
      (fun _ _ _ => Identifier.build_returns) h.identifiers
  case description =>
    exact returned_one (fun _ => rfl)
      (fun e he => ofDdmsElement_caption (show e.localName = Caption.Kind.description.name from he))
      (fun _ => trivial)
      (fun _ => Caption.build_returns (d := { d.description with kind := .description }) hdescription)
      h.description
  case languages =>
    exact returned_made (fun _ => rfl) (fun e he => by simp [ofDdmsElement, he]) (fun _ => trivial)
      (fun _ _ _ => Language.build_returns) h.languages
  case dates =>
    exact returned_one (fun _ => rfl) (fun e he => by simp [ofDdmsElement, he]) (fun _ => trivial)
      (fun _ => Dates.build_returns hacquired hdates) h.dates
  case rights =>
    exact returned_one (fun _ => rfl) (fun e he => by simp [ofDdmsElement, he]) (fun _ => trivial)
      (fun _ => Rights.build_returns) h.rights
  case sources =>
    exact returned_made (fun _ => rfl) (fun e he => by simp [ofDdmsElement, he]) (fun _ => trivial)
      (fun _ _ _ => Source.build_returns) h.sources
  case types =>
    exact returned_made (fun _ => rfl) (fun e he => by simp [ofDdmsElement, he]) (fun _ => trivial)
      (fun d hd _ => ResourceType.build_returns (htypes d hd)) h.types
  case format =>
    exact returned_one (fun _ => rfl) (fun e he => by simp [ofDdmsElement, he]) (fun _ => trivial)
      (fun _ => Format.build_returns hformat) h.format
  case subjects =>
    exact returned_made (fun _ => rfl) (fun e he => by simp [ofDdmsElement, he]) isFixed_subject
      (fun d hd _ => SubjectCoverage.build_returns (hsubjects d hd) (nsubjects d hd))
      h.subjectCoverages
  case virtuals =>
    exact returned_made (fun _ => rfl) (fun e he => by simp [ofDdmsElement, he]) (fun _ => trivial)
      (fun _ _ _ => VirtualCoverage.build_returns) h.virtualCoverages
  case temporals =>
    exact returned_made (fun _ => rfl) (fun e he => by simp [ofDdmsElement, he]) (fun _ => trivial)
      (fun d hd _ => TemporalCoverage.build_returns (hbounds d hd) (htemporals d hd))
      h.temporalCoverages
  case geospatials =>
    exact returned_made (fun _ => rfl) (fun e he => by simp [ofDdmsElement, he]) (fun _ => trivial)
      (fun d hd _ => GeospatialCoverage.build_returns (hgeospatials d hd) (ngeospatials d hd)
        (hx d hd) (ha d hd)) h.geospatialCoverages
  case related =>
    exact returned_made (fun _ => rfl) (fun _ => ofDdmsElement_related) (fun _ => trivial)
      (fun _ _ _ => RelatedResource.build_returns) h.relatedResources
  case management =>
    -- the name belongs to a component from version 4.0.1 on, and only then is a management made
    have hreturns := commitAs_all (fun _ =>
      Management.build_returns (by decide) hmanagement nmanagement)
      h.management
    refine List.forall_mem_map.2 fun c hc => ?_
    have hc := hreturns c (Option.mem_toList.1 hc)
    exact TopLevel.returned (fun _ => rfl)
      (fun _ => ofDdmsElement_management (version_management hc.again)) (fun _ => trivial) hc
  case security =>
    exact returned_one (fun _ => rfl) (fun e he => by simp [ofDdmsElement, he, Security.name])
      (fun _ => trivial)
      (fun _ hc => Security.build_returns hsecurity (Security.isWord_of_items isecurity hc) hc)
      h.securityComponent
  case extensible =>
    rw [allEmpty_eq h.extensibleElements, List.isEmpty_iff] at helements
    simp [helements]

section Heading

variable {m : Markings} {s : SecurityAttributes} {n : NoticeAttributes} {ts : List TopLevel}
  {r : Resource}

/-- No name is that of attributes of two groups. -/
theorem markings_apart : ∀ l ∈ Markings.names,
    l ∉ SecurityAttributes.names ∧ l ∉ NoticeAttributes.names := by decide

theorem notice_apart : ∀ l ∈ NoticeAttributes.names,
    l ∉ SecurityAttributes.names ∧ l ∉ Markings.names := by decide

theorem security_apart : ∀ l ∈ SecurityAttributes.names,
    l ∉ NoticeAttributes.names ∧ l ∉ Markings.names := by decide

theorem markings_heading (hs : s.Accepted ctx v)
    (hm : ∀ i ∈ m.integers, Text.fits 64 i = true)
    (hv : v.atLeast .v4_0_1 = false → m.ntkVersion = none) :
    Markings.ofElement v (heading ctx v m s n) = .ok m := by
  have hnone : ∀ u l, (ctx.ddmsElement v (TopLevel.resourceName v)).attribute? u l = none :=
    ctx.attribute?_ddmsElement v _
  refine Markings.ofElement_eq ctx hm hv hnone (fun l hl => ?_) ?_
  · obtain ⟨hsecurity, hnotice⟩ := markings_apart l hl
    rw [heading, NoticeAttributes.attribute?_putAll_other hnotice,
      hs.attribute?_mark hsecurity]
  · have hne : some v.ismUri ≠ some Version.ntkUri := by simp [v.ntkUri_ne_ismUri.symm]
    rw [heading, Element.attribute?_putAll_of_ne fun _ => hne,
      SecurityAttributes.attribute?_mark hne.symm]

theorem security_heading (hs : s.Accepted ctx v) :
    SecurityAttributes.ofElement ctx v (heading ctx v m s n) = .ok s := by
  rw [← hs.ofElement_mark fun l hl =>
    (Markings.attribute?_put_other (m := m) (security_apart l hl).2).trans
      (ctx.attribute?_ddmsElement (v := v) (l := TopLevel.resourceName v) _ _)]
  exact SecurityAttributes.ofElement_same fun l hl =>
    NoticeAttributes.attribute?_putAll_other (security_apart l hl).1

theorem notice_heading {n' : NoticeAttributes} (hs : s.Accepted ctx v)
    (hn : NoticeAttributes.ofValues ctx v n.noticeType n.noticeReason n.noticeDate
      n.unregisteredNoticeType n.externalNotice = .ok n') :
    NoticeAttributes.ofElement ctx v (heading ctx v m s n) = .ok n' := by
  refine (NoticeAttributes.ofElement_putAll fun l hl => ?_).trans hn
  obtain ⟨hsecurity, hmarkings⟩ := notice_apart l hl
  rw [hs.attribute?_mark hsecurity, Markings.attribute?_put_other hmarkings,
    Context.attribute?_ddmsElement]

/-- All the attributes of a heading are those of the schemas. -/
theorem inside_heading (hs : s.Accepted ctx v)
    (hv : v.atLeast .v4_0_1 = false → m.ntkVersion = none) :
    ∀ a ∈ (heading ctx v m s n).attributes,
      ExtensibleAttributes.isOutside v ⟨a.name, ""⟩ = false := by
  let Inside := fun q : QName => ExtensibleAttributes.isOutside v ⟨q, ""⟩ = false
  have hism : ∀ l, l ∈ ExtensibleAttributes.ismNames → Inside (ctx.ismName v l) := fun l hl => by
    simp [Inside, ExtensibleAttributes.isOutside, ExtensibleAttributes.isReserved,
      Context.ismName, hl]
  have hmarkings : ∀ l ∈ Markings.names, l ∈ ExtensibleAttributes.ismNames := by decide
  have hnotices : ∀ l ∈ NoticeAttributes.names, l ∈ ExtensibleAttributes.ismNames := by decide
  refine Element.forall_name_putAll (P := Inside)
    (SecurityAttributes.forall_name_mark (P := Inside) (Markings.forall_name_put (P := Inside)
      (by simp) (fun l hl => hism l (hmarkings l hl)) ?_) fun p hp => ?_) fun p hp => ?_
  · by_cases h : v.atLeast .v4_0_1 = true
    · right
      simp [Inside, ExtensibleAttributes.isOutside, ExtensibleAttributes.isReserved,
        Context.ntkName, h, v.ntkUri_ne_ismUri, Markings.versionName]
    · exact .inl (hv (by simpa using h))
  · exact ExtensibleAttributes.isOutside_security (hs.name_of_mem p hp)
  · exact hism p.1 (hnotices _ (NoticeAttributes.names_pairs ▸ List.mem_map_of_mem hp))

theorem extensible_heading (hs : s.Accepted ctx v)
    (hv : v.atLeast .v4_0_1 = false → m.ntkVersion = none) :
    ExtensibleAttributes.ofElement v (heading ctx v m s n) = .empty v :=
  ExtensibleAttributes.ofElement_eq_empty (inside_heading hs hv)

theorem regular_heading {fit : String → Prop} (hs : sd.commitAs ctx v = .ok s) :
    (heading ctx v m s n).Regular fit (ctx.bindings v) := by
  have hname : IsName (TopLevel.resourceName v) := by cases v <;> decide
  have hnotices : ∀ l ∈ NoticeAttributes.names, IsName l := by decide
  refine ((Markings.regular_put (Regular.ddmsElement hname)).mark hs).putAll fun p hp =>
    .listed (ctx.listed_ismName (hnotices _ (NoticeAttributes.names_pairs ▸ List.mem_map_of_mem hp)))

/-- A resource is made by putting the attributes from outside the schemas on the heading, and then
the elements of the components, in order, below it. -/
theorem make_heading {x : ExtensibleAttributes} (h : make ctx v ts m s n x = .ok r) :
    ∃ e, x.addTo v (heading ctx v m s n) = .ok e ∧
      r.element = e.add ((TopLevel.inOrder ts).map (·.base.element)) ∧
      checked ⟨⟨r.element, v, []⟩, TopLevel.inOrder ts, m, s, n, x⟩ = .ok r ∧
      s.version = v ∧ (v.atLeast .v4_0_1 = false → m.ntkVersion = none) := by
  simp only [make, bind_ok, within_ok] at h
  obtain ⟨e, ⟨e₁, h₁, e₂, h₂, e₃, h₃, h₄⟩, h⟩ := h
  obtain ⟨rfl, hv⟩ := Markings.addTo_ok h₁
  obtain ⟨hversion, rfl⟩ := SecurityAttributes.addTo_ok.1 h₂
  obtain rfl := NoticeAttributes.addTo_ok h₃
  have hmade := h
  simp only [checked, bind_ok, check_ok, exists_unit, pure_ok] at h
  obtain ⟨-, rfl⟩ := h
  exact ⟨e, h₄, rfl, hmade, hversion, hv⟩

theorem make_ok (h : make ctx v ts m s n (.empty v) = .ok r) :
    r.element = (heading ctx v m s n).add ((TopLevel.inOrder ts).map (·.base.element)) ∧
      checked ⟨⟨r.element, v, []⟩, TopLevel.inOrder ts, m, s, n, .empty v⟩ = .ok r ∧
      s.version = v ∧ (v.atLeast .v4_0_1 = false → m.ntkVersion = none) := by
  obtain ⟨e, he, hmade⟩ := make_heading h
  obtain rfl : heading ctx v m s n = e := Except.ok.inj he
  exact hmade

/-- A resource made of components that are read again is read again from its element, and that
element can be written. -/
theorem make_returned (hs : sd.commitAs ctx v = .ok s)
    (hn : NoticeAttributes.ofValues ctx v n.noticeType n.noticeReason n.noticeDate
      n.unregisteredNoticeType n.externalNotice = .ok n)
    (hm : ∀ i ∈ m.integers, Text.fits 64 i = true) (hts : TopLevel.Sorted ts)
    (hagain : ∀ t ∈ ts, t.Returned ctx v) (h : make ctx v ts m s n (.empty v) = .ok r) :
    ofElement ctx v r.element = .ok r ∧ r.element.Regular Tidy (ctx.bindings v) := by
  obtain ⟨helement, hmade, -, hv⟩ := make_ok h
  have haccepted := SecurityAttributes.accepted_of_commitAs hs
  rw [TopLevel.inOrder_of_sorted hts] at helement
  have hchildren : readAll TopLevel.ofElement ctx v r.element.children = .ok ts := by
    have hempty : (heading ctx v m s n).children = [] := by simp [heading, Markings.put]
    rw [helement, Element.children_add, hempty, List.nil_append]
    exact TopLevel.readAll_returned hagain
  have hmarkings : Markings.ofElement v r.element = .ok m := by
    rw [helement]
    exact markings_heading haccepted hm hv
  have hsecurity : SecurityAttributes.ofElement ctx v r.element = .ok s := by
    rw [helement]
    exact security_heading haccepted
  have hnotice : NoticeAttributes.ofElement ctx v r.element = .ok n := by
    rw [helement]
    exact notice_heading haccepted hn
  have hextensible : ExtensibleAttributes.ofElement v r.element = .empty v := by
    rw [helement]
    exact extensible_heading haccepted hv
  constructor
  · simp only [ofElement, hmarkings, hchildren, hsecurity, hnotice, hextensible]
    exact hmade
  · rw [helement]
    exact (regular_heading hs).add (List.forall_mem_map.2 fun t ht => (hagain t ht).regular)

end Heading

theorem build_markings {d : Draft} {r : Resource} (h : build ctx v d = .ok r) :
    r.markings = d.markings := by
  simp only [build, bind_ok] at h
  obtain ⟨ts, -, n, -, x, -, s, -, h⟩ := h
  exact (make_keeps h).2.2.1

/-- What is the same as a fixed resource, declarations aside, is fixed. -/
theorem IsFixed.of_restyle {r r' : Resource} (h : r.IsFixed id) (hr : r'.restyle id = r.restyle id) :
    r'.IsFixed id := by
  refine ⟨fun t' ht' => ?_, r'.extensible.restyle_id⟩
  have hcomponents : r'.components.map (·.restyle id) = r.components.map (·.restyle id) :=
    congrArg Resource.components hr
  obtain ⟨t, ht, htt⟩ := List.mem_map.1 (hcomponents ▸ List.mem_map_of_mem ht')
  rw [← TopLevel.isFixed_restyle, ← htt, TopLevel.isFixed_restyle]
  exact h.components t ht

/-- What a readable draft leads to is read again from its element, which can be written. -/
theorem build_returned {d : Draft} {r : Resource} (hd : d.Readable) (h : build ctx v d = .ok r) :
    ofElement ctx v r.element = .ok r ∧ r.element.Regular Tidy (ctx.bindings v) ∧ r.IsFixed id := by
  obtain ⟨p, hp, hnotice, hextensible, hs, hmake⟩ := build_ok h
  obtain ⟨-, hcomponents, -⟩ := components_eq hp.kinded hmake
  have hempty : r.extensible = .empty v := by
    rw [hd.attributes] at hextensible
    exact (Except.ok.inj hextensible).symm
  have hm : ∀ i ∈ r.markings.integers, Text.fits 64 i = true := fun i hi => by
    refine hd.integers i ?_
    simp only [Draft.integers, List.mem_append]
    exact .inl (.inl (.inl (build_markings h ▸ hi)))
  have hparts := hp.returned hd
  rw [hempty] at hmake
  obtain ⟨hagain, hregular⟩ := make_returned hs (NoticeAttributes.ofValues_toDraft hnotice) hm
    hp.kinded.ranked.sorted hparts hmake
  refine ⟨hagain, hregular, fun t ht => ?_, ?_⟩
  · exact (hparts t (hcomponents ▸ ht)).fixed
  · exact r.extensible.restyle_id

/-- A resource that is made of a readable draft is read again from the document that it is written
as: the same resource, and with the same lines. -/
theorem written_read (ctx : Context) (v : Version) (d : Draft) (r : Resource)
    (hprefixes : ctx.prefixes = {}) (hd : d.Readable) (h : commitAs ctx v d = .ok (some r)) :
    ∃ e r', Element.ofXml (Component.toXml r) = .ok e ∧ ofElement ctx v e = .ok r' ∧
      (r' == r) = true ∧ Component.toText r' = Component.toText r := by
  have hbuild := (commitAs_some.1 h).2
  obtain ⟨hagain, hregular, hfixed⟩ := build_returned hd hbuild
  obtain ⟨e, he, hstyle⟩ := Element.ofXml_toXml
    (hregular.writable (Context.bindings_distinct hprefixes))
  have halike : Alike (restyle id) (ofElement ctx v r.element) (ofElement ctx v e) :=
    ofElement_alike hstyle.symm
  obtain ⟨r', hr', hsame⟩ := halike.exists_ok hagain
  refine ⟨e, r', he, hr', ?_, ?_⟩
  · rw [← beq_restyle (hfixed.of_restyle hsame) hfixed, hsame, beq_restyle hfixed hfixed]
    exact beq_self fun t ht x hx => (hd.numbers x (numbers_components hd.numbers hbuild t ht x hx)).1
  · rw [Component.toText_eq, Component.toText_eq, ← lines_restyle_id, hsame, lines_restyle_id]

/-- A resource of version 4.1 with a title that has to be escaped, about a time and a space. -/
def described : Draft := { located with
  titles := [{ value := "Signs < & >", security := { values := [("classification", "U"),
    ("ownerProducer", "USA")] } }]
  publishers := [{ organization := { contact := { names := ["Office"] }, acronym := "O" }
                   pocTypes := ["ICD-710"]
                   security := { values := [("classification", "U"), ("ownerProducer", "USA")] } }]
  dates := { acquiredOns := [{ description := "about then", date := "2011-01" }] }
  temporalCoverages :=
    [{ endText := "2012"
       approximableStart := { name := "approximableStart", date := "2010" } }] }

theorem written_read_described :
    ∃ r e r', commitAs {} .v4_1 described = .ok (some r) ∧ Element.ofXml (Component.toXml r) = .ok e ∧
      ofElement {} .v4_1 e = .ok r' ∧ (r' == r) = true ∧ Component.toText r' = Component.toText r := by
  have hmade : (commitAs {} .v4_1 described).toOption.map (Option.isSome) = some true := by
    decide +kernel
  obtain ⟨o, ho, hr⟩ := Option.map_eq_some_iff.1 hmade
  obtain ⟨r, rfl⟩ := Option.isSome_iff_exists.1 hr
  have hcommit := toOption_ok.1 ho
  have hreadable : described.Readable :=
    { texts := by decide +kernel
      items := by decide +kernel
      acquiredOns := by decide +kernel
      bounds := by decide +kernel
      integers := by decide +kernel
      numbers := by decide +kernel
      systems := nofun
      attributes := rfl
      elements := rfl }
  obtain ⟨e, r', hread⟩ := written_read {} .v4_1 described r rfl hreadable hcommit
  exact ⟨r, e, r', hcommit, hread⟩

end Resource

end DiscoveryMetadata
