import DiscoveryMetadata.Proofs.Naming.Resource
import DiscoveryMetadata.Proofs.Session
/-
  Components under a configuration.

  A configuration is accepted if each of its prefixes is a name, whichever they are together. Where
  they differ from one another and none of them is reserved by XML (`Prefixes.Apart`), the prefixes
  of the context that the configuration leads to make a table in which each has one meaning
  (`Context.bindings_distinct_of_apart`). The elements of all components that have no extensible
  content are regular for that table, whatever their kind (`AnyDraft.regular`). So each of them is
  read back from its text with the names that it has: `Configuration.readable_of_apart`.

  The check does not ask for as much. It accepts one prefix for two schemas, and the prefixes `xml`
  and `xmlns`, and then there are components that are not read back
  (`Configuration.not_readable_of_clash`).
-/
namespace DiscoveryMetadata

open Xml (Element isXmlName_of_isNCName)
open Xml.Element (Regular)

section Prefixes

/-- The prefixes differ from one another, and none is reserved by XML. -/
structure Prefixes.Apart (p : Prefixes) : Prop where
  nodup : (Schema.all.map p.of).Nodup
  notXml : "xml" ∉ Schema.all.map p.of
  notXmlns : "xmlns" ∉ Schema.all.map p.of

instance (p : Prefixes) : Decidable p.Apart :=
  decidable_of_iff ((Schema.all.map p.of).Nodup ∧ "xml" ∉ Schema.all.map p.of ∧
      "xmlns" ∉ Schema.all.map p.of)
    ⟨fun ⟨h₁, h₂, h₃⟩ => ⟨h₁, h₂, h₃⟩, fun h => ⟨h.nodup, h.notXml, h.notXmlns⟩⟩

variable {c : Configuration} {v : Version}

/-- Each prefix of a configuration that is accepted is a name. -/
theorem Configuration.isNCName_of_check (h : c.check = .ok v) :
    ∀ p ∈ Schema.all.map c.prefixes.of, Text.isNCName p = true := by
  simp only [check, bind_ok, forM_ok, demand_ok] at h
  obtain ⟨-, -, -, hnames, -⟩ := h
  exact List.forall_mem_map.2 hnames

/-- In the context of a configuration that is accepted every prefix has one meaning, if the prefixes
are apart. -/
theorem Context.bindings_distinct_of_apart {ctx : Context} {v₀ : Version} (h : c.check = .ok v₀)
    (hctx : ctx.prefixes = c.prefixes) (hapart : c.prefixes.Apart) :
    Xml.Distinct (ctx.bindings v) := by
  have hfst : (ctx.bindings v).map Prod.fst = Schema.all.map c.prefixes.of := by
    rw [← hctx]
    rfl
  have hmem : ∀ b ∈ ctx.bindings v, b.1 ∈ Schema.all.map c.prefixes.of := fun b hb =>
    hfst ▸ List.mem_map_of_mem hb
  constructor
  case names =>
    intro b hb
    have hname := Configuration.isNCName_of_check h b.1 (hmem b hb)
    exact .of_xmlName (isXmlName_of_isNCName hname) fun hx => hapart.notXmlns (hx ▸ hmem b hb)
  case free => exact fun b hb hx => hapart.notXml (hx ▸ hmem b hb)
  case nodup => exact hfst ▸ hapart.nodup

end Prefixes

/-- The drafts of all kinds of components. -/
inductive AnyDraft where
  | access (d : Access.Draft)
  | accessEntity (d : AccessEntity.Draft)
  | accessText (d : AccessText.Draft)
  | approximableDate (d : ApproximableDate.Draft)
  | areaCode (d : AreaCode.Draft)
  | boundingBox (d : BoundingBox.Draft)
  | boundingGeometry (d : BoundingGeometry.Draft)
  | caption (d : Caption.Draft)
  | category (d : Category.Draft)
  | dates (d : Dates.Draft)
  | extensibleElement (d : ExtensibleElement.Draft)
  | extent (d : Extent.Draft)
  | facilityIdentifier (d : FacilityIdentifier.Draft)
  | format (d : Format.Draft)
  | geographicIdentifier (d : GeographicIdentifier.Draft)
  | geospatialCoverage (d : GeospatialCoverage.Draft)
  | identifier (d : Identifier.Draft)
  | keyword (d : Keyword.Draft)
  | language (d : Language.Draft)
  | link (d : Link.Draft)
  | managedText (d : ManagedText.Draft)
  | management (d : Management.Draft)
  | namedEntity (d : NamedEntity.Draft)
  | nonStateActor (d : NonStateActor.Draft)
  | notice (d : Notice.Draft)
  | noticeList (d : NoticeList.Draft)
  | noticeText (d : NoticeText.Draft)
  | organization (d : Organization.Draft)
  | person (d : Person.Draft)
  | point (d : Point.Draft)
  | polygon (d : Polygon.Draft)
  | position (d : Position.Draft)
  | postalAddress (d : PostalAddress.Draft)
  | processingInfo (d : ProcessingInfo.Draft)
  | producerRole (d : ProducerRole.Draft)
  | productionMetric (d : ProductionMetric.Draft)
  | profileList (d : ProfileList.Draft)
  | recordKeeper (d : RecordKeeper.Draft)
  | recordsInfo (d : RecordsInfo.Draft)
  | relatedResource (d : RelatedResource.Draft)
  | resource (d : Resource.Draft)
  | resourceType (d : ResourceType.Draft)
  | revisionRecall (d : RevisionRecall.Draft)
  | rights (d : Rights.Draft)
  | security (d : Security.Draft)
  | source (d : Source.Draft)
  | subOrganization (d : SubOrganization.Draft)
  | subjectCoverage (d : SubjectCoverage.Draft)
  | taskId (d : TaskId.Draft)
  | taskingInfo (d : TaskingInfo.Draft)
  | taskingRole (d : TaskingRole.Draft)
  | temporalCoverage (d : TemporalCoverage.Draft)
  | verticalExtent (d : VerticalExtent.Draft)
  | virtualCoverage (d : VirtualCoverage.Draft)

namespace AnyDraft

/-- What a draft of one kind leads to, of which is kept what every component has. -/
def buildBase {δ α : Type} [Component α] [Buildable δ α] (ctx : Context) (v : Version) (d : δ) :
    Outcome Base := (Buildable.build ctx v d).map Component.base

/-- Makes the component, of which is kept what every component has. -/
def build (ctx : Context) (v : Version) : AnyDraft → Outcome Base
  | access d => buildBase ctx v d
  | accessEntity d => buildBase ctx v d
  | accessText d => buildBase ctx v d
  | approximableDate d => buildBase ctx v d
  | areaCode d => buildBase ctx v d
  | boundingBox d => buildBase ctx v d
  | boundingGeometry d => buildBase ctx v d
  | caption d => buildBase ctx v d
  | category d => buildBase ctx v d
  | dates d => buildBase ctx v d
  | extensibleElement d => buildBase ctx v d
  | extent d => buildBase ctx v d
  | facilityIdentifier d => buildBase ctx v d
  | format d => buildBase ctx v d
  | geographicIdentifier d => buildBase ctx v d
  | geospatialCoverage d => buildBase ctx v d
  | identifier d => buildBase ctx v d
  | keyword d => buildBase ctx v d
  | language d => buildBase ctx v d
  | link d => buildBase ctx v d
  | managedText d => buildBase ctx v d
  | management d => buildBase ctx v d
  | namedEntity d => buildBase ctx v d
  | nonStateActor d => buildBase ctx v d
  | notice d => buildBase ctx v d
  | noticeList d => buildBase ctx v d
  | noticeText d => buildBase ctx v d
  | organization d => buildBase ctx v d
  | person d => buildBase ctx v d
  | point d => buildBase ctx v d
  | polygon d => buildBase ctx v d
  | position d => buildBase ctx v d
  | postalAddress d => buildBase ctx v d
  | processingInfo d => buildBase ctx v d
  | producerRole d => buildBase ctx v d
  | productionMetric d => buildBase ctx v d
  | profileList d => buildBase ctx v d
  | recordKeeper d => buildBase ctx v d
  | recordsInfo d => buildBase ctx v d
  | relatedResource d => buildBase ctx v d
  | resource d => buildBase ctx v d
  | resourceType d => buildBase ctx v d
  | revisionRecall d => buildBase ctx v d
  | rights d => buildBase ctx v d
  | security d => buildBase ctx v d
  | source d => buildBase ctx v d
  | subOrganization d => buildBase ctx v d
  | subjectCoverage d => buildBase ctx v d
  | taskId d => buildBase ctx v d
  | taskingInfo d => buildBase ctx v d
  | taskingRole d => buildBase ctx v d
  | temporalCoverage d => buildBase ctx v d
  | verticalExtent d => buildBase ctx v d
  | virtualCoverage d => buildBase ctx v d

/-- The draft has no extensible content. -/
def Schematic : AnyDraft → Prop
  | resource d => d.extensible = [] ∧ Buildable.allEmpty d.extensibleElements = true
  | extensibleElement _ => False
  | _ => True

variable {ctx : Context} {v : Version} {d : AnyDraft} {b : Base}

theorem regular_buildBase {δ α : Type} [Component α] [Buildable δ α] [Prefixed δ α] {d : δ}
    (h : buildBase ctx v d = .ok b) : b.element.Regular AnyText (ctx.bindings v) := by
  obtain ⟨c, hc, rfl⟩ := map_ok.1 h
  exact Prefixed.regular hc

/-- The element of every component without extensible content has the prefixes of the context. -/
theorem regular (hd : d.Schematic) (h : d.build ctx v = .ok b) :
    b.element.Regular AnyText (ctx.bindings v) := by
  cases d with
  | resource d =>
    obtain ⟨r, hr, rfl⟩ := map_ok.1 h
    exact Resource.build_regular hr hd.1 hd.2
  | extensibleElement d => cases hd
  | _ => exact regular_buildBase h

end AnyDraft

namespace Configuration

/-- The context after a configuration was installed has its prefixes, whatever else is asked of the
session, as long as no other one is accepted. -/
theorem prefixes_context (files : Files) {s s' : Session} {c : Configuration}
    {later : List Session.Request} (h : s.install c = .ok s')
    (hlater : ∀ c', .install c' ∈ later → ∃ f, c'.check = .error f) :
    (∃ v, c.check = .ok v) ∧ ((s'.after files later).context files).1.prefixes = c.prefixes := by
  obtain ⟨v, hv, rfl⟩ := Session.install_ok.1 h
  have hkept : (Session.after files ⟨c, v, none⟩ later).configuration = c :=
    Session.configuration_after hlater
  exact ⟨⟨v, hv⟩, congrArg Configuration.prefixes hkept⟩

/-- Where the prefixes of a configuration that is accepted are apart, every component that is made
without extensible content, of whatever kind and for whatever version, is read back from its text
with the namespaces and the local names that it has in all tags. -/
theorem readable_of_apart (files : Files) (s s' : Session) (c : Configuration)
    (later : List Session.Request) (v : Version) (d : AnyDraft) (b : Base)
    (hinstall : s.install c = .ok s')
    (hlater : ∀ c', .install c' ∈ later → ∃ f, c'.check = .error f)
    (hapart : c.prefixes.Apart) (hd : d.Schematic)
    (hbuild : d.build ((s'.after files later).context files).1 v = .ok b) :
    b.element.Readable := by
  obtain ⟨⟨v₀, hcheck⟩, hprefixes⟩ := prefixes_context files hinstall hlater
  have hdistinct := Context.bindings_distinct_of_apart (v := v) hcheck hprefixes hapart
  have hregular := AnyDraft.regular hd hbuild
  exact (hregular.framed hdistinct).readable

/-- Other prefixes for all schemas, none of which stands for two. -/
def renamed : Configuration :=
  { prefixes := { ddms := "d", ism := "ddms", ntk := "n", gml := "g", xlink := "x", virt := "v" } }

/-- A title whose text begins and ends with a blank. -/
def spaced : Caption.Draft :=
  { value := " Title "
    security := { values := [("classification", "U"), ("ownerProducer", "USA")] } }

theorem readable_of_apart_renamed : ∃ s title resource, ({} : Session).install renamed = .ok s ∧
    (AnyDraft.caption spaced).build (s.context Files.none).1 .v5_0 = .ok title ∧
    (AnyDraft.resource Resource.contacted).build (s.context Files.none).1 .v5_0 = .ok resource ∧
    title.element.Readable ∧ resource.element.Readable := by
  have hcheck : renamed.check = .ok .v5_0 := toOption_ok.1 (by decide +kernel)
  have hinstall : ({} : Session).install renamed = .ok ⟨renamed, .v5_0, none⟩ :=
    Session.install_ok.2 ⟨_, hcheck, rfl⟩
  let ctx := (Session.context Files.none ⟨renamed, .v5_0, none⟩).1
  obtain ⟨title, htitle⟩ := isSome_toOption.1
    (by decide +kernel : ((AnyDraft.caption spaced).build ctx .v5_0).toOption.isSome = true)
  obtain ⟨resource, hresource⟩ := isSome_toOption.1
    (by decide +kernel :
      ((AnyDraft.resource Resource.contacted).build ctx .v5_0).toOption.isSome = true)
  refine ⟨_, title, resource, hinstall, htitle, hresource, ?_, ?_⟩
  · exact readable_of_apart Files.none {} _ renamed [] .v5_0 (.caption spaced) title hinstall nofun
      (by decide) trivial htitle
  · exact readable_of_apart Files.none {} _ renamed [] .v5_0 (.resource Resource.contacted) resource
      hinstall nofun (by decide) ⟨rfl, rfl⟩ hresource

/-- A configuration with these prefixes is accepted, and under it the component of the draft is
made, but not read back from its text with its names. -/
def MisreadUnder (prefixes : Prefixes) (d : AnyDraft) : Prop :=
  ∃ s b, ({} : Session).install { prefixes } = .ok s ∧
    d.build (s.context Files.none).1 .v5_0 = .ok b ∧ ¬ b.element.Readable

/-- The text of the element can be read, and its tag has as many attributes and the name of the
element. -/
def tagReturns (e : Element) : Bool :=
  (Element.ofXml e.toXml).toOption.any fun e' =>
    e'.name.sameExpanded e.name && e'.attributes.length == e.attributes.length

theorem tagReturns_of_readable {e : Element} (h : e.Readable) : tagReturns e = true := by
  obtain ⟨e', hread, hsame⟩ := h
  obtain ⟨hname, hattributes, -⟩ := hsame
  simp [tagReturns, hread, Except.toOption, hname, hattributes.length_eq]

theorem MisreadUnder.of_tag {prefixes : Prefixes} {d : AnyDraft}
    (h : ((({} : Session).install { prefixes }).toOption.bind fun s =>
      (d.build (s.context Files.none).1 .v5_0).toOption).map (fun b => tagReturns b.element) =
        some false) : MisreadUnder prefixes d := by
  obtain ⟨b, hb, htag⟩ := Option.map_eq_some_iff.1 h
  obtain ⟨s, hs, hbuild⟩ := Option.bind_eq_some_iff.1 hb
  refine ⟨s, b, toOption_ok.1 hs, toOption_ok.1 hbuild, fun hreadable => ?_⟩
  rw [tagReturns_of_readable hreadable] at htag
  cases htag

/-- A prefix for two schemas, and those that XML reserves, are accepted, and then there is a
component whose text is not read, or read with another name or without its attributes. -/
theorem not_readable_of_clash :
    MisreadUnder { ddms := "ISM" } (.caption spaced) ∧
      MisreadUnder { ddms := "xml" } (.identifier { qualifier := "urn:isbn", value := "0" }) ∧
      MisreadUnder { ddms := "xmlns" } (.identifier { qualifier := "urn:isbn", value := "0" }) := by
  refine ⟨.of_tag ?_, .of_tag ?_, .of_tag ?_⟩ <;> decide +kernel

end Configuration

end DiscoveryMetadata
