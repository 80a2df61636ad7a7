import DiscoveryMetadata.Proofs.Gates.Part
import DiscoveryMetadata.Proofs.Output.Basic
/-
  Plain text and HTML say the same of every component.

  The output is what is made of the lines, for one kind of component after the other; the last kinds
  are resources and what stands in them. So components of all kinds, on their own or in others, have
  one list of lines that both formats write, each in its way (`Part.formats_agree`).
-/
namespace DiscoveryMetadata

section Records

instance : Described Identifier where
  output_eq html c stem index := by
    simp only [Component.output, Component.lines, Line.write_append, Line.write_of]

instance : Described Caption where
  output_eq html c stem index := by
    simp only [Component.output, Component.lines, Line.write_append, Line.write_of,
      SecurityAttributes.write_lines]

instance : Described Language where
  output_eq html c stem index := by
    simp only [Component.output, Component.lines, Line.write_append, Line.write_of]

instance : Described ApproximableDate where
  output_eq html c stem index := by
    simp only [Component.output, Component.lines, Line.write_append, Line.write_of]

instance : Described Dates where
  output_eq html c stem index := by
    have hpairs := @Line.write_pairs html (c.lineName stem index ++ ".")
      (c.values.entries.map fun (n, _, value) => (n, value))
    rw [List.flatMap_map] at hpairs
    simp only [Component.output, Component.lines, Line.write_append, Component.write_linesOfAll]
    rw [← hpairs]

instance : Described Rights where
  output_eq html c stem index := by
    simp only [Component.output, Component.lines, Line.write_cons, Line.write_nil,
      String.append_empty, String.append_assoc]

instance : Described Source where
  output_eq html c stem index := by
    simp only [Component.output, Component.lines, Line.write_append, Line.write_pairs,
      SecurityAttributes.write_lines]

instance : Described ResourceType where
  output_eq html c stem index := by
    simp only [Component.output, Component.lines, Line.write_append, Line.write_of,
      SecurityAttributes.write_lines]

instance : Described Extent where
  output_eq html c stem index := by
    simp only [Component.output, Component.lines, Line.write_append, Line.write_of]

instance : Described Format where
  output_eq html c stem index := by
    simp only [Component.output, Component.lines, Line.write_append, Line.write_of,
      Component.write_linesOfOption]

end Records

section Entities

instance : Described NamedEntity where
  output_eq html c stem index := by
    simp only [Component.output, Component.lines, Line.write_append, Line.write_of,
      Contact.write_nameLines, Contact.write_reachLines]

instance : Described Person where
  output_eq html c stem index := by
    simp only [Component.output, Component.lines, Line.write_append, Line.write_of,
      Contact.write_nameLines, Contact.write_reachLines]

instance : Described SubOrganization where
  output_eq html c stem index := by
    simp only [Component.output, Component.lines, Line.write_append, Line.write_of,
      SecurityAttributes.write_lines]

instance : Described Organization where
  output_eq html c stem index := by
    simp only [Component.output, Component.lines, Line.write_append, Line.write_of,
      Component.write_linesOfAll, Contact.write_nameLines, Contact.write_reachLines]

theorem Producer.write_lines {html : Bool} (p : Producer) (stem : String) :
    Line.write html (p.lines stem) = p.output html stem := by
  cases p <;> exact Component.write_lines _ stem ""

theorem TaskingEntity.write_lines {html : Bool} (t : TaskingEntity) (stem : String) :
    Line.write html (t.lines stem) = t.output html stem := by
  cases t <;> exact Component.write_lines _ stem ""

instance : Described ProducerRole where
  output_eq html c stem index := by
    simp only [Component.output, Component.lines, Line.write_append, Line.write_getD, Line.write_of,
      Producer.write_lines, SecurityAttributes.write_lines]

instance : Described TaskingRole where
  output_eq html c stem index := by
    simp only [Component.output, Component.lines, Line.write_append, Line.write_getD,
      TaskingEntity.write_lines, SecurityAttributes.write_lines]

end Entities

section Relations

instance : Described Link where
  output_eq html c stem index := by
    simp only [Component.output, Component.lines, Line.write_append, SecurityAttributes.write_lines,
      LinkAttributes.write_lines]

instance : Described RelatedResource where
  output_eq html c stem index := by
    simp only [Component.output, Component.lines, Line.write_append, Line.write_of,
      Component.write_linesOfAll, SecurityAttributes.write_lines]

end Relations

section Management

instance : Described ManagedText where
  output_eq html c stem index := by
    simp only [Component.output, Component.lines, Line.write_append, Line.write_of,
      SecurityAttributes.write_lines]

instance : Described ProcessingInfo where
  output_eq html c stem index := by
    simp only [Component.output, Component.lines, Line.write_append, Line.write_of,
      SecurityAttributes.write_lines]

instance : Described RecordKeeper where
  output_eq html c stem index := by
    simp only [Component.output, Component.lines, Line.write_append, Line.write_of,
      Component.write_linesOfOption]

instance : Described RecordsInfo where
  output_eq html c stem index := by
    simp only [Component.output, Component.lines, Line.write_append, Line.write_singleton,
      Component.write_linesOfOption]

instance : Described RevisionRecall where
  output_eq html c stem index := by
    simp only [Component.output, Component.lines, Line.write_append, Line.write_getD, Line.write_of,
      Line.write_nil, apply_ite (Line.write html), Component.write_linesOfAll,
      LinkAttributes.write_lines, SecurityAttributes.write_lines]

instance : Described TaskId where
  output_eq html c stem index := by
    simp only [Component.output, Component.lines, Line.write_append, Line.write_of,
      LinkAttributes.write_lines]

instance : Described TaskingInfo where
  output_eq html c stem index := by
    simp only [Component.output, Component.lines, Line.write_append, Component.write_linesOfAll,
      Component.write_linesOfOption, SecurityAttributes.write_lines]

instance : Described Management where
  output_eq html c stem index := by
    simp only [Component.output, Component.lines, Line.write_append, Component.write_linesOfAll,
      Component.write_linesOfOption, SecurityAttributes.write_lines]

end Management

section Protection

instance : Described NoticeText where
  output_eq html c stem index := by
    simp only [Component.output, Component.lines, Line.write_append, Line.write_of,
      Line.write_singleton, SecurityAttributes.write_lines]

instance : Described Notice where
  output_eq html c stem index := by
    simp only [Component.output, Component.lines, Line.write_append, Component.write_linesOfAll,
      SecurityAttributes.write_lines, NoticeAttributes.write_lines]

instance : Described NoticeList where
  output_eq html c stem index := by
    simp only [Component.output, Component.lines, Line.write_append, Component.write_linesOfAll,
      SecurityAttributes.write_lines]

instance : Described AccessText where
  output_eq html c stem index := by
    simp only [Component.output, Component.lines, Line.write_append, Line.write_of,
      SecurityAttributes.write_lines]

instance : Described AccessEntity where
  output_eq html c stem index := by
    simp only [Component.output, Component.lines, Line.write_append, Component.write_linesOfAll,
      Component.write_linesOfOption, SecurityAttributes.write_lines]

instance : Described ProfileList where
  output_eq html c stem index := by
    simp only [Component.output, Component.lines, Line.write_append, Component.write_linesOfAll,
      SecurityAttributes.write_lines]

instance : Described Access where
  output_eq html c stem index := by
    simp only [Component.output, Component.lines, Line.write_append, Component.write_linesOfAll,
      Component.write_linesOfOption, SecurityAttributes.write_lines]

instance : Described Security where
  output_eq html c stem index := by
    simp only [Component.output, Component.lines, Line.write_append, Line.write_option,
      Component.write_linesOfOption, SecurityAttributes.write_lines]

end Protection

section Subjects

instance : Described Keyword where
  output_eq html c stem index := by
    simp only [Component.output, Component.lines, Line.write_append, Line.write_of,
      SecurityAttributes.write_lines, ExtensibleAttributes.write_lines]

instance : Described Category where
  output_eq html c stem index := by
    simp only [Component.output, Component.lines, Line.write_append, Line.write_of,
      SecurityAttributes.write_lines, ExtensibleAttributes.write_lines]

instance : Described ProductionMetric where
  output_eq html c stem index := by
    simp only [Component.output, Component.lines, Line.write_append, Line.write_of,
      SecurityAttributes.write_lines]

instance : Described NonStateActor where
  output_eq html c stem index := by
    simp only [Component.output, Component.lines, Line.write_append, Line.write_of,
      SecurityAttributes.write_lines]

instance : Described SubjectCoverage where
  output_eq html c stem index := by
    simp only [Component.output, Component.lines, Line.write_append, Component.write_linesOfAll,
      SecurityAttributes.write_lines]

end Subjects

section Times

instance : Described VirtualCoverage where
  output_eq html c stem index := by
    simp only [Component.output, Component.lines, Line.write_append, Line.write_of,
      SecurityAttributes.write_lines]

theorem TemporalCoverage.write_boundLines {html : Bool} (stem localName : String)
    (bound : Option TimeBound) :
    Line.write html (boundLines stem localName bound) = boundOutput html stem localName bound := by
  cases bound with
  | none => exact Line.write_nil
  | some bound =>
    cases bound with
    | exact value => exact Line.write_singleton _ value
    | approximate date => exact Component.write_lines date stem ""

instance : Described TemporalCoverage where
  output_eq html c stem index := by
    simp only [Component.output, Component.lines, Line.write_append, Line.write_of,
      TemporalCoverage.write_boundLines, SecurityAttributes.write_lines]

end Times

section Places

instance : Described AreaCode where
  output_eq html c stem index := by
    simp only [Component.output, Component.lines, Line.write_append, Line.write_of]

instance : Described FacilityIdentifier where
  output_eq html c stem index := by
    simp only [Component.output, Component.lines, Line.write_append, Line.write_of]

instance : Described GeographicIdentifier where
  output_eq html c stem index := by
    simp only [Component.output, Component.lines, Line.write_append, Line.write_ofAll,
      Component.write_linesOfOption]

instance : Described BoundingBox where
  output_eq html c stem index := by
    simp only [Component.output, Component.lines, Line.write_append, Measure.write_line]

instance : Described VerticalExtent where
  output_eq html c stem index := by
    simp only [Component.output, Component.lines, Line.write_append, Line.write_of,
      Measure.write_line]

instance : Described PostalAddress where
  output_eq html c stem index := by
    simp only [Component.output, Component.lines, Line.write_append, Line.write_of,
      Line.write_ofAll, Component.write_linesOfOption]

instance : Described Position where
  output_eq html c stem index := by
    simp only [Component.output, Component.lines, Line.write_append, Line.write_of,
      SrsAttributes.write_lines]

instance : Described Point where
  output_eq html c stem index := by
    simp only [Component.output, Component.lines, Line.write_append, Line.write_singleton,
      Component.write_linesOfOption, SrsAttributes.write_lines]

instance : Described Polygon where
  output_eq html c stem index := by
    simp only [Component.output, Component.lines, Line.write_append, Line.write_singleton,
      Component.write_linesOfAll, SrsAttributes.write_lines]

instance : Described BoundingGeometry where
  output_eq html c stem index := by
    simp only [Component.output, Component.lines, Line.write_append, Component.write_linesOfAll]

theorem GeospatialExtents.write_lines {html : Bool} (x : GeospatialExtents) (stem : String) :
    Line.write html (x.lines stem) = x.output html stem := by
  simp only [lines, output, Line.write_append, Component.write_linesOfOption]

instance : Described GeospatialCoverage where
  output_eq html c stem index := by
    simp only [Component.output, Component.lines, Line.write_append, Line.write_of,
      GeospatialExtents.write_lines, SecurityAttributes.write_lines]

end Places

instance : Described ExtensibleElement where
  output_eq _ _ _ _ := Line.write_nil.symm

theorem TopLevel.write_lines {html : Bool} (t : TopLevel) (stem index : String) :
    Line.write html (t.lines stem index) = t.output html stem index := by
  cases t <;> exact Component.write_lines _ stem index

instance : Described TopLevel where
  output_eq _ t stem index := (t.write_lines stem index).symm

instance : Described Resource where
  output_eq html r stem index := by
    simp only [Component.output, Component.lines, Line.write_append, Line.write_cons,
      Line.write_nil, Line.write_flatMap, Markings.write_lines, SecurityAttributes.write_lines,
      NoticeAttributes.write_lines, ExtensibleAttributes.write_lines, TopLevel.write_lines,
      String.append_empty, String.append_assoc]

namespace Part

/-- What is said of a part that is a component; a group by itself has nothing to say. -/
def describe {β : Type} (nothing : β) (f : {α : Type} → [Component α] → α → β) : Part → β
  | markings _ | attributes _ | noticeAttributes _ => nothing
  | resource c => f c
  | identifier c => f c
  | caption c => f c
  | language c => f c
  | dates c => f c
  | approximableDate c => f c
  | rights c => f c
  | source c => f c
  | resourceType c => f c
  | producerRole c => f c
  | organization c => f c
  | subOrganization c => f c
  | person c => f c
  | namedEntity c => f c
  | format c => f c
  | extent c => f c
  | subjectCoverage c => f c
  | keyword c => f c
  | category c => f c
  | productionMetric c => f c
  | nonStateActor c => f c
  | virtualCoverage c => f c
  | temporalCoverage c => f c
  | geospatialCoverage c => f c
  | geographicIdentifier c => f c
  | areaCode c => f c
  | facilityIdentifier c => f c
  | boundingBox c => f c
  | boundingGeometry c => f c
  | polygon c => f c
  | point c => f c
  | position c => f c
  | postalAddress c => f c
  | verticalExtent c => f c
  | relatedResource c => f c
  | link c => f c
  | management c => f c
  | recordsInfo c => f c
  | recordKeeper c => f c
  | managedText c => f c
  | revisionRecall c => f c
  | taskingInfo c => f c
  | taskingRole c => f c
  | taskId c => f c
  | processingInfo c => f c
  | security c => f c
  | noticeList c => f c
  | notice c => f c
  | noticeText c => f c
  | access c => f c
  | profileList c => f c
  | accessEntity c => f c
  | accessText c => f c
  | extensible c => f c

/-- The part as plain text. -/
def toText (p : Part) : String := p.describe "" Component.toText

/-- The part as HTML. -/
def toHtml (p : Part) : String := p.describe "" Component.toHtml

/-- The lines of the part. -/
def lines (p : Part) : List Line := p.describe [] fun c => Component.lines c "" ""

/-- Both formats write the same lines, in the same order. -/
theorem formats_agree (p : Part) :
    p.toText = String.join (p.lines.map fun l => l.name ++ ": " ++ l.content ++ "\n") ∧
      p.toHtml = String.join (p.lines.map fun l =>
        "<meta name=\"" ++ l.name ++ "\" content=\"" ++ Text.escape l.content ++ "\" />\n") := by
  cases p with
  | markings | attributes | noticeAttributes => exact ⟨rfl, rfl⟩
  | _ c => exact ⟨Component.toText_eq c, Component.toHtml_eq c⟩

end Part

end DiscoveryMetadata
