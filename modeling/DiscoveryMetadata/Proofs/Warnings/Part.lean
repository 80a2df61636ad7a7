import DiscoveryMetadata.Proofs.Gates.Part
import DiscoveryMetadata.Proofs.Outcome
import Mathlib.Data.List.Perm.Basic
/-
  What each part of a resource remarks about itself, and what is recorded at it.

  `inside` lists a part and all parts below it, each as often as it stands there; the parts below
  are `children` at every depth (`mem_inside`). `remarks` are the texts that a part has to give
  about itself: those of its own kind, and for a group of attributes those of its tokens. They
  depend on what the part holds, and not on what is recorded at it. `recorded` are the findings
  that are recorded at a part.

  `Told ctx p` says that at `p`, and at each part below it, exactly its own remarks and what is
  recorded at its children are recorded. It follows that what is recorded at `p` are the remarks of
  all parts inside it, each as often as the part stands there (`Told.gathered`).
-/
namespace DiscoveryMetadata

namespace Part

/-- How many parts can stand below one another, from a part of this kind on. -/
def level : Part → Nat
  | resource _ => 7
  | management _ | security _ => 6
  | taskingInfo _ | recordsInfo _ | noticeList _ | access _ => 5
  | producerRole _ | taskingRole _ | recordKeeper _ | geospatialCoverage _ | notice _ => 4
  | profileList _ => 4
  | organization _ | boundingGeometry _ | revisionRecall _ | geographicIdentifier _ => 3
  | postalAddress _ | relatedResource _ | subjectCoverage _ | accessEntity _ => 3
  | polygon _ | point _ | dates _ | temporalCoverage _ | format _ => 2
  | identifier _ | caption _ | language _ | approximableDate _ | rights _ | source _ => 1
  | resourceType _ | subOrganization _ | person _ | namedEntity _ | extent _ | keyword _ => 1
  | category _ | productionMetric _ | nonStateActor _ | virtualCoverage _ | areaCode _ => 1
  | facilityIdentifier _ | boundingBox _ | position _ | verticalExtent _ | link _ => 1
  | managedText _ | taskId _ | processingInfo _ | noticeText _ | accessText _ => 1
  | extensible _ => 1
  | markings _ | attributes _ | noticeAttributes _ => 0

theorem level_ofTopLevel (t : TopLevel) : (ofTopLevel t).level < 7 := by
  cases t <;> simp [ofTopLevel, level]

theorem level_ofProducer (p : Producer) : (ofProducer p).level < 4 := by
  cases p <;> simp [ofProducer, level]

theorem level_ofTaskingEntity (t : TaskingEntity) : (ofTaskingEntity t).level < 4 := by
  cases t <;> simp [ofTaskingEntity, level]

/-- All of `ps` lie below the level. -/
def Below (n : Nat) (ps : List Part) : Prop := ∀ q ∈ ps, q.level < n

@[simp]
theorem below_map {α : Type} {f : α → Part} {n : Nat} {l : List α} :
    Below n (l.map f) ↔ ∀ a ∈ l, (f a).level < n :=
  List.forall_mem_map

@[simp]
theorem below_option {α : Type} {f : α → Part} {n : Nat} {o : Option α} :
    Below n (o.map f).toList ↔ ∀ a ∈ o, (f a).level < n := by
  cases o <;> simp [Below]

@[simp]
theorem below_append {n : Nat} {ps qs : List Part} :
    Below n (ps ++ qs) ↔ Below n ps ∧ Below n qs :=
  List.forall_mem_append

@[simp]
theorem below_cons {n : Nat} {p : Part} {ps : List Part} :
    Below n (p :: ps) ↔ p.level < n ∧ Below n ps :=
  List.forall_mem_cons

@[simp]
theorem below_nil {n : Nat} : Below n [] := by simp [Below]

theorem level_lt (p : Part) : Below p.level p.children := by
  cases p with
  | resource c =>
    exact below_append.2 ⟨by simp [level], below_map.2 fun t _ => level_ofTopLevel t⟩
  | producerRole c =>
    exact below_cons.2 ⟨by simp [level], below_option.2 fun p _ => level_ofProducer p⟩
  | taskingRole c =>
    exact below_cons.2 ⟨by simp [level], below_option.2 fun t _ => level_ofTaskingEntity t⟩
  | _ => simp [children, ofExtents, level]

/-- The part and all parts below it, each as often as it stands there. -/
def inside (p : Part) : List Part :=
  p :: p.children.attach.flatMap fun q => q.1.inside
termination_by p.level
decreasing_by exact level_lt p q.1 q.2

theorem inside_eq (p : Part) : p.inside = p :: p.children.flatMap inside := by
  rw [inside, List.flatMap_def, List.flatMap_def, List.map_attach_eq_pmap, List.pmap_eq_map]

/-- What stands inside a part is what can be reached from it. -/
theorem mem_inside {p q : Part} : q ∈ p.inside ↔ Reaches p q := by
  constructor
  · intro h
    induction hn : p.level using Nat.strongRecOn generalizing p with
    | ind n ih =>
      rw [inside_eq, List.mem_cons, List.mem_flatMap] at h
      rcases h with rfl | ⟨c, hc, hq⟩
      · exact .refl
      · exact .head hc (ih _ (hn ▸ level_lt p c hc) hq rfl)
  · intro h
    induction h using Relation.ReflTransGen.head_induction_on with
    | refl =>
      rw [inside_eq]
      exact List.mem_cons_self
    | head hc _ ih =>
      rw [inside_eq]
      exact List.mem_cons_of_mem _ (List.mem_flatMap.2 ⟨_, hc, ih⟩)

/-- The findings that are recorded at the part. -/
def recorded : Part → List Finding
  | markings _ => []
  | attributes a => a.warnings
  | noticeAttributes a => a.warnings
  | resource c => c.warnings
  | identifier c => c.warnings
  | caption c => c.warnings
  | language c => c.warnings
  | dates c => c.warnings
  | approximableDate c => c.warnings
  | rights c => c.warnings
  | source c => c.warnings
  | resourceType c => c.warnings
  | producerRole c => c.warnings
  | organization c => c.warnings
  | subOrganization c => c.warnings
  | person c => c.warnings
  | namedEntity c => c.warnings
  | format c => c.warnings
  | extent c => c.warnings
  | subjectCoverage c => c.warnings
  | keyword c => c.warnings
  | category c => c.warnings
  | productionMetric c => c.warnings
  | nonStateActor c => c.warnings
  | virtualCoverage c => c.warnings
  | temporalCoverage c => c.warnings
  | geospatialCoverage c => c.warnings
  | geographicIdentifier c => c.warnings
  | areaCode c => c.warnings
  | facilityIdentifier c => c.warnings
  | boundingBox c => c.warnings
  | boundingGeometry c => c.warnings
  | polygon c => c.warnings
  | point c => c.warnings
  | position c => c.warnings
  | postalAddress c => c.warnings
  | verticalExtent c => c.warnings
  | relatedResource c => c.warnings
  | link c => c.warnings
  | management c => c.warnings
  | recordsInfo c => c.warnings
  | recordKeeper c => c.warnings
  | managedText c => c.warnings
  | revisionRecall c => c.warnings
  | taskingInfo c => c.warnings
  | taskingRole c => c.warnings
  | taskId c => c.warnings
  | processingInfo c => c.warnings
  | security c => c.warnings
  | noticeList c => c.warnings
  | notice c => c.warnings
  | noticeText c => c.warnings
  | access c => c.warnings
  | profileList c => c.warnings
  | accessEntity c => c.warnings
  | accessText c => c.warnings
  | extensible c => c.warnings

/-- A remark that is made if the condition holds. -/
def remark (condition : Bool) (text : String) : List String := if condition then [text] else []

/-- The texts of the findings that a check gives. -/
def heard (x : Outcome (List Finding)) : List String :=
  match x with
  | .ok ws => ws.map (·.text)
  | .error _ => []

/-- What is remarked about phones and emails. -/
def contactRemarks (c : Contact) : List String :=
  remark (c.phones.any (·.isEmpty)) "A ddms:phone element was found with no value." ++
    remark (c.emails.any (·.isEmpty)) "A ddms:email element was found with no value."

/-- What a part remarks about itself. -/
def remarks (ctx : Context) : Part → List String
  | attributes a => heard (SecurityAttributes.check ctx a.version a.values)
  | noticeAttributes a => heard (a.check ctx)
  | resource c => remark c.security.isEmpty c.rollupSkipped
  | caption c =>
    remark (c.kind != .title && c.value.isEmpty)
      s!"A ddms:{c.kind.name} element was found with no {c.kind.name} value."
  | language c =>
    remark (!c.qualifier.isEmpty && c.value.isEmpty)
      "A qualifier has been set without an accompanying value attribute." ++
    remark (c.qualifier.isEmpty && c.value.isEmpty)
      "Neither a qualifier nor a value was set on this language."
  | dates c =>
    remark (c.values.entries.all (·.2.2.isEmpty) && c.acquiredOns.isEmpty)
      "A completely empty ddms:dates element was found."
  | approximableDate c =>
    remark (c.description.isEmpty && c.date.isEmpty && c.approximation.isEmpty)
      ("A completely empty " ++ c.writtenName ++ " element was found.") ++
    remark (c.described == some "") "A completely empty ddms:description element was found."
  | source c =>
    remark (c.fields.all (·.2.isEmpty)) "A completely empty ddms:source element was found."
  | resourceType c =>
    remark (!c.qualifier.isEmpty && c.value.isEmpty)
      "A qualifier has been set without an accompanying value attribute." ++
    remark (c.qualifier.isEmpty && c.value.isEmpty && c.description.isEmpty)
      "Neither a qualifier nor a value was set on this type."
  | producerRole c =>
    if c.version.atLeast .v4_1 then
      heard (ctx.checkTokens Vocabulary.Key.pocType c.version c.pocTypes)
    else []
  | organization c =>
    remark (c.version.atLeast .v4_0_1 && c.acronym.isEmpty &&
        (c.element.attribute? c.element.name.uri "acronym").isSome)
      "A ddms:acronym attribute was found with no value." ++
    contactRemarks c.contact
  | person c =>
    remark (c.userId.isEmpty && c.hasOne "userID") "A ddms:userID element was found with no value." ++
    remark (c.affiliation.isEmpty && c.hasOne "affiliation")
      "A ddms:affiliation element was found with no value." ++
    contactRemarks c.contact
  | namedEntity c => contactRemarks c.contact
  | format c =>
    remark (c.medium.isEmpty && ((Format.holder c.toBase).ownChildren "medium").length == 1)
      "A ddms:medium element was found with no value."
  | extent c =>
    remark (!c.qualifier.isEmpty && c.value.isEmpty)
      "A qualifier has been set without an accompanying value attribute." ++
    remark (c.qualifier.isEmpty && c.value.isEmpty)
      "A completely empty ddms:extent element was found."
  | subjectCoverage c =>
    let repeated := fun (parts : List Base) noun =>
      remark (SubjectCoverage.hasDuplicates parts) (SubjectCoverage.duplicated noun)
    repeated (c.keywords.map (·.toBase)) "keywords" ++
    repeated (c.categories.map (·.toBase)) "categories" ++
    repeated (c.productionMetrics.map (·.toBase)) "productionMetrics"
  | nonStateActor c =>
    remark c.value.isEmpty "A ddms:nonStateActor element was found with no value."
  | virtualCoverage c =>
    remark (c.address.isEmpty && c.protocol.isEmpty)
      "A completely empty ddms:virtualCoverage element was found."
  | temporalCoverage c =>
    remark (c.given == some "")
      s!"A ddms:name element was found with no value. Defaulting to \"{TemporalCoverage.unknown}\"."
  | postalAddress c =>
    remark c.isVacant "A completely empty ddms:postalAddress element was found."
  | relatedResource c =>
    remark (!c.version.atLeast .v4_0_1 &&
        1 < (c.element.ownChildren RelatedResource.wrapper).length) RelatedResource.severalWrappers
  | managedText c =>
    remark ((c.kind == .details || !c.version.atLeast .v5_0) && c.value.isEmpty)
      s!"A ddms:{c.kind.name} element was found with no value."
  | processingInfo c =>
    remark c.value.isEmpty "A ddms:processingInfo element was found with no value."
  | noticeText c =>
    heard (ctx.checkTokens Vocabulary.Key.pocType c.version c.pocTypes) ++
      remark c.value.isEmpty "An ISM:NoticeText element was found with no value."
  | access c =>
    remark c.parts.isEmpty
      "An ntk:Access element was found with no individual, group, or profile information."
  | accessText c =>
    remark (c.kind ≠ .systemName && c.value.isEmpty)
      s!"A ntk:{c.kind.name} element was found with no value."
  | _ => []

/-- The texts that are recorded at the part. -/
def texts (p : Part) : List String := p.recorded.map (·.text)

/-- What is recorded at the part is what its check finds. -/
def Noted (ctx : Context) : Part → Prop
  | markings _ => True
  | attributes a => SecurityAttributes.check ctx a.version a.values = .ok a.warnings
  | noticeAttributes a => a.check ctx = .ok a.warnings
  | producerRole c => ∃ ws, c.rules ctx = .ok ws ∧ c.warnings = c.findings ws
  | noticeText c => ∃ ws, c.rules ctx = .ok ws ∧ c.warnings = c.findings ws
  | resource c => c.warnings = c.findings
  | identifier c => c.warnings = []
  | caption c => c.warnings = c.findings
  | language c => c.warnings = c.findings
  | dates c => c.warnings = c.findings
  | approximableDate c => c.warnings = c.findings
  | rights c => c.warnings = []
  | source c => c.warnings = c.findings
  | resourceType c => c.warnings = c.findings
  | organization c => c.warnings = c.findings
  | subOrganization c => c.warnings = c.findings
  | person c => c.warnings = c.findings
  | namedEntity c => c.warnings = c.findings
  | format c => c.warnings = c.findings
  | extent c => c.warnings = c.findings
  | subjectCoverage c => c.warnings = c.findings
  | keyword c => c.warnings = c.findings
  | category c => c.warnings = c.findings
  | productionMetric c => c.warnings = c.findings
  | nonStateActor c => c.warnings = c.findings
  | virtualCoverage c => c.warnings = c.findings
  | temporalCoverage c => c.warnings = c.findings
  | geospatialCoverage c => c.warnings = c.findings
  | geographicIdentifier c => c.warnings = c.findings
  | areaCode c => c.warnings = []
  | facilityIdentifier c => c.warnings = []
  | boundingBox c => c.warnings = []
  | boundingGeometry c => c.warnings = c.findings
  | polygon c => c.warnings = c.findings
  | point c => c.warnings = c.findings
  | position c => c.warnings = []
  | postalAddress c => c.warnings = c.findings
  | verticalExtent c => c.warnings = []
  | relatedResource c => c.warnings = c.findings
  | link c => c.warnings = c.findings
  | management c => c.warnings = c.findings
  | recordsInfo c => c.warnings = c.findings
  | recordKeeper c => c.warnings = c.findings
  | managedText c => c.warnings = c.findings
  | revisionRecall c => c.warnings = c.findings
  | taskingInfo c => c.warnings = c.findings
  | taskingRole c => c.warnings = c.findings
  | taskId c => c.warnings = []
  | processingInfo c => c.warnings = c.findings
  | security c => c.warnings = c.findings
  | noticeList c => c.warnings = c.findings
  | notice c => c.warnings = c.findings
  | access c => c.warnings = c.findings
  | profileList c => c.warnings = c.findings
  | accessEntity c => c.warnings = c.findings
  | accessText c => c.warnings = c.findings
  | extensible c => c.warnings = []

theorem mem_remark {condition : Bool} {t text : String} :
    t ∈ remark condition text ↔ condition = true ∧ t = text := by
  cases condition <;> simp [remark]

section Texts

variable (b : Base)

theorem mem_warnIf {condition : Bool} {text : String} {f : Finding} :
    f ∈ b.warnIf condition text ↔ condition = true ∧ f = .warning text ("/" ++ b.writtenName) := by
  cases condition <;> simp [Base.warnIf]

@[simp]
theorem texts_warnIf (condition : Bool) (text : String) :
    (b.warnIf condition text).map (·.text) = remark condition text := by
  cases condition <;> rfl

@[simp]
theorem texts_absorb (ws : List Finding) : (b.absorb ws).map (·.text) = ws.map (·.text) := by
  simp [Base.absorb, Finding.under]

@[simp]
theorem texts_absorbAll (bs : List Base) :
    (b.absorbAll bs).map (·.text) = bs.flatMap fun p => p.warnings.map (·.text) := by
  simp [Base.absorbAll, List.map_flatMap]

end Texts

theorem texts_ofTopLevel (t : TopLevel) : texts (ofTopLevel t) = t.base.warnings.map (·.text) := by
  cases t <;> rfl

theorem texts_ofProducer (p : Producer) : texts (ofProducer p) = p.base.warnings.map (·.text) := by
  cases p <;> rfl

theorem texts_ofTaskingEntity (t : TaskingEntity) :
    texts (ofTaskingEntity t) = t.base.warnings.map (·.text) := by
  cases t <;> rfl

/-- What the rules of a role give are the remarks about its kinds of contact. -/
theorem heard_rules {ctx : Context} {c : ProducerRole} {ws : List Finding}
    (h : c.rules ctx = .ok ws) : remarks ctx (producerRole c) = ws.map (·.text) := by
  unfold ProducerRole.rules at h
  by_cases hv : c.version.atLeast .v4_1 = true
  · simp only [remarks, hv, if_true]
    cases he : c.entity <;>
      simp only [he, hv, if_true, bind_ok, throw_ok, false_and, exists_false, and_false] at h
    obtain ⟨_, -, _, -, _, -, h⟩ := h
    rw [h, heard]
  · simp only [remarks, if_neg hv]
    cases he : c.entity <;>
      simp only [he, if_neg hv, bind_ok, throw_ok, pure_ok, false_and, exists_false, and_false] at h
    obtain ⟨_, -, _, -, _, -, rfl⟩ := h
    rfl

/-- What is found at a part are its own remarks and what is recorded at its children: each text
stands as often on both sides, in another order. -/
theorem Noted.perm {ctx : Context} {p : Part} (h : Noted ctx p) :
    p.texts.Perm (p.remarks ctx ++ p.children.flatMap texts) := by
  refine List.perm_iff_count.2 fun t => ?_
  cases p <;> simp only [Noted] at h
  case attributes a => simp [texts, recorded, remarks, heard, h, children]
  case noticeAttributes a => simp [texts, recorded, remarks, heard, h, children]
  -- kinds of contact are checked against a vocabulary, which gives these two further remarks
  case producerRole c =>
    obtain ⟨ws, hr, h⟩ := h
    simp only [heard_rules hr, texts, recorded, h, ProducerRole.findings, children,
      ↓texts_ofProducer, texts_absorb, texts_absorbAll, List.map_append, List.flatMap_cons,
      List.flatMap_map, Option.toList_map, List.count_append]
    omega
  case noticeText c =>
    obtain ⟨ws, hr, h⟩ := h
    have hw : ctx.checkTokens Vocabulary.Key.pocType c.version c.pocTypes = .ok ws := by
      simp only [NoticeText.rules, bind_ok] at hr
      obtain ⟨_, -, _, -, _, -, hr⟩ := hr
      exact hr
    simp only [remarks, hw, heard, texts, recorded, h, NoticeText.findings, children, texts_absorb,
      texts_warnIf, List.map_append, List.flatMap_cons, List.flatMap_nil, List.append_nil,
      List.count_append]
  all_goals
    simp only [texts, recorded, h, children, ofExtents, remarks, contactRemarks, Contact.remarks,
      Resource.findings, Caption.findings, Language.findings, Dates.findings,
      ApproximableDate.findings, Source.findings, ResourceType.findings, Organization.findings,
      SubOrganization.findings, Person.findings, NamedEntity.findings, Format.findings,
      Extent.findings, SubjectCoverage.findings, SubjectCoverage.parts, Keyword.findings,
      Category.findings, ProductionMetric.findings, NonStateActor.findings,
      VirtualCoverage.findings, TemporalCoverage.findings, TemporalCoverage.parts,
      GeospatialCoverage.findings, GeospatialExtents.parts, GeographicIdentifier.findings,
      GeographicIdentifier.parts, GeographicIdentifier.codes, BoundingGeometry.findings,
      BoundingGeometry.parts, Polygon.findings, Point.findings, PostalAddress.findings,
      RelatedResource.findings, Link.findings, Management.findings, Management.parts,
      RecordsInfo.findings, RecordsInfo.parts, RecordKeeper.findings, ManagedText.findings,
      RevisionRecall.findings, RevisionRecall.parts, TaskingInfo.findings, TaskingInfo.parts,
      TaskingRole.findings, ProcessingInfo.findings, Security.findings, Security.parts,
      NoticeList.findings, Notice.findings, Access.findings, Access.parts, ProfileList.findings,
      AccessEntity.findings, AccessEntity.parts, AccessText.findings,
      ↓texts_ofTopLevel, ↓texts_ofTaskingEntity, texts_warnIf, texts_absorb, texts_absorbAll,
      List.map_append, List.map_nil, List.flatMap_append, List.flatMap_cons, List.flatMap_nil,
      List.flatMap_map, List.append_nil, List.nil_append, Option.toList_map, List.count_append,
      List.count_nil]
  -- the counts are sums of the same numbers, in another order
  all_goals omega

/-- What is said at a part is remarked there, or said at one of its children. -/
theorem Noted.mem_texts {ctx : Context} {p : Part} {t : String} (h : Noted ctx p) :
    t ∈ p.texts ↔ t ∈ p.remarks ctx ∨ ∃ q ∈ p.children, t ∈ q.texts := by
  rw [h.perm.mem_iff, List.mem_append, List.mem_flatMap]

/-- The last step of reading and of making records what the check finds. -/
theorem Noted.checked {ctx : Context} {α : Type} {f : α → Part} {b : Base} {rules : Outcome Unit}
    {c d : α} (h : (b.check rules >>= fun _ => pure c) = .ok d) (own : Noted ctx (f c)) :
    Noted ctx (f d) := by
  simp only [bind_ok, pure_ok] at h
  obtain ⟨_, -, rfl⟩ := h
  exact own

/-- What is recorded at the part, and at each part below it, is what its check finds. -/
inductive Told (ctx : Context) : Part → Prop
  | intro {p : Part} (own : Noted ctx p) (below : ∀ q ∈ p.children, Told ctx q) : Told ctx p

/-- What is recorded at a part are the remarks of all parts inside it. -/
theorem Told.gathered {ctx : Context} {p : Part} (h : Told ctx p) :
    p.texts.Perm (p.inside.flatMap (remarks ctx)) := by
  induction h with
  | @intro p own _ ih =>
    rw [inside_eq, List.flatMap_cons, List.flatMap_assoc]
    exact own.perm.trans (.append_left _ (List.Perm.flatMap_left _ ih))

/-- Where all is told, it is told at each part inside. -/
theorem Told.noted {ctx : Context} {p q : Part} (h : Told ctx p) (hq : Reaches p q) :
    Noted ctx q := by
  induction h with
  | @intro p own _ ih =>
    rcases Relation.ReflTransGen.cases_head hq with rfl | ⟨r, hr, hrq⟩
    · exact own
    · exact ih r hr hrq

/-- All parts of a list are told. -/
def AllTold (ctx : Context) (ps : List Part) : Prop := ∀ p ∈ ps, Told ctx p

namespace AllTold

variable {ctx : Context} {p : Part} {ps qs : List Part} {α : Type} {f : α → Part}

theorem nil : AllTold ctx [] := by simp [AllTold]

theorem cons (hp : Told ctx p) (hps : AllTold ctx ps) : AllTold ctx (p :: ps) :=
  List.forall_mem_cons.2 ⟨hp, hps⟩

theorem append (hp : AllTold ctx ps) (hq : AllTold ctx qs) : AllTold ctx (ps ++ qs) :=
  List.forall_mem_append.2 ⟨hp, hq⟩

theorem map {cs : List α} (h : ∀ c ∈ cs, Told ctx (f c)) : AllTold ctx (cs.map f) :=
  List.forall_mem_map.2 h

theorem option {o : Option α} (h : ∀ c ∈ o, Told ctx (f c)) : AllTold ctx (o.map f).toList := by
  cases o with
  | none => exact nil
  | some c => exact cons (h c rfl) nil

end AllTold

theorem Told.of {ctx : Context} {p : Part} (own : Noted ctx p) (below : AllTold ctx p.children) :
    Told ctx p :=
  .intro own below

/-- The last step of reading and of making: a component is checked, and what its check finds is
recorded at it. -/
theorem Told.checked {ctx : Context} {α : Type} {f : α → Part} {b : Base} {rules : Outcome Unit}
    {c d : α} (h : (b.check rules >>= fun _ => pure c) = .ok d) (own : Noted ctx (f c))
    (below : AllTold ctx (f c).children) : Told ctx (f d) := by
  simp only [bind_ok, pure_ok] at h
  obtain ⟨_, -, rfl⟩ := h
  exact .of own below

end Part

end DiscoveryMetadata
