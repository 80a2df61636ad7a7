import DiscoveryMetadata.Proofs.Equality
/-
  Equal components have the same lines.

  Components are compared by the expanded names of their elements and by their contents, and their
  lines are written from the local names and the contents. So equal components of most kinds have
  the same lines (`Legible`), one kind after the other. Two things play no part in equality and show
  in the lines of some kinds: the sign of a zero, and the version, which tells whether a component
  stands in a wrapper. For components of these kinds the numbers or the versions have to agree.
-/
namespace DiscoveryMetadata

/-- The kinds of components of which equal ones have the same lines. -/
class Legible (α : Type) [BEq α] [Component α] : Prop where
  lines_eq : ∀ {a b : α}, (a == b) = true → Component.lines a = Component.lines b

section Collections

variable {α β γ : Type} [BEq α]

theorem map_of_beq {f : α → β} (hf : ∀ {a b}, (a == b) = true → f a = f b) {as bs : List α}
    (h : (as == bs) = true) : as.map f = bs.map f := by
  induction as generalizing bs with
  | nil =>
    cases bs with
    | nil => rfl
    | cons b s => cases h
  | cons a r ih =>
    cases bs with
    | nil => cases h
    | cons b s =>
      rw [List.cons_beq_cons, Bool.and_eq_true] at h
      rw [List.map_cons, List.map_cons, hf h.1, ih h.2]

theorem isEmpty_of_beq {as bs : List α} (h : (as == bs) = true) : as.isEmpty = bs.isEmpty := by
  cases as <;> cases bs <;> first
    | rfl
    | cases h

theorem length_of_beq {as bs : List α} (h : (as == bs) = true) : as.length = bs.length := by
  simpa using congrArg List.length (map_of_beq (f := fun _ => ()) (fun _ => rfl) h)

theorem optionMap_of_beq {f : α → β} (hf : ∀ {a b}, (a == b) = true → f a = f b)
    {o q : Option α} (h : (o == q) = true) : o.map f = q.map f := by
  cases o <;> cases q
  · rfl
  · cases h
  · cases h
  · exact congrArg some (hf h)

/-- Equal lists whose members have as many of something each have the same in all if they have the
same in each. -/
theorem map_of_beq_of_flatMap {f : α → List β} {g : α → γ}
    (hlength : ∀ {a b}, (a == b) = true → (f a).length = (f b).length) {as bs : List α}
    (hg : ∀ a ∈ as, ∀ b ∈ bs, (a == b) = true → f a = f b → g a = g b)
    (h : (as == bs) = true) (hf : as.flatMap f = bs.flatMap f) : as.map g = bs.map g := by
  induction as generalizing bs with
  | nil =>
    cases bs with
    | nil => rfl
    | cons b s => cases h
  | cons a r ih =>
    cases bs with
    | nil => cases h
    | cons b s =>
      rw [List.cons_beq_cons, Bool.and_eq_true] at h
      rw [List.flatMap_cons, List.flatMap_cons] at hf
      obtain ⟨hhead, htail⟩ := List.append_inj hf (hlength h.1)
      rw [List.map_cons, List.map_cons, hg a (.head r) b (.head s) h.1 hhead,
        ih (fun a ha b hb => hg a (.tail _ ha) b (.tail _ hb)) h.2 htail]

theorem length_flatMap_of_beq {f : α → List β}
    (hlength : ∀ {a b}, (a == b) = true → (f a).length = (f b).length) {as bs : List α}
    (h : (as == bs) = true) : (as.flatMap f).length = (bs.flatMap f).length := by
  rw [List.length_flatMap, List.length_flatMap, map_of_beq hlength h]

/-- Options that are equal one by one are the same if the values that are there are. -/
theorem eq_of_filterMap_id {os qs : List (Option α)} (h : (os == qs) = true)
    (hid : os.filterMap id = qs.filterMap id) : os = qs := by
  induction os generalizing qs with
  | nil =>
    cases qs with
    | nil => rfl
    | cons q s => cases h
  | cons o r ih =>
    cases qs with
    | nil => cases h
    | cons q s =>
      rw [List.cons_beq_cons, Bool.and_eq_true] at h
      cases o <;> cases q
      · rw [ih h.2 hid]
      · cases h.1
      · cases h.1
      · obtain ⟨rfl, hr⟩ := List.cons.inj hid
        rw [ih h.2 hr]

theorem length_filterMap_id {os qs : List (Option α)} (h : (os == qs) = true) :
    (os.filterMap id).length = (qs.filterMap id).length := by
  induction os generalizing qs with
  | nil =>
    cases qs with
    | nil => rfl
    | cons q s => cases h
  | cons o r ih =>
    cases qs with
    | nil => cases h
    | cons q s =>
      rw [List.cons_beq_cons, Bool.and_eq_true] at h
      have hr := ih h.2
      cases o <;> cases q
      · exact hr
      · cases h.1
      · cases h.1
      · exact congrArg Nat.succ hr

namespace Component

variable {α : Type} [Component α]

theorem linesOfAll_congr {as bs : List α} (h : as.map lines = bs.map lines) :
    linesOfAll as = linesOfAll bs := by
  have hof : ∀ (cs : List α) (stem : String), linesOfAll cs stem =
      (cs.map lines).zipIdx.flatMap fun (l, i) => l stem (Line.index i (cs.map lines).length) := by
    intro cs stem
    rw [linesOfAll, List.zipIdx_map, List.flatMap_map, List.length_map]
    rfl
  funext stem
  rw [hof, h, ← hof]

theorem linesOfOption_congr {o q : Option α} (h : o.map lines = q.map lines) :
    linesOfOption o = linesOfOption q := by
  have hof : ∀ (o : Option α) (stem : String),
      linesOfOption o stem = ((o.map lines).map fun l => l stem "").getD [] := by
    rintro (_ | c) stem <;> rfl
  funext stem
  rw [hof, h, ← hof]

variable [BEq α] [Legible α]

theorem lines_alone_eq (a b : α) (h : (a == b) = true) :
    (fun stem => lines a stem "") = fun stem => lines b stem "" := by
  rw [Legible.lines_eq h]

theorem linesOfAll_eq {as bs : List α} (h : (as == bs) = true) : linesOfAll as = linesOfAll bs :=
  linesOfAll_congr (map_of_beq Legible.lines_eq h)

theorem linesOfOption_eq {o q : Option α} (h : (o == q) = true) :
    linesOfOption o = linesOfOption q :=
  linesOfOption_congr (optionMap_of_beq Legible.lines_eq h)

end Component

end Collections

open Component (linesOfAll_eq linesOfOption_eq)

section Groups

theorem Base.localName_eq {b c : Base} (h : (b == c) = true) : b.localName = c.localName := by
  have hname : b.element.name.sameExpanded c.element.name = true := h
  rw [Xml.QName.sameExpanded, Bool.and_eq_true, beq_iff_eq, beq_iff_eq] at hname
  exact hname.2

theorem Base.lineName_eq {b c : Base} (h : (b == c) = true) : b.lineName = c.lineName := by
  funext stem index
  rw [lineName, localName_eq h, lineName]

theorem SecurityAttributes.lines_eq {a b : SecurityAttributes} (h : (a == b) = true) :
    a.lines = b.lines := by
  have hvalues : a.values = b.values := eq_of_beq h
  funext stem
  rw [lines, hvalues, lines]

theorem NoticeAttributes.lines_eq {a b : NoticeAttributes} (h : (a == b) = true) :
    a.lines = b.lines := by
  have h : (a.noticeType == b.noticeType && a.noticeReason == b.noticeReason &&
    a.noticeDate == b.noticeDate && a.unregisteredNoticeType == b.unregisteredNoticeType &&
    a.externalNotice == b.externalNotice) = true := h
  simp only [Bool.and_eq_true, beq_iff_eq] at h
  obtain ⟨⟨⟨⟨htype, hreason⟩, hdate⟩, hunregistered⟩, hexternal⟩ := h
  funext stem
  simp only [lines, pairs, htype, hreason, hdate, hunregistered, hexternal]

end Groups

variable {stem index : String}

section Records

instance : Legible Identifier where
  lines_eq {a b} h := by
    have h : (a.toBase == b.toBase && (a.qualifier == b.qualifier && a.value == b.value)) = true :=
      h
    simp only [Bool.and_eq_true, beq_iff_eq] at h
    obtain ⟨hbase, hqualifier, hvalue⟩ := h
    funext stem index
    simp only [Component.lines, Base.lineName_eq hbase, hqualifier, hvalue]

instance : Legible Caption where
  lines_eq {a b} h := by
    have h : (a.toBase == b.toBase && (a.kind == b.kind && (a.value == b.value &&
      a.security == b.security))) = true := h
    simp only [Bool.and_eq_true, beq_iff_eq] at h
    obtain ⟨hbase, -, hvalue, hsecurity⟩ := h
    funext stem index
    simp only [Component.lines, Base.lineName_eq hbase, hvalue,
      SecurityAttributes.lines_eq hsecurity]

instance : Legible Language where
  lines_eq {a b} h := by
    have h : (a.toBase == b.toBase && (a.qualifier == b.qualifier && a.value == b.value)) = true :=
      h
    simp only [Bool.and_eq_true, beq_iff_eq] at h
    obtain ⟨hbase, hqualifier, hvalue⟩ := h
    funext stem index
    simp only [Component.lines, Base.lineName_eq hbase, hqualifier, hvalue]

instance : Legible ApproximableDate where
  lines_eq {a b} h := by
    have h : (a.toBase == b.toBase && (a.described == b.described && (a.date == b.date &&
      (a.approximation == b.approximation && (a.searchableStart == b.searchableStart &&
      a.searchableEnd == b.searchableEnd))))) = true := h
    simp only [Bool.and_eq_true, beq_iff_eq] at h
    obtain ⟨hbase, hdescribed, hdate, happroximation, hstart, hend⟩ := h
    funext stem index
    simp only [Component.lines, Base.lineName_eq hbase, ApproximableDate.description, hdescribed,
      hdate, happroximation, hstart, hend]

instance : Legible Dates where
  lines_eq {a b} h := by
    have h : (a.toBase == b.toBase && (a.acquiredOns == b.acquiredOns &&
      a.values == b.values)) = true := h
    simp only [Bool.and_eq_true, beq_iff_eq] at h
    obtain ⟨hbase, hacquired, hvalues⟩ := h
    funext stem index
    simp only [Component.lines, Base.lineName_eq hbase, linesOfAll_eq hacquired, hvalues]

instance : Legible Rights where
  lines_eq {a b} h := by
    have h : (a.toBase == b.toBase && (a.privacyAct == b.privacyAct &&
      (a.intellectualProperty == b.intellectualProperty && a.copyright == b.copyright))) = true := h
    simp only [Bool.and_eq_true, beq_iff_eq] at h
    obtain ⟨hbase, hprivacy, hproperty, hcopyright⟩ := h
    funext stem index
    simp only [Component.lines, Base.lineName_eq hbase, hprivacy, hproperty, hcopyright]

instance : Legible Source where
  lines_eq {a b} h := by
    have h : (a.toBase == b.toBase && (a.qualifier == b.qualifier && (a.value == b.value &&
      (a.schemaQualifier == b.schemaQualifier && (a.schemaHref == b.schemaHref &&
      a.security == b.security))))) = true := h
    simp only [Bool.and_eq_true, beq_iff_eq] at h
    obtain ⟨hbase, hqualifier, hvalue, hschema, hhref, hsecurity⟩ := h
    funext stem index
    simp only [Component.lines, Base.lineName_eq hbase, Source.fields, hqualifier, hvalue, hschema,
      hhref, SecurityAttributes.lines_eq hsecurity]

instance : Legible ResourceType where
  lines_eq {a b} h := by
    have h : (a.toBase == b.toBase && (a.qualifier == b.qualifier && (a.value == b.value &&
      (a.description == b.description && a.security == b.security)))) = true := h
    simp only [Bool.and_eq_true, beq_iff_eq] at h
    obtain ⟨hbase, hqualifier, hvalue, hdescription, hsecurity⟩ := h
    funext stem index
    simp only [Component.lines, Base.lineName_eq hbase, hqualifier, hvalue, hdescription,
      SecurityAttributes.lines_eq hsecurity]

instance : Legible Extent where
  lines_eq {a b} h := by
    have h : (a.toBase == b.toBase && (a.qualifier == b.qualifier && a.value == b.value)) = true :=
      h
    simp only [Bool.and_eq_true, beq_iff_eq] at h
    obtain ⟨hbase, hqualifier, hvalue⟩ := h
    funext stem index
    simp only [Component.lines, Base.lineName_eq hbase, hqualifier, hvalue]

instance : Legible Format where
  lines_eq {a b} h := by
    have h : (a.toBase == b.toBase && (a.mimeType == b.mimeType && (a.extent == b.extent &&
      a.medium == b.medium))) = true := h
    simp only [Bool.and_eq_true, beq_iff_eq] at h
    obtain ⟨hbase, hmime, hextent, hmedium⟩ := h
    funext stem index
    simp only [Component.lines, Base.lineName_eq hbase, hmime, linesOfOption_eq hextent, hmedium]

end Records

section Entities

instance : Legible SubOrganization where
  lines_eq {a b} h := by
    have h : (a.toBase == b.toBase && (a.value == b.value && a.security == b.security)) = true := h
    simp only [Bool.and_eq_true, beq_iff_eq] at h
    obtain ⟨hbase, hvalue, hsecurity⟩ := h
    funext stem index
    simp only [Component.lines, Base.lineName_eq hbase, hvalue,
      SecurityAttributes.lines_eq hsecurity]

instance : Legible Organization where
  lines_eq {a b} h := by
    have h : (a.toBase == b.toBase && (a.contact == b.contact &&
      (a.subOrganizations == b.subOrganizations && a.acronym == b.acronym))) = true := h
    simp only [Bool.and_eq_true, beq_iff_eq] at h
    obtain ⟨hbase, hcontact, hsub, hacronym⟩ := h
    funext stem index
    simp only [Component.lines, Base.localName_eq hbase, hcontact, linesOfAll_eq hsub, hacronym]

instance : Legible Person where
  lines_eq {a b} h := by
    have h : (a.toBase == b.toBase && (a.contact == b.contact && (a.surname == b.surname &&
      (a.userId == b.userId && a.affiliation == b.affiliation)))) = true := h
    simp only [Bool.and_eq_true, beq_iff_eq] at h
    obtain ⟨hbase, hcontact, hsurname, hid, haffiliation⟩ := h
    funext stem index
    simp only [Component.lines, Base.localName_eq hbase, hcontact, hsurname, hid, haffiliation]

instance : Legible NamedEntity where
  lines_eq {a b} h := by
    have h : (a.toBase == b.toBase && (a.kind == b.kind && a.contact == b.contact)) = true := h
    simp only [Bool.and_eq_true, beq_iff_eq] at h
    obtain ⟨hbase, -, hcontact⟩ := h
    funext stem index
    simp only [Component.lines, Base.localName_eq hbase, hcontact]

theorem Producer.lines_eq {a b : Producer} (h : (a == b) = true) : a.lines = b.lines := by
  cases a <;> cases b <;> first
    | exact absurd h Bool.false_ne_true
    | exact Component.lines_alone_eq _ _ h

theorem TaskingEntity.lines_eq {a b : TaskingEntity} (h : (a == b) = true) : a.lines = b.lines := by
  cases a <;> cases b <;> first
    | exact absurd h Bool.false_ne_true
    | exact Component.lines_alone_eq _ _ h

instance : Legible ProducerRole where
  lines_eq {a b} h := by
    have h : (a.toBase == b.toBase && (a.kind == b.kind && (a.entity == b.entity &&
      (a.pocTypes == b.pocTypes && a.security == b.security)))) = true := h
    simp only [Bool.and_eq_true, beq_iff_eq] at h
    obtain ⟨hbase, -, hentity, hpoc, hsecurity⟩ := h
    have hlines : ∀ stem, a.entity.map (·.lines stem) = b.entity.map (·.lines stem) := fun stem =>
      optionMap_of_beq (fun h => congrFun (Producer.lines_eq h) stem) hentity
    funext stem index
    simp only [Component.lines, Base.lineName_eq hbase, hlines, hpoc,
      SecurityAttributes.lines_eq hsecurity]

instance : Legible TaskingRole where
  lines_eq {a b} h := by
    have h : (a.toBase == b.toBase && (a.kind == b.kind && (a.entity == b.entity &&
      a.security == b.security))) = true := h
    simp only [Bool.and_eq_true, beq_iff_eq] at h
    obtain ⟨hbase, -, hentity, hsecurity⟩ := h
    have hlines : ∀ stem, a.entity.map (·.lines stem) = b.entity.map (·.lines stem) := fun stem =>
      optionMap_of_beq (fun h => congrFun (TaskingEntity.lines_eq h) stem) hentity
    funext stem index
    simp only [Component.lines, Base.lineName_eq hbase, hlines,
      SecurityAttributes.lines_eq hsecurity]

end Entities

section Relations

instance : Legible Link where
  lines_eq {a b} h := by
    have h : (a.toBase == b.toBase && (a.link == b.link && a.security == b.security)) = true := h
    simp only [Bool.and_eq_true, beq_iff_eq] at h
    obtain ⟨hbase, hlink, hsecurity⟩ := h
    funext stem index
    simp only [Component.lines, Base.lineName_eq hbase, hlink,
      SecurityAttributes.lines_eq hsecurity]

theorem RelatedResource.lines_eq {a b : RelatedResource} (h : (a == b) = true)
    (hv : a.version = b.version) : Component.lines a = Component.lines b := by
  have h : (a.toBase == b.toBase && (a.relationship == b.relationship &&
    (a.direction == b.direction && (a.qualifier == b.qualifier && (a.value == b.value &&
    (a.links == b.links && a.security == b.security)))))) = true := h
  simp only [Bool.and_eq_true, beq_iff_eq] at h
  obtain ⟨hbase, hrelationship, hdirection, hqualifier, hvalue, hlinks, hsecurity⟩ := h
  funext stem index
  simp only [Component.lines, Base.lineName_eq hbase, hv, hrelationship, hdirection, hqualifier,
    hvalue, linesOfAll_eq hlinks, SecurityAttributes.lines_eq hsecurity]

end Relations

section Management

instance : Legible ManagedText where
  lines_eq {a b} h := by
    have h : (a.toBase == b.toBase && (a.kind == b.kind && (a.value == b.value &&
      a.security == b.security))) = true := h
    simp only [Bool.and_eq_true, beq_iff_eq] at h
    obtain ⟨hbase, -, hvalue, hsecurity⟩ := h
    funext stem index
    simp only [Component.lines, Base.lineName_eq hbase, hvalue,
      SecurityAttributes.lines_eq hsecurity]

instance : Legible ProcessingInfo where
  lines_eq {a b} h := by
    have h : (a.toBase == b.toBase && (a.value == b.value && (a.dateProcessed == b.dateProcessed &&
      a.security == b.security))) = true := h
    simp only [Bool.and_eq_true, beq_iff_eq] at h
    obtain ⟨hbase, hvalue, hdate, hsecurity⟩ := h
    funext stem index
    simp only [Component.lines, Base.lineName_eq hbase, hvalue, hdate,
      SecurityAttributes.lines_eq hsecurity]

instance : Legible RecordKeeper where
  lines_eq {a b} h := by
    have h : (a.toBase == b.toBase && (a.recordKeeperId == b.recordKeeperId &&
      a.organization == b.organization)) = true := h
    simp only [Bool.and_eq_true, beq_iff_eq] at h
    obtain ⟨hbase, hid, horganization⟩ := h
    funext stem index
    simp only [Component.lines, Base.lineName_eq hbase, hid, linesOfOption_eq horganization]

instance : Legible RecordsInfo where
  lines_eq {a b} h := by
    have h : (a.toBase == b.toBase && (a.recordKeeper == b.recordKeeper &&
      (a.applicationSoftware == b.applicationSoftware && a.vitalRecord == b.vitalRecord))) =
      true := h
    simp only [Bool.and_eq_true, beq_iff_eq] at h
    obtain ⟨hbase, hkeeper, hsoftware, hvital⟩ := h
    funext stem index
    simp only [Component.lines, Base.lineName_eq hbase, linesOfOption_eq hkeeper,
      linesOfOption_eq hsoftware, hvital]

instance : Legible RevisionRecall where
  lines_eq {a b} h := by
    have h : (a.toBase == b.toBase && (a.value == b.value && (a.revisionId == b.revisionId &&
      (a.revisionType == b.revisionType && (a.network == b.network &&
      (a.otherNetwork == b.otherNetwork && (a.links == b.links && (a.details == b.details &&
      (a.link == b.link && a.security == b.security))))))))) = true := h
    simp only [Bool.and_eq_true, beq_iff_eq] at h
    obtain ⟨hbase, hvalue, hid, htype, hnetwork, hother, hlinks, hdetails, hlink, hsecurity⟩ := h
    have hnested : a.hasNested = b.hasNested := by
      rw [RevisionRecall.hasNested, RevisionRecall.hasNested, isEmpty_of_beq hlinks,
        isEmpty_of_beq hdetails]
    funext stem index
    simp only [Component.lines, Base.lineName_eq hbase, hnested, hvalue, hid, htype, hnetwork,
      hother, linesOfAll_eq hlinks, linesOfAll_eq hdetails, hlink,
      SecurityAttributes.lines_eq hsecurity]

instance : Legible TaskId where
  lines_eq {a b} h := by
    have h : (a.toBase == b.toBase && (a.value == b.value && (a.taskingSystem == b.taskingSystem &&
      (a.network == b.network && (a.otherNetwork == b.otherNetwork && a.link == b.link))))) =
      true := h
    simp only [Bool.and_eq_true, beq_iff_eq] at h
    obtain ⟨hbase, hvalue, hsystem, hnetwork, hother, hlink⟩ := h
    funext stem index
    simp only [Component.lines, Base.lineName_eq hbase, hvalue, hsystem, hnetwork, hother, hlink]

instance : Legible TaskingInfo where
  lines_eq {a b} h := by
    have h : (a.toBase == b.toBase && (a.requesters == b.requesters &&
      (a.addressees == b.addressees && (a.description == b.description &&
      (a.taskId == b.taskId && a.security == b.security))))) = true := h
    simp only [Bool.and_eq_true] at h
    obtain ⟨hbase, hrequesters, haddressees, hdescription, hid, hsecurity⟩ := h
    funext stem index
    simp only [Component.lines, Base.lineName_eq hbase, linesOfAll_eq hrequesters,
      linesOfAll_eq haddressees, linesOfOption_eq hdescription, linesOfOption_eq hid,
      SecurityAttributes.lines_eq hsecurity]

instance : Legible Management where
  lines_eq {a b} h := by
    have h : (a.toBase == b.toBase && (a.recordsInfo == b.recordsInfo &&
      (a.revisionRecall == b.revisionRecall && (a.taskingInfos == b.taskingInfos &&
      (a.processingInfos == b.processingInfos && a.security == b.security))))) = true := h
    simp only [Bool.and_eq_true] at h
    obtain ⟨hbase, hrecords, hrevision, htaskings, hprocessing, hsecurity⟩ := h
    funext stem index
    simp only [Component.lines, Base.lineName_eq hbase, linesOfOption_eq hrecords,
      linesOfOption_eq hrevision, linesOfAll_eq htaskings, linesOfAll_eq hprocessing,
      SecurityAttributes.lines_eq hsecurity]

end Management

section Protection

instance : Legible NoticeText where
  lines_eq {a b} h := by
    have h : (a.toBase == b.toBase && (a.value == b.value && (a.pocTypes == b.pocTypes &&
      a.security == b.security))) = true := h
    simp only [Bool.and_eq_true, beq_iff_eq] at h
    obtain ⟨-, hvalue, hpoc, hsecurity⟩ := h
    funext stem index
    simp only [Component.lines, hvalue, hpoc, SecurityAttributes.lines_eq hsecurity]

instance : Legible Notice where
  lines_eq {a b} h := by
    have h : (a.toBase == b.toBase && (a.texts == b.texts && (a.security == b.security &&
      a.notice == b.notice))) = true := h
    simp only [Bool.and_eq_true] at h
    obtain ⟨-, htexts, hsecurity, hnotice⟩ := h
    funext stem index
    simp only [Component.lines, linesOfAll_eq htexts, SecurityAttributes.lines_eq hsecurity,
      NoticeAttributes.lines_eq hnotice]

instance : Legible NoticeList where
  lines_eq {a b} h := by
    have h : (a.toBase == b.toBase && (a.notices == b.notices && a.security == b.security)) =
      true := h
    simp only [Bool.and_eq_true] at h
    obtain ⟨hbase, hnotices, hsecurity⟩ := h
    funext stem index
    simp only [Component.lines, Base.lineName_eq hbase, linesOfAll_eq hnotices,
      SecurityAttributes.lines_eq hsecurity]

instance : Legible AccessText where
  lines_eq {a b} h := by
    have h : (a.toBase == b.toBase && (a.kind == b.kind && (a.value == b.value &&
      (a.vocabulary == b.vocabulary && (a.id == b.id && (a.idReference == b.idReference &&
      (a.qualifier == b.qualifier && a.security == b.security))))))) = true := h
    simp only [Bool.and_eq_true, beq_iff_eq] at h
    obtain ⟨-, hkind, hvalue, hvocabulary, hid, hreference, hqualifier, hsecurity⟩ := h
    funext stem index
    simp only [Component.lines, hkind, hvalue, hvocabulary, hid, hreference, hqualifier,
      SecurityAttributes.lines_eq hsecurity]

instance : Legible AccessEntity where
  lines_eq {a b} h := by
    have h : (a.toBase == b.toBase && (a.kind == b.kind && (a.systemName == b.systemName &&
      (a.values == b.values && a.security == b.security)))) = true := h
    simp only [Bool.and_eq_true, beq_iff_eq] at h
    obtain ⟨-, hkind, hsystem, hvalues, hsecurity⟩ := h
    funext stem index
    simp only [Component.lines, hkind, linesOfOption_eq hsystem, linesOfAll_eq hvalues,
      SecurityAttributes.lines_eq hsecurity]

instance : Legible ProfileList where
  lines_eq {a b} h := by
    have h : (a.toBase == b.toBase && (a.profiles == b.profiles && a.security == b.security)) =
      true := h
    simp only [Bool.and_eq_true] at h
    obtain ⟨-, hprofiles, hsecurity⟩ := h
    funext stem index
    simp only [Component.lines, linesOfAll_eq hprofiles, SecurityAttributes.lines_eq hsecurity]

instance : Legible Access where
  lines_eq {a b} h := by
    have h : (a.toBase == b.toBase && (a.individuals == b.individuals && (a.groups == b.groups &&
      (a.profileList == b.profileList && a.security == b.security)))) = true := h
    simp only [Bool.and_eq_true] at h
    obtain ⟨-, hindividuals, hgroups, hprofiles, hsecurity⟩ := h
    funext stem index
    simp only [Component.lines, linesOfAll_eq hindividuals, linesOfAll_eq hgroups,
      linesOfOption_eq hprofiles, SecurityAttributes.lines_eq hsecurity]

instance : Legible Security where
  lines_eq {a b} h := by
    have h : (a.toBase == b.toBase && (a.excludeFromRollup == b.excludeFromRollup &&
      (a.noticeList == b.noticeList && (a.access == b.access && a.security == b.security)))) =
      true := h
    simp only [Bool.and_eq_true, beq_iff_eq] at h
    obtain ⟨hbase, hexclude, hnotices, haccess, hsecurity⟩ := h
    funext stem index
    simp only [Component.lines, Base.lineName_eq hbase, hexclude, linesOfOption_eq hnotices,
      linesOfOption_eq haccess, SecurityAttributes.lines_eq hsecurity]

end Protection

section Subjects

instance : Legible Keyword where
  lines_eq {a b} h := by
    have h : (a.toBase == b.toBase && (a.value == b.value && (a.security == b.security &&
      a.extensible == b.extensible))) = true := h
    simp only [Bool.and_eq_true, beq_iff_eq] at h
    obtain ⟨hbase, hvalue, hsecurity, hextensible⟩ := h
    funext stem index
    simp only [Component.lines, Base.lineName_eq hbase, hvalue,
      SecurityAttributes.lines_eq hsecurity, hextensible]

instance : Legible Category where
  lines_eq {a b} h := by
    have h : (a.toBase == b.toBase && (a.qualifier == b.qualifier && (a.code == b.code &&
      (a.label == b.label && (a.security == b.security && a.extensible == b.extensible))))) =
      true := h
    simp only [Bool.and_eq_true, beq_iff_eq] at h
    obtain ⟨hbase, hqualifier, hcode, hlabel, hsecurity, hextensible⟩ := h
    funext stem index
    simp only [Component.lines, Base.lineName_eq hbase, hqualifier, hcode, hlabel,
      SecurityAttributes.lines_eq hsecurity, hextensible]

instance : Legible ProductionMetric where
  lines_eq {a b} h := by
    have h : (a.toBase == b.toBase && (a.subject == b.subject && (a.coverage == b.coverage &&
      a.security == b.security))) = true := h
    simp only [Bool.and_eq_true, beq_iff_eq] at h
    obtain ⟨hbase, hsubject, hcoverage, hsecurity⟩ := h
    funext stem index
    simp only [Component.lines, Base.lineName_eq hbase, hsubject, hcoverage,
      SecurityAttributes.lines_eq hsecurity]

instance : Legible NonStateActor where
  lines_eq {a b} h := by
    have h : (a.toBase == b.toBase && (a.value == b.value && (a.order == b.order &&
      (a.qualifier == b.qualifier && a.security == b.security)))) = true := h
    simp only [Bool.and_eq_true, beq_iff_eq] at h
    obtain ⟨hbase, hvalue, horder, hqualifier, hsecurity⟩ := h
    funext stem index
    simp only [Component.lines, Base.lineName_eq hbase, hvalue, horder, hqualifier,
      SecurityAttributes.lines_eq hsecurity]

theorem SubjectCoverage.lines_eq {a b : SubjectCoverage} (h : (a == b) = true)
    (hv : a.version = b.version) : Component.lines a = Component.lines b := by
  have h : (a.toBase == b.toBase && (a.keywords == b.keywords && (a.categories == b.categories &&
    (a.productionMetrics == b.productionMetrics && (a.nonStateActors == b.nonStateActors &&
    a.security == b.security))))) = true := h
  simp only [Bool.and_eq_true] at h
  obtain ⟨hbase, hkeywords, hcategories, hmetrics, hactors, hsecurity⟩ := h
  funext stem index
  simp only [Component.lines, Base.lineName_eq hbase, hv, linesOfAll_eq hkeywords,
    linesOfAll_eq hcategories, linesOfAll_eq hmetrics, linesOfAll_eq hactors,
    SecurityAttributes.lines_eq hsecurity]

end Subjects

section Times

instance : Legible VirtualCoverage where
  lines_eq {a b} h := by
    have h : (a.toBase == b.toBase && (a.address == b.address && (a.protocol == b.protocol &&
      a.security == b.security))) = true := h
    simp only [Bool.and_eq_true, beq_iff_eq] at h
    obtain ⟨hbase, haddress, hprotocol, hsecurity⟩ := h
    funext stem index
    simp only [Component.lines, Base.lineName_eq hbase, haddress, hprotocol,
      SecurityAttributes.lines_eq hsecurity]

theorem TemporalCoverage.boundLines_eq {o q : Option TimeBound} (h : (o == q) = true)
    (stem localName : String) : boundLines stem localName o = boundLines stem localName q := by
  rcases o with _ | x | x <;> rcases q with _ | y | y <;> first
    | rfl
    | exact absurd h Bool.false_ne_true
    | skip
  · have hvalue : x = y := eq_of_beq h
    rw [hvalue]
  · exact congrFun (Component.lines_alone_eq x y h) stem

theorem TemporalCoverage.lines_eq {a b : TemporalCoverage} (h : (a == b) = true)
    (hv : a.version = b.version) : Component.lines a = Component.lines b := by
  have h : (a.toBase == b.toBase && (a.given == b.given && (a.start == b.start &&
    (a.finish == b.finish && a.security == b.security)))) = true := h
  simp only [Bool.and_eq_true, beq_iff_eq] at h
  obtain ⟨hbase, hgiven, hstart, hfinish, hsecurity⟩ := h
  funext stem index
  simp only [Component.lines, Base.lineName_eq hbase, hv, timePeriodName, hgiven,
    boundLines_eq hstart, boundLines_eq hfinish, SecurityAttributes.lines_eq hsecurity]

end Times

section Places

instance : Legible AreaCode where
  lines_eq {a b} h := by
    have h : (a.toBase == b.toBase && (a.kind == b.kind && (a.qualifier == b.qualifier &&
      a.value == b.value))) = true := h
    simp only [Bool.and_eq_true, beq_iff_eq] at h
    obtain ⟨hbase, -, hqualifier, hvalue⟩ := h
    funext stem index
    simp only [Component.lines, Base.lineName_eq hbase, hqualifier, hvalue]

instance : Legible FacilityIdentifier where
  lines_eq {a b} h := by
    have h : (a.toBase == b.toBase && (a.beNumber == b.beNumber && a.osuffix == b.osuffix)) =
      true := h
    simp only [Bool.and_eq_true, beq_iff_eq] at h
    obtain ⟨hbase, hnumber, hsuffix⟩ := h
    funext stem index
    simp only [Component.lines, Base.lineName_eq hbase, hnumber, hsuffix]

instance : Legible GeographicIdentifier where
  lines_eq {a b} h := by
    have h : (a.toBase == b.toBase && (a.names == b.names && (a.regions == b.regions &&
      (a.countryCode == b.countryCode && (a.subDivisionCode == b.subDivisionCode &&
      a.facilityIdentifier == b.facilityIdentifier))))) = true := h
    simp only [Bool.and_eq_true, beq_iff_eq] at h
    obtain ⟨hbase, hnames, hregions, hcountry, hdivision, hfacility⟩ := h
    funext stem index
    simp only [Component.lines, Base.lineName_eq hbase, hnames, hregions,
      linesOfOption_eq hcountry, linesOfOption_eq hdivision, linesOfOption_eq hfacility]

instance : Legible PostalAddress where
  lines_eq {a b} h := by
    have h : (a.toBase == b.toBase && (a.streets == b.streets && (a.city == b.city &&
      (a.state == b.state && (a.province == b.province && (a.postalCode == b.postalCode &&
      a.countryCode == b.countryCode)))))) = true := h
    simp only [Bool.and_eq_true, beq_iff_eq] at h
    obtain ⟨hbase, hstreets, hcity, hstate, hprovince, hpostal, hcountry⟩ := h
    funext stem index
    simp only [Component.lines, Base.lineName_eq hbase, hstreets, hcity, hstate, hprovince, hpostal,
      linesOfOption_eq hcountry]

end Places

section Numbers

/-- The kinds of components with numbers, of which equal ones with the same numbers have the same
lines. -/
class Measured (α : Type) [BEq α] [Component α] where
  numbers : α → List Double
  length_eq : ∀ {a b : α}, (a == b) = true → (numbers a).length = (numbers b).length
  lines_eq : ∀ {a b : α}, (a == b) = true → numbers a = numbers b →
    Component.lines a = Component.lines b

namespace Measured

variable {α : Type} [BEq α] [Component α] [Measured α]

theorem linesOfAll_eq {as bs : List α} (h : (as == bs) = true)
    (hn : as.flatMap numbers = bs.flatMap numbers) :
    Component.linesOfAll as = Component.linesOfAll bs :=
  Component.linesOfAll_congr (map_of_beq_of_flatMap length_eq (fun _ _ _ _ => lines_eq) h hn)

theorem length_option {o q : Option α} (h : (o == q) = true) :
    ((o.map numbers).getD []).length = ((q.map numbers).getD []).length := by
  cases o <;> cases q
  · rfl
  · cases h
  · cases h
  · exact length_eq h

/-- The numbers of a draft, of a component that may be absent, are those of the component. -/
theorem getD_numbers {δ : Type} {draft : α → δ} {count : δ → List Double} {d : δ}
    (hd : count d = []) (h : ∀ c, count (draft c) = numbers c) (o : Option α) :
    count ((o.map draft).getD d) = (o.map numbers).getD [] := by
  cases o with
  | none => exact hd
  | some c => exact h c

theorem linesOfOption_eq {o q : Option α} (h : (o == q) = true)
    (hn : (o.map numbers).getD [] = (q.map numbers).getD []) :
    Component.linesOfOption o = Component.linesOfOption q := by
  refine Component.linesOfOption_congr ?_
  cases o <;> cases q
  · rfl
  · cases h
  · cases h
  · exact congrArg some (lines_eq h hn)

end Measured

open Measured (numbers)

namespace BoundingBox

theorem parts_of_beq {a b : BoundingBox} (h : (a == b) = true) : (a.toBase == b.toBase) = true ∧
    ([a.west, a.east, a.south, a.north] == [b.west, b.east, b.south, b.north]) = true := by
  have h : (a.toBase == b.toBase && (a.west == b.west && (a.east == b.east &&
    (a.south == b.south && a.north == b.north)))) = true := h
  simpa [List.cons_beq_cons] using h

instance : Measured BoundingBox where
  numbers c := c.toDraft.numbers
  length_eq h := length_filterMap_id (parts_of_beq h).2
  lines_eq {a b} h hn := by
    obtain ⟨hbase, hbounds⟩ := parts_of_beq h
    have hsame : [a.west, a.east, a.south, a.north] = [b.west, b.east, b.south, b.north] :=
      eq_of_filterMap_id hbounds hn
    simp only [List.cons.injEq, and_true] at hsame
    funext stem index
    simp only [Component.lines, Base.lineName_eq hbase, hsame]

end BoundingBox

namespace VerticalExtent

theorem parts_of_beq {a b : VerticalExtent} (h : (a == b) = true) :
    (a.toBase == b.toBase) = true ∧ ([a.minimum, a.maximum] == [b.minimum, b.maximum]) = true ∧
      a.unitOfMeasure = b.unitOfMeasure ∧ a.datum = b.datum := by
  have h : (a.toBase == b.toBase && (a.minimum == b.minimum && (a.maximum == b.maximum &&
    (a.unitOfMeasure == b.unitOfMeasure && a.datum == b.datum)))) = true := h
  simpa [List.cons_beq_cons, and_assoc] using h

instance : Measured VerticalExtent where
  numbers c := c.toDraft.numbers
  length_eq h := length_filterMap_id (parts_of_beq h).2.1
  lines_eq {a b} h hn := by
    obtain ⟨hbase, hheights, hunit, hdatum⟩ := parts_of_beq h
    have hsame : [a.minimum, a.maximum] = [b.minimum, b.maximum] := eq_of_filterMap_id hheights hn
    simp only [List.cons.injEq, and_true] at hsame
    funext stem index
    simp only [Component.lines, Base.lineName_eq hbase, hunit, hdatum, hsame]

end VerticalExtent

namespace Position

theorem parts_of_beq {a b : Position} (h : (a == b) = true) :
    (a.toBase == b.toBase) = true ∧ (a.coordinates == b.coordinates) = true ∧ a.srs = b.srs := by
  have h : (a.toBase == b.toBase && (a.coordinates == b.coordinates && a.srs == b.srs)) = true := h
  simpa using h

instance : Measured Position where
  numbers c := c.coordinates
  length_eq h := length_of_beq (parts_of_beq h).2.1
  lines_eq h hn := by
    obtain ⟨hbase, -, hsrs⟩ := parts_of_beq h
    funext stem index
    simp only [Component.lines, Base.lineName_eq hbase, hn, hsrs]

end Position

namespace Point

theorem parts_of_beq {a b : Point} (h : (a == b) = true) : (a.toBase == b.toBase) = true ∧
    a.id = b.id ∧ a.srs = b.srs ∧ (a.position == b.position) = true := by
  have h : (a.toBase == b.toBase && (a.id == b.id && (a.srs == b.srs &&
    a.position == b.position))) = true := h
  simpa using h

instance : Measured Point where
  numbers c := (c.position.map numbers).getD []
  length_eq h := Measured.length_option (parts_of_beq h).2.2.2
  lines_eq h hn := by
    obtain ⟨hbase, hid, hsrs, hposition⟩ := parts_of_beq h
    funext stem index
    simp only [Component.lines, Base.lineName_eq hbase, hid, hsrs,
      Measured.linesOfOption_eq hposition hn]

end Point

namespace Polygon

theorem parts_of_beq {a b : Polygon} (h : (a == b) = true) : (a.toBase == b.toBase) = true ∧
    a.id = b.id ∧ a.srs = b.srs ∧ (a.positions == b.positions) = true := by
  have h : (a.toBase == b.toBase && (a.id == b.id && (a.srs == b.srs &&
    a.positions == b.positions))) = true := h
  simpa using h

instance : Measured Polygon where
  numbers c := c.positions.flatMap numbers
  length_eq h := length_flatMap_of_beq Measured.length_eq (parts_of_beq h).2.2.2
  lines_eq h hn := by
    obtain ⟨hbase, hid, hsrs, hpositions⟩ := parts_of_beq h
    funext stem index
    simp only [Component.lines, Base.lineName_eq hbase, hid, hsrs,
      Measured.linesOfAll_eq hpositions hn]

end Polygon

namespace BoundingGeometry

theorem parts_of_beq {a b : BoundingGeometry} (h : (a == b) = true) :
    (a.toBase == b.toBase) = true ∧ (a.polygons == b.polygons) = true ∧
      (a.points == b.points) = true := by
  have h : (a.toBase == b.toBase && (a.polygons == b.polygons && a.points == b.points)) = true := h
  simpa using h

instance : Measured BoundingGeometry where
  numbers c := c.polygons.flatMap numbers ++ c.points.flatMap numbers
  length_eq h := by
    obtain ⟨-, hpolygons, hpoints⟩ := parts_of_beq h
    rw [List.length_append, List.length_append, length_flatMap_of_beq Measured.length_eq hpolygons,
      length_flatMap_of_beq Measured.length_eq hpoints]
  lines_eq h hn := by
    obtain ⟨hbase, hpolygons, hpoints⟩ := parts_of_beq h
    obtain ⟨hfirst, hlast⟩ :=
      List.append_inj hn (length_flatMap_of_beq Measured.length_eq hpolygons)
    funext stem index
    simp only [Component.lines, Base.lineName_eq hbase, Measured.linesOfAll_eq hpolygons hfirst,
      Measured.linesOfAll_eq hpoints hlast]

end BoundingGeometry

namespace GeospatialExtents

/-- The numbers in the descriptions that are there. -/
def numbers (x : GeospatialExtents) : List Double :=
  (x.boundingBox.map Measured.numbers).getD [] ++
    (x.boundingGeometry.map Measured.numbers).getD [] ++
    (x.verticalExtent.map Measured.numbers).getD []

theorem parts_of_beq {x y : GeospatialExtents} (h : (x == y) = true) :
    (x.geographicIdentifier == y.geographicIdentifier) = true ∧
      (x.boundingBox == y.boundingBox) = true ∧
      (x.boundingGeometry == y.boundingGeometry) = true ∧
      (x.postalAddress == y.postalAddress) = true ∧
      (x.verticalExtent == y.verticalExtent) = true := by
  have h : (x.geographicIdentifier == y.geographicIdentifier && (x.boundingBox == y.boundingBox &&
    (x.boundingGeometry == y.boundingGeometry && (x.postalAddress == y.postalAddress &&
    x.verticalExtent == y.verticalExtent)))) = true := h
  simpa using h

theorem length_numbers {x y : GeospatialExtents} (h : (x == y) = true) :
    x.numbers.length = y.numbers.length := by
  obtain ⟨-, hbox, hgeometry, -, hvertical⟩ := parts_of_beq h
  simp only [numbers, List.length_append, Measured.length_option hbox,
    Measured.length_option hgeometry, Measured.length_option hvertical]

theorem lines_eq {x y : GeospatialExtents} (h : (x == y) = true) (hn : x.numbers = y.numbers) :
    x.lines = y.lines := by
  obtain ⟨hidentifier, hbox, hgeometry, haddress, hvertical⟩ := parts_of_beq h
  obtain ⟨hfirst, hheights⟩ := List.append_inj' hn (Measured.length_option hvertical)
  obtain ⟨hbounds, hshapes⟩ := List.append_inj' hfirst (Measured.length_option hgeometry)
  funext stem
  simp only [lines, linesOfOption_eq hidentifier, Measured.linesOfOption_eq hbox hbounds,
    Measured.linesOfOption_eq hgeometry hshapes, linesOfOption_eq haddress,
    Measured.linesOfOption_eq hvertical hheights]

end GeospatialExtents

theorem GeospatialCoverage.extents_of_beq {a b : GeospatialCoverage} (h : (a == b) = true) :
    (a.extents == b.extents) = true := by
  have h : (a.toBase == b.toBase && (a.extents == b.extents && (a.precedence == b.precedence &&
    (a.order == b.order && a.security == b.security)))) = true := h
  rw [Bool.and_eq_true, Bool.and_eq_true] at h
  exact h.2.1

theorem GeospatialCoverage.lines_eq {a b : GeospatialCoverage} (h : (a == b) = true)
    (hv : a.version = b.version) (hn : a.extents.numbers = b.extents.numbers) :
    Component.lines a = Component.lines b := by
  have h : (a.toBase == b.toBase && (a.extents == b.extents && (a.precedence == b.precedence &&
    (a.order == b.order && a.security == b.security)))) = true := h
  simp only [Bool.and_eq_true, beq_iff_eq] at h
  obtain ⟨hbase, hextents, hprecedence, horder, hsecurity⟩ := h
  funext stem index
  simp only [Component.lines, Base.lineName_eq hbase, hv, GeospatialExtents.lines_eq hextents hn,
    hprecedence, horder, SecurityAttributes.lines_eq hsecurity]

section Drafts

theorem Position.draft_numbers (c : Position) : c.toDraft.numbers = numbers c := by
  simp [toDraft, Draft.numbers, numbers]

theorem Point.draft_numbers (c : Point) : c.toDraft.numbers = numbers c :=
  Measured.getD_numbers rfl Position.draft_numbers c.position

theorem Polygon.draft_numbers (c : Polygon) : c.toDraft.numbers = numbers c := by
  simp only [toDraft, Draft.numbers, List.flatMap_map, Position.draft_numbers]
  rfl

theorem BoundingGeometry.draft_numbers (c : BoundingGeometry) :
    c.toDraft.numbers = numbers c := by
  simp only [toDraft, Draft.numbers, List.flatMap_map, Polygon.draft_numbers,
    Point.draft_numbers]
  rfl

theorem GeospatialCoverage.draft_numbers (c : GeospatialCoverage) :
    c.toDraft.numbers = c.extents.numbers := by
  have hbox : ((c.extents.boundingBox.map BoundingBox.toDraft).getD {}).numbers =
      (c.extents.boundingBox.map numbers).getD [] := by cases c.extents.boundingBox <;> rfl
  have hgeometry : ((c.extents.boundingGeometry.map BoundingGeometry.toDraft).getD {}).numbers =
      (c.extents.boundingGeometry.map numbers).getD [] :=
    Measured.getD_numbers rfl BoundingGeometry.draft_numbers _
  have hvertical : ((c.extents.verticalExtent.map VerticalExtent.toDraft).getD {}).numbers =
      (c.extents.verticalExtent.map numbers).getD [] := by cases c.extents.verticalExtent <;> rfl
  rw [toDraft, Draft.numbers, hbox, hgeometry, hvertical, GeospatialExtents.numbers]

end Drafts

end Numbers

end DiscoveryMetadata
