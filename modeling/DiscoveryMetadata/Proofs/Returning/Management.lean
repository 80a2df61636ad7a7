import DiscoveryMetadata.Management
import DiscoveryMetadata.Proofs.Rebuilding.Management
import DiscoveryMetadata.Proofs.Returning.Roles
import DiscoveryMetadata.Proofs.Returning.Subjects
/-
  The management of a resource is read again from the elements that it is made into.
-/
namespace DiscoveryMetadata

open Buildable
open Xml (Element IsName QName)
open Xml.Element (Regular)

variable {fit : String → Prop} {ctx : Context} {v : Version} {s : SecurityAttributes}
  {sd : SecurityAttributes.Draft}

namespace ManagedText

variable {c : ManagedText} {kind : Kind} {value : String}

theorem make_returns (hv : fit value) (hs : sd.commitAs ctx v = .ok s)
    (h : make ctx v kind value s = .ok c) :
    Returns fit ofElement ctx v (ctx.ddmsName v kind.name) c := by
  simp only [make, bind_ok, within_ok] at h
  obtain ⟨e, he, hc⟩ := h
  have hsec := SecurityAttributes.ofElement_addTo hs he (by simp)
  obtain ⟨-, rfl⟩ := SecurityAttributes.addTo_ok.1 he
  have hkind : IsName kind.name ∧ Kind.ofName? kind.name = some kind := by cases kind <;> decide
  refine .of_made hc (fun _ => rfl) ?_ (by simp [Component.base])
    ((Regular.textElement hkind.1 hv).mark hs)
  simp only [Component.base, ofElement, Element.localName, SecurityAttributes.name_mark,
    Context.name_textElement, Context.localName_ddmsName, hkind.2, bind_ok, within_ok]
  refine ⟨s, hsec, ?_⟩
  convert hc using 2
  simp

/-- The texts of elements. -/
def Draft.texts (d : Draft) : List String := [d.value]

theorem build_returns {d : Draft} (ht : ∀ t ∈ d.texts, fit t) (h : build ctx v d = .ok c) :
    Returns fit ofElement ctx v (ctx.ddmsName v d.kind.name) c := by
  obtain ⟨s, hs, h⟩ := bind_ok.1 h
  exact make_returns (by simpa [Draft.texts] using ht) hs h

end ManagedText

namespace RecordKeeper

variable {c : RecordKeeper} {recordKeeperId : String} {organization : Organization}

theorem make_returns (hid : fit recordKeeperId)
    (ho : Returns fit Organization.ofElement ctx v (ctx.ddmsName v (Entity.name v "organization"))
      organization)
    (h : make ctx v recordKeeperId organization = .ok c) :
    Returns fit ofElement ctx v (ctx.ddmsName v "recordKeeper") c := by
  obtain ⟨e, he⟩ : ∃ e, e = (ctx.ddmsElement v "recordKeeper").add
      (ctx.textElements v "recordKeeperID" recordKeeperId ++ [organization.element]) := ⟨_, rfl⟩
  have hmade : checked ⟨⟨e, v, []⟩, recordKeeperId, some organization⟩ = .ok c := he ▸ h
  have hfind : ∀ l, e.childrenNamed v.ddmsUri l =
      (if "recordKeeperID" = l then ctx.textElements v "recordKeeperID" recordKeeperId else []) ++
        (if Entity.name v "organization" = l then [organization.element] else []) := by
    intro l
    have hon : ∀ e ∈ [organization.element], e.name = _ := List.forall_mem_singleton.2 ho.name
    rw [he, Element.childrenNamed, Element.children_add, Context.children_ddmsElement,
      List.nil_append, List.filter_append, filter_named (names_textElements ctx v _ _),
      filter_named hon]
    simp
  have hother : "recordKeeperID" ≠ Entity.name v "organization" := by cases v <;> decide
  refine .of_made (e := e) hmade (fun _ => rfl) ?_ (by simp [he]) ?_
  · have huri : e.uri = v.ddmsUri := by simp [he]
    have hchild : e.child? v.ddmsUri (Entity.name v "organization") = some organization.element := by
      rw [Element.child?_eq, hfind, if_neg hother, if_pos rfl]
      rfl
    have hread : e.ownText "recordKeeperID" = recordKeeperId := by
      rw [Element.ownText, Element.ownChild?, huri, Element.child?_eq, hfind, if_pos rfl,
        if_neg hother.symm, List.append_nil]
      exact content_textElements ctx v _ _
    simp only [ofElement, hchild, hread, bind_ok, within_ok]
    exact ⟨some organization, readOption_returns (o := some organization) (by simpa using ho), hmade⟩
  · rw [he]
    exact (Regular.ddmsElement (by decide)).add (List.forall_mem_append.2
      ⟨Regular.textElements (by decide) hid, List.forall_mem_singleton.2 ho.regular⟩)

/-- The texts of elements. -/
def Draft.texts (d : Draft) : List String := d.recordKeeperId :: d.organization.texts

theorem build_returns {d : Draft} (ht : ∀ t ∈ d.texts, fit t) (h : build ctx v d = .ok c) :
    Returns fit ofElement ctx v (ctx.ddmsName v "recordKeeper") c := by
  obtain ⟨hid, horganization⟩ := List.forall_mem_cons.1 ht
  obtain ⟨o, ho, h⟩ := bind_ok.1 h
  cases o with
  | none => simp only [within_ok, error_ok] at h
  | some organization =>
    exact make_returns hid (Organization.build_returns horganization (commitAs_some.1 ho).2) h

end RecordKeeper

namespace RecordsInfo

variable {c : RecordsInfo} {keeper : Option RecordKeeper} {software : Option ManagedText}
  {vital : Bool}

theorem make_returns
    (hk : ∀ k ∈ keeper, Returns fit RecordKeeper.ofElement ctx v (ctx.ddmsName v "recordKeeper") k)
    (hs : ∀ t ∈ software,
      Returns fit ManagedText.ofElement ctx v (ctx.ddmsName v "applicationSoftware") t)
    (h : make ctx v keeper software vital = .ok c) :
    Returns fit ofElement ctx v (ctx.ddmsName v "recordsManagementInfo") c := by
  obtain ⟨e, he⟩ : ∃ e, e = ((ctx.ddmsElement v "recordsManagementInfo").add
      ((keeper.map (·.element)).toList ++ (software.map (·.element)).toList)).put
      (ctx.ddmsName v "vitalRecordIndicator") (Text.ofTruth vital) := ⟨_, rfl⟩
  have hmade : checked ⟨⟨e, v, []⟩, keeper, software, vital⟩ = .ok c := he ▸ h
  have hfind : ∀ l, e.childrenNamed v.ddmsUri l =
      (if "recordKeeper" = l then (keeper.map (·.element)).toList else []) ++
        (if "applicationSoftware" = l then (software.map (·.element)).toList else []) := by
    intro l
    have hkn : ∀ e ∈ (keeper.map (·.element)).toList, e.name = _ := names_returns_option hk
    have hsn : ∀ e ∈ (software.map (·.element)).toList, e.name = _ := names_returns_option hs
    simp [he, Element.childrenNamed, filter_named hkn, filter_named hsn]
  refine .of_made (e := e) hmade (fun _ => rfl) ?_ (by simp [he]) ?_
  · have hvital : e.attribute? (some v.ddmsUri) "vitalRecordIndicator" =
        some (Text.ofTruth vital) := by
      simp [he, Element.attribute?_put, Text.ofTruth_ne_empty]
    refine bind_ok.2 ⟨_, within_ok.2 ?_, hmade⟩
    simp only [hvital, Element.child?_eq, hfind, bind_ok, pure_ok]
    refine ⟨keeper, ?_, software, ?_, some vital, ?_, rfl⟩
    · simpa [Component.base] using readOption_returns hk
    · simpa [Component.base] using readOption_returns hs
    · simp [vitalOf]
  · rw [he]
    exact ((Regular.ddmsElement (by decide)).add (List.forall_mem_append.2
      ⟨regular_returns_option hk, regular_returns_option hs⟩)).putDdms (by decide)

/-- The texts of elements. -/
def Draft.texts (d : Draft) : List String := d.recordKeeper.texts ++ d.applicationSoftware.texts

theorem build_returns {d : Draft} (ht : ∀ t ∈ d.texts, fit t) (h : build ctx v d = .ok c) :
    Returns fit ofElement ctx v (ctx.ddmsName v "recordsManagementInfo") c := by
  obtain ⟨hkeeper, hsoftware⟩ := List.forall_mem_append.1 ht
  obtain ⟨keeper, hk, h⟩ := bind_ok.1 h
  obtain ⟨software, hs, h⟩ := bind_ok.1 h
  refine make_returns (commitAs_all (fun _ => RecordKeeper.build_returns hkeeper) hk) ?_ h
  rintro t rfl
  exact ManagedText.build_returns (d := { d.applicationSoftware with kind := .applicationSoftware })
    hsoftware (commitAs_some.1 hs).2

end RecordsInfo

/-- Link attributes of which none is there are in order. -/
theorem LinkAttributes.check_empty : ({} : LinkAttributes).check v = .ok () := by cases v <;> rfl

namespace TaskId

variable {c : TaskId} {value taskingSystem network otherNetwork : String} {link : LinkAttributes}

theorem usable_networkName : (networkName ctx v).Usable (ctx.bindings v) := by
  have hname : IsName "network" := by decide
  unfold networkName
  split
  · exact .listed (.intro (by simp [Context.bindings]) hname)
  · exact .bare hname

theorem make_returns (hv : fit value)
    (h : make ctx v value taskingSystem network otherNetwork link = .ok c) :
    Returns fit ofElement ctx v (ctx.ddmsName v "taskID") c := by
  refine .of_read h ?_ (by simp) (Link.regular_addTo
    ((((Regular.textElement (by decide) hv).putDdms (by decide)).put usable_networkName).put
      (.bare (by decide))))
  simp only [make, ofElement, bind_ok, within_ok, exists_unit, pure_ok] at h
  obtain ⟨l, -, -, rfl⟩ := h
  rfl

/-- The texts of elements. -/
def Draft.texts (d : Draft) : List String := [d.value]

theorem build_returns {d : Draft} (ht : ∀ t ∈ d.texts, fit t) (h : build ctx v d = .ok c) :
    Returns fit ofElement ctx v (ctx.ddmsName v "taskID") c := by
  obtain ⟨link, -, h⟩ := bind_ok.1 h
  exact make_returns (by simpa [Draft.texts] using ht) h

end TaskId

namespace TaskingInfo

variable {c : TaskingInfo} {requesters addressees : List TaskingRole}
  {description : Option Caption} {taskId : TaskId}

theorem make_returns
    (hr : ∀ r ∈ requesters,
      Returns fit TaskingRole.ofElement ctx v (ctx.ddmsName v "requesterInfo") r)
    (ha : ∀ r ∈ addressees, Returns fit TaskingRole.ofElement ctx v (ctx.ddmsName v "addressee") r)
    (hd : ∀ d ∈ description, Returns fit Caption.ofElement ctx v (ctx.ddmsName v "description") d)
    (ht : Returns fit TaskId.ofElement ctx v (ctx.ddmsName v "taskID") taskId)
    (hs : sd.commitAs ctx v = .ok s)
    (h : make ctx v requesters addressees description taskId s = .ok c) :
    Returns fit ofElement ctx v (ctx.ddmsName v "taskingInfo") c := by
  obtain ⟨e', he'⟩ : ∃ e, e = (ctx.ddmsElement v "taskingInfo").add
      (requesters.map (·.element) ++ addressees.map (·.element) ++
        (description.map (·.element)).toList ++ [taskId.element]) := ⟨_, rfl⟩
  simp only [make, ← he', bind_ok, within_ok] at h
  obtain ⟨e, he, hmade⟩ := h
  have hsec := SecurityAttributes.ofElement_addTo hs he (by simp [he'])
  obtain ⟨-, rfl⟩ := SecurityAttributes.addTo_ok.1 he
  have hfind : ∀ l, (SecurityAttributes.mark ctx v s.values e').childrenNamed v.ddmsUri l =
      (if "requesterInfo" = l then requesters.map (·.element) else []) ++
        (if "addressee" = l then addressees.map (·.element) else []) ++
        (if "description" = l then (description.map (·.element)).toList else []) ++
        (if "taskID" = l then [taskId.element] else []) := by
    intro l
    have hrn : ∀ e ∈ requesters.map (·.element), e.name = _ := names_returns hr
    have han : ∀ e ∈ addressees.map (·.element), e.name = _ := names_returns ha
    have hdn : ∀ e ∈ (description.map (·.element)).toList, e.name = _ := names_returns_option hd
    have htn : ∀ e ∈ [taskId.element], e.name = _ := List.forall_mem_singleton.2 ht.name
    simp only [Element.childrenNamed, SecurityAttributes.children_mark, he', Element.children_add,
      Context.children_ddmsElement, List.nil_append, List.filter_append, filter_named hrn,
      filter_named han, filter_named hdn, filter_named htn]
    simp
  refine .of_made (e := SecurityAttributes.mark ctx v s.values e') hmade (fun _ => rfl) ?_
    (by simp [he']) (.mark ?_ hs)
  · simp only [ofElement, Element.child?_eq, hfind, bind_ok, within_ok]
    refine ⟨requesters, ?_, addressees, ?_, description, ?_, some taskId, ?_, s, hsec, hmade⟩
    · simpa [Component.base] using readAll_returns hr
    · simpa [Component.base] using readAll_returns ha
    · simpa [Component.base] using readOption_returns hd
    · simpa [Component.base] using readOption_returns (o := some taskId) (by simpa using ht)
  · rw [he']
    refine (Regular.ddmsElement (by decide)).add ?_
    simp only [List.forall_mem_append]
    exact ⟨⟨⟨regular_returns hr, regular_returns ha⟩, regular_returns_option hd⟩,
      List.forall_mem_singleton.2 ht.regular⟩

/-- The texts of elements. -/
def Draft.texts (d : Draft) : List String :=
  d.requesters.flatMap (·.texts) ++ d.addressees.flatMap (·.texts) ++ d.description.texts ++
    d.taskId.texts

theorem build_returns {d : Draft} (ht : ∀ t ∈ d.texts, fit t) (h : build ctx v d = .ok c) :
    Returns fit ofElement ctx v (ctx.ddmsName v "taskingInfo") c := by
  simp only [Draft.texts, List.forall_mem_append, List.forall_mem_flatMap] at ht
  obtain ⟨⟨⟨hrequesters, haddressees⟩, hdescription⟩, htask⟩ := ht
  obtain ⟨requesters, hr, h⟩ := bind_ok.1 h
  obtain ⟨addressees, ha, h⟩ := bind_ok.1 h
  obtain ⟨o, ho, h⟩ := bind_ok.1 h
  cases o with
  | none => simp only [within_ok, error_ok] at h
  | some taskId =>
    obtain ⟨description, hd, h⟩ := bind_ok.1 h
    obtain ⟨s, hs, h⟩ := bind_ok.1 h
    refine make_returns (commitAll_all ?_ hr) (commitAll_all ?_ ha) ?_
      (TaskId.build_returns htask (commitAs_some.1 ho).2) hs h
    · exact List.forall_mem_map.2 fun r hmem c hc =>
        TaskingRole.build_returns (d := { r with kind := .requesterInfo }) (hrequesters r hmem) hc
    · exact List.forall_mem_map.2 fun r hmem c hc =>
        TaskingRole.build_returns (d := { r with kind := .addressee }) (haddressees r hmem) hc
    · rintro c rfl
      exact Caption.build_returns (d := { d.description with kind := .description }) hdescription
        (commitAs_some.1 hd).2

end TaskingInfo

namespace ProcessingInfo

variable {c : ProcessingInfo} {value dateProcessed : String}

theorem make_returns (hv : fit value) (hs : sd.commitAs ctx v = .ok s)
    (h : make ctx v value dateProcessed s = .ok c) :
    Returns fit ofElement ctx v (ctx.ddmsName v "processingInfo") c := by
  simp only [make, bind_ok, within_ok] at h
  obtain ⟨e, he, hc⟩ := h
  have hsec := SecurityAttributes.ofElement_addTo hs he (by
    simp [Element.attribute?_put, v.ddmsUri_ne_ismUri])
  obtain ⟨-, rfl⟩ := SecurityAttributes.addTo_ok.1 he
  refine .of_made hc (fun _ => rfl) ?_ (by simp [Component.base])
    (((Regular.textElement (by decide) hv).putDdms (by decide)).mark hs)
  simp only [Component.base, ofElement, bind_ok, within_ok]
  refine ⟨s, hsec, ?_⟩
  convert hc using 2
  simp [Element.own, SecurityAttributes.attributeText_mark v.ddmsUri_ne_ismUri,
    Element.attributeText_put]

/-- The texts of elements. -/
def Draft.texts (d : Draft) : List String := [d.value]

theorem build_returns {d : Draft} (ht : ∀ t ∈ d.texts, fit t) (h : build ctx v d = .ok c) :
    Returns fit ofElement ctx v (ctx.ddmsName v "processingInfo") c := by
  obtain ⟨s, hs, h⟩ := bind_ok.1 h
  exact make_returns (by simpa [Draft.texts] using ht) hs h

end ProcessingInfo

namespace RevisionRecall

variable {c : RevisionRecall} {value revisionType network otherNetwork : String}
  {links : List Link} {details : List ManagedText} {revisionId : Int} {link : LinkAttributes}

theorem Draft.check_commitLink {d : Draft} (h : d.commitLink v = .ok link) :
    link.check v = .ok () := by
  unfold commitLink at h
  split at h
  · exact Except.ok.inj h ▸ LinkAttributes.check_empty
  · obtain ⟨hcheck, rfl⟩ := LinkAttributes.checked_ok.1 h
    exact hcheck

theorem idOf_intText {n : Int} (h : Text.fits 64 n = true) : idOf (toString n) = .ok n := by
  have htrim : Text.trim (toString n) = toString n :=
    Text.trim_of_no_space fun c hc => Text.isSpace_intText hc
  simp only [idOf, htrim, Text.int64?_intText h]

theorem make_returns (hv : fit value) (hn : Text.fits 64 revisionId = true)
    (hl : ∀ l ∈ links, Returns fit Link.ofElement ctx v (ctx.ddmsName v "link") l)
    (hd : ∀ t ∈ details, Returns fit ManagedText.ofElement ctx v (ctx.ddmsName v "details") t)
    (hlink : link.check v = .ok ()) (hs : sd.commitAs ctx v = .ok s)
    (h : make ctx v value links details revisionId revisionType network otherNetwork link s =
      .ok c) :
    Returns fit ofElement ctx v (ctx.ddmsName v "revisionRecall") c := by
  obtain ⟨e', he'⟩ : ∃ e, e = (((((ctx.textElement v "revisionRecall" value).add
      (links.map (·.element) ++ details.map (·.element))).put (ctx.ddmsName v "revisionID")
      (toString revisionId)).put (ctx.ddmsName v "revisionType") revisionType).put
      (.unqualified "network") network).put (.unqualified "otherNetwork") otherNetwork := ⟨_, rfl⟩
  simp only [make, ← he', bind_ok, within_ok] at h
  obtain ⟨e, he, hmade⟩ := h
  -- so far all names are unqualified or of DDMS, so that each group finds what it put there itself
  have hother : ∀ u l, u ≠ v.ddmsUri → e'.attribute? (some u) l = none := by
    intro u l hu
    simp [he', Element.attribute?_put, hu.symm]
  have hsec := SecurityAttributes.ofElement_addTo hs he fun n _ => by
    rw [LinkAttributes.attribute?_addTo (by simp [v.xlinkUri_ne_ismUri.symm])]
    exact hother _ _ v.ddmsUri_ne_ismUri.symm
  obtain ⟨-, rfl⟩ := SecurityAttributes.addTo_ok.1 he
  obtain ⟨e, hmarked⟩ : ∃ e, e = SecurityAttributes.mark ctx v s.values (link.addTo ctx e') :=
    ⟨_, rfl⟩
  rw [← hmarked] at hsec hmade
  have hread : LinkAttributes.ofElement v e = .ok link := by
    rw [hmarked, LinkAttributes.ofElement_mark, LinkAttributes.ofElement_addTo fun l =>
      hother _ l v.ddmsUri_ne_xlinkUri.symm]
    exact LinkAttributes.checked_ok.2 ⟨hlink, rfl⟩
  have hattribute : ∀ u l, u = some v.ddmsUri ∨ u = none →
      e.attribute? u l = e'.attribute? u l := by
    rintro u l (rfl | rfl)
    · rw [hmarked, SecurityAttributes.attribute?_mark (by simp [v.ddmsUri_ne_ismUri]),
        LinkAttributes.attribute?_addTo (by simp [v.ddmsUri_ne_xlinkUri])]
    · rw [hmarked, SecurityAttributes.attribute?_mark (by simp),
        LinkAttributes.attribute?_addTo (by simp)]
  have huri : e.uri = v.ddmsUri := by simp [hmarked, he']
  have hid : e.attribute? (some v.ddmsUri) "revisionID" = some (toString revisionId) := by
    have hne : revisionId.repr ≠ "" := Text.intText_ne_empty revisionId
    rw [hattribute _ _ (.inl rfl), he']
    simp [Element.attribute?_put, hne]
  have htype : e.own "revisionType" = revisionType := by
    rw [Element.own, huri, Element.attributeText, hattribute _ _ (.inl rfl), he']
    simp [Element.attribute?_put]
  have hnetwork : (e.attribute? none "network").getD "" = network := by
    rw [hattribute _ _ (.inr rfl), he']
    simp [Element.attribute?_put]
  have hotherNetwork : (e.attribute? none "otherNetwork").getD "" = otherNetwork := by
    rw [hattribute _ _ (.inr rfl), he']
    simp [Element.attribute?_put]
  have hcontent : e.content = value := by simp [hmarked, he']
  have hfind : ∀ l, e.childrenNamed v.ddmsUri l =
      (if "link" = l then links.map (·.element) else []) ++
        (if "details" = l then details.map (·.element) else []) := by
    intro l
    have hln : ∀ e ∈ links.map (·.element), e.name = _ := names_returns hl
    have hdn : ∀ e ∈ details.map (·.element), e.name = _ := names_returns hd
    simp [hmarked, he', Element.childrenNamed, filter_named hln, filter_named hdn]
  refine .of_made (e := e) hmade (fun _ => rfl) ?_ (by simp [hmarked, he']) ?_
  · simp only [ofElement, hfind, hid, htype, hnetwork, hotherNetwork, hcontent, bind_ok, within_ok]
    refine ⟨links, ?_, details, ?_, some revisionId, ?_, link, hread, s, hsec, hmade⟩
    · simpa [Component.base] using readAll_returns hl
    · simpa [Component.base] using readAll_returns hd
    · rw [Option.mapM_some, idOf_intText hn]
      rfl
  · rw [hmarked, he']
    refine (Link.regular_addTo (Regular.put (Regular.put (Regular.putDdms (Regular.putDdms
      ((Regular.textElement (by decide) hv).add ?_) (by decide)) (by decide)) (.bare (by decide)))
      (.bare (by decide)))).mark hs
    exact List.forall_mem_append.2 ⟨regular_returns hl, regular_returns hd⟩

namespace Draft

/-- The texts of elements. -/
def texts (d : Draft) : List String := d.value :: d.details.flatMap (·.texts)

/-- The whole numbers. -/
def integers (d : Draft) : List Int := d.revisionId.toList

end Draft

theorem build_returns {d : Draft} (hempty : fit "") (ht : ∀ t ∈ d.texts, fit t)
    (hn : ∀ n ∈ d.integers, Text.fits 64 n = true) (h : build ctx v d = .ok c) :
    Returns fit ofElement ctx v (ctx.ddmsName v "revisionRecall") c := by
  simp only [Draft.texts, List.forall_mem_cons, List.forall_mem_flatMap] at ht
  obtain ⟨n, link, s, ls, ts, hid, hlink, hs, hls, hts, h⟩ := build_ok h
  refine make_returns ?_ (hn n (by simp [Draft.integers, hid]))
    (commitAll_all (fun _ _ _ => Link.build_returns) hls) (commitAll_all ?_ hts)
    (Draft.check_commitLink hlink) hs h
  · split
    · exact ht.1
    · exact hempty
  · exact List.forall_mem_map.2 fun t hmem c hc =>
      ManagedText.build_returns (d := { t with kind := .details }) (ht.2 t hmem) hc

end RevisionRecall

namespace Management

variable {c : Management} {records : Option RecordsInfo} {revision : Option RevisionRecall}
  {taskings : List TaskingInfo} {processings : List ProcessingInfo}

theorem make_returns
    (hrecords : ∀ r ∈ records,
      Returns fit RecordsInfo.ofElement ctx v (ctx.ddmsName v "recordsManagementInfo") r)
    (hrevision : ∀ r ∈ revision,
      Returns fit RevisionRecall.ofElement ctx v (ctx.ddmsName v "revisionRecall") r)
    (ht : ∀ t ∈ taskings, Returns fit TaskingInfo.ofElement ctx v (ctx.ddmsName v "taskingInfo") t)
    (hp : ∀ p ∈ processings,
      Returns fit ProcessingInfo.ofElement ctx v (ctx.ddmsName v "processingInfo") p)
    (hs : sd.commitAs ctx v = .ok s)
    (h : make ctx v records revision taskings processings s = .ok c) :
    Returns fit ofElement ctx v (ctx.ddmsName v "resourceManagement") c := by
  obtain ⟨e', he'⟩ : ∃ e, e = (ctx.ddmsElement v "resourceManagement").add
      ((records.map (·.element)).toList ++ (revision.map (·.element)).toList ++
        taskings.map (·.element) ++ processings.map (·.element)) := ⟨_, rfl⟩
  simp only [make, ← he', bind_ok, within_ok] at h
  obtain ⟨e, he, hmade⟩ := h
  have hsec := SecurityAttributes.ofElement_addTo hs he (by simp [he'])
  obtain ⟨-, rfl⟩ := SecurityAttributes.addTo_ok.1 he
  have hfind : ∀ l, (SecurityAttributes.mark ctx v s.values e').childrenNamed v.ddmsUri l =
      (if "recordsManagementInfo" = l then (records.map (·.element)).toList else []) ++
        (if "revisionRecall" = l then (revision.map (·.element)).toList else []) ++
        (if "taskingInfo" = l then taskings.map (·.element) else []) ++
        (if "processingInfo" = l then processings.map (·.element) else []) := by
    intro l
    have hrn : ∀ e ∈ (records.map (·.element)).toList, e.name = _ := names_returns_option hrecords
    have hvn : ∀ e ∈ (revision.map (·.element)).toList, e.name = _ :=
      names_returns_option hrevision
    have htn : ∀ e ∈ taskings.map (·.element), e.name = _ := names_returns ht
    have hpn : ∀ e ∈ processings.map (·.element), e.name = _ := names_returns hp
    simp [Element.childrenNamed, he', filter_named hrn, filter_named hvn, filter_named htn,
      filter_named hpn]
  refine .of_made (e := SecurityAttributes.mark ctx v s.values e') hmade (fun _ => rfl) ?_
    (by simp [he']) (.mark ?_ hs)
  · refine bind_ok.2 ⟨_, within_ok.2 ?_, hmade⟩
    simp only [Element.child?_eq, hfind, bind_ok, pure_ok]
    refine ⟨records, ?_, revision, ?_, taskings, ?_, processings, ?_, s, hsec, rfl⟩
    · simpa [Component.base] using readOption_returns hrecords
    · simpa [Component.base] using readOption_returns hrevision
    · simpa [Component.base] using readAll_returns ht
    · simpa [Component.base] using readAll_returns hp
  · rw [he']
    refine (Regular.ddmsElement (by decide)).add ?_
    simp only [List.forall_mem_append]
    exact ⟨⟨⟨regular_returns_option hrecords, regular_returns_option hrevision⟩,
      regular_returns ht⟩, regular_returns hp⟩

namespace Draft

/-- The texts of elements. -/
def texts (d : Draft) : List String :=
  d.recordsInfo.texts ++ d.revisionRecall.texts ++ d.taskingInfos.flatMap (·.texts) ++
    d.processingInfos.flatMap (·.texts)

/-- The whole numbers. -/
def integers (d : Draft) : List Int := d.revisionRecall.integers

end Draft

theorem build_returns {d : Draft} (hempty : fit "") (ht : ∀ t ∈ d.texts, fit t)
    (hn : ∀ n ∈ d.integers, Text.fits 64 n = true) (h : build ctx v d = .ok c) :
    Returns fit ofElement ctx v (ctx.ddmsName v "resourceManagement") c := by
  simp only [Draft.texts, List.forall_mem_append, List.forall_mem_flatMap] at ht
  obtain ⟨⟨⟨hrecords, hrevision⟩, htaskings⟩, hprocessings⟩ := ht
  obtain ⟨records, hr, h⟩ := bind_ok.1 h
  obtain ⟨revision, hv, h⟩ := bind_ok.1 h
  obtain ⟨taskings, ht, h⟩ := bind_ok.1 h
  obtain ⟨processings, hp, h⟩ := bind_ok.1 h
  obtain ⟨s, hs, h⟩ := bind_ok.1 h
  exact make_returns (commitAs_all (fun _ => RecordsInfo.build_returns hrecords) hr)
    (commitAs_all (fun _ => RevisionRecall.build_returns hempty hrevision hn) hv)
    (commitAll_all (fun t hmem _ => TaskingInfo.build_returns (htaskings t hmem)) ht)
    (commitAll_all (fun p hmem _ => ProcessingInfo.build_returns (hprocessings p hmem)) hp) hs h

end Management

end DiscoveryMetadata
