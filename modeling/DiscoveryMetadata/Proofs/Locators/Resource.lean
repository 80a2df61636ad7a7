import DiscoveryMetadata.Proofs.Locators.Basic
/-
  Every warning of a resource that was read is about an element of the document.

  The readers of the records about a resource, of its protection and of the resource itself locate
  their warnings as all others do (`Locates`). So a warning of the resource is located by the names
  of the elements that lead down to one of them, where folded elements are left out, and by all of
  these names if none is folded (`Resource.warnings_located`). A document of version 2.0 with an
  empty extent shows that a name is indeed left out (`Resource.extent_misplaced`).
-/
namespace DiscoveryMetadata

open Xml (Element)

variable {ctx : Context} {v : Version}

/-- The one element lies in the other, at any depth. -/
def Contains : Element → Element → Prop := Relation.TransGen fun e c => c ∈ e.children

/-- Where no element is folded, all names are there. -/
theorem Descends.leads {e : Element} {names : List String} (h : Descends v e names)
    (hnone : ∀ w, Contains e w → ¬Folded v w) : Leads e names := by
  induction h with
  | here e => exact .here e
  | @down e c names hc _ ih =>
    rcases hc with hc | ⟨w, hw, hfold, -⟩
    · exact .down hc (ih fun w hw => hnone w (.head hc hw))
    · exact absurd hfold (hnone w (.single hw))

namespace Xml.Element

mutual

/-- All chains of names that lead down from the element. -/
def chains : Element → List (List String)
  | ⟨name, _, _, children, _⟩ => [name.written] :: (chainsAll children).map (name.written :: ·)

/-- All chains of names that lead down from some elements. -/
def chainsAll : List Element → List (List String)
  | [] => []
  | e :: es => chains e ++ chainsAll es

end

theorem mem_chainsAll {es : List Element} {e : Element} {names : List String} (he : e ∈ es)
    (h : names ∈ e.chains) : names ∈ chainsAll es := by
  induction es with
  | nil => cases he
  | cons d es ih =>
    rw [chainsAll, List.mem_append]
    rcases List.mem_cons.1 he with rfl | he
    · exact .inl h
    · exact .inr (ih he)

theorem mem_chains {e : Element} {names : List String} (h : Leads e names) : names ∈ e.chains := by
  induction h with
  | here e =>
    cases e
    exact List.mem_cons_self
  | @down e c names hc _ ih =>
    cases e
    exact List.mem_cons_of_mem _ (List.mem_map.2 ⟨names, mem_chainsAll hc ih, rfl⟩)

end Xml.Element

section Management

theorem Link.locates : Locates Link.ofElement ctx v := by
  intro e c h
  simp only [ofElement, bind_ok, within_ok] at h
  obtain ⟨_, -, s, hs, h⟩ := h
  exact .checked h (.security hs)

/-- A link without security attributes has no warnings. -/
theorem Link.warnings_of_isEmpty {e : Element} {c : Link} (h : ofElement ctx v e = .ok c)
    (hempty : c.security.isEmpty = true) : c.warnings = [] := by
  simp only [ofElement, checked, bind_ok, within_ok, check_ok, pure_ok, exists_unit] at h
  obtain ⟨_, -, s, hs, -, rfl⟩ := h
  simp [findings, Base.absorb, SecurityAttributes.warnings_of_isEmpty hs hempty]

namespace RelatedResource

theorem security_of_rules {c : RelatedResource} (h : c.rules = .ok ()) :
    ∀ l ∈ c.links, l.security.isEmpty = true := by
  simp only [rules, bind_ok, forM_ok, checkLink, demand_ok, exists_unit] at h
  obtain ⟨-, -, -, -, -, -, -, -, h⟩ := h
  exact fun l hl => (h l hl).2

theorem locates : Locates ofElement ctx v := by
  intro e c h
  simp only [ofElement, checked, bind_ok, within_ok, check_ok, pure_ok, exists_unit] at h
  obtain ⟨links, hl, s, hs, hrules, rfl⟩ := h
  refine .append (.append (.warnIf _ _) (.absorbAll ?_)) (.security hs)
  -- the wrapper of the links shows nowhere: the rules want links without marks, which are silent
  have hread : ∀ l ∈ links, l.security.isEmpty = true → l.warnings = [] := by
    split at hl
    · exact readAll_all (fun _ _ => Link.warnings_of_isEmpty) (withinHolder_ok.1 hl)
    · cases hl
      simp
  refine List.forall_mem_map.2 fun l hm => ?_
  rw [hread l hm (security_of_rules hrules l hm)]
  exact .nil

end RelatedResource

theorem ManagedText.locates : Locates ManagedText.ofElement ctx v := by
  intro e c h
  unfold ofElement at h
  split at h
  · simp only [within_ok, error_ok] at h
  · simp only [bind_ok, within_ok] at h
    obtain ⟨s, hs, h⟩ := h
    exact .checked h (.append (.warnIf _ _) (.security hs))

theorem ProcessingInfo.locates : Locates ProcessingInfo.ofElement ctx v := by
  intro e c h
  simp only [ofElement, bind_ok, within_ok] at h
  obtain ⟨s, hs, h⟩ := h
  exact .checked h (.append (.warnIf _ _) (.security hs))

theorem RecordKeeper.locates : Locates RecordKeeper.ofElement ctx v := by
  intro e c h
  simp only [ofElement, bind_ok, within_ok] at h
  obtain ⟨organization, ho, h⟩ := h
  exact .checked h (.absorbAll (Organization.locates.option seen_child? ho))

theorem RecordsInfo.locates : Locates RecordsInfo.ofElement ctx v := by
  intro e c h
  simp only [ofElement, bind_ok, within_ok, pure_ok] at h
  obtain ⟨_, ⟨keeper, hk, software, hs, _, -, rfl⟩, h⟩ := h
  exact .checked h (.absorbAll (List.forall_mem_append.2
    ⟨RecordKeeper.locates.option seen_child? hk, ManagedText.locates.option seen_child? hs⟩))

theorem RevisionRecall.locates : Locates RevisionRecall.ofElement ctx v := by
  intro e c h
  simp only [ofElement, bind_ok, within_ok] at h
  obtain ⟨links, hl, details, hd, _, -, _, -, s, hs, h⟩ := h
  refine .checked h (.append (.absorbAll (List.forall_mem_append.2 ⟨?_, ?_⟩)) (.security hs))
  · exact Link.locates.all seen_childrenNamed hl
  · exact ManagedText.locates.all seen_childrenNamed hd

theorem TaskId.silent : Silent TaskId.ofElement ctx v := by
  intro e c h
  simp only [ofElement, bind_ok, within_ok, check_ok, pure_ok, exists_unit] at h
  obtain ⟨_, -, -, rfl⟩ := h
  rfl

theorem TaskingInfo.locates : Locates TaskingInfo.ofElement ctx v := by
  intro e c h
  simp only [ofElement, bind_ok, within_ok] at h
  obtain ⟨rs, hr, as, ha, d, hd, t, ht, s, hs, h⟩ := h
  refine .checked h (.append (.absorbAll ?_) (.security hs))
  simp only [parts, List.forall_mem_append]
  exact ⟨⟨⟨TaskingRole.locates.all seen_childrenNamed hr,
    TaskingRole.locates.all seen_childrenNamed ha⟩, Caption.locates.option seen_child? hd⟩,
    TaskId.silent.option ht⟩

theorem Management.locates : Locates Management.ofElement ctx v := by
  intro e c h
  simp only [ofElement, bind_ok, within_ok, pure_ok] at h
  obtain ⟨_, ⟨records, hi, revision, hr, ts, ht, ps, hp, s, hs, rfl⟩, h⟩ := h
  refine .checked h (.append (.absorbAll ?_) (.security hs))
  simp only [parts, List.forall_mem_append]
  exact ⟨⟨⟨RecordsInfo.locates.option seen_child? hi,
    RevisionRecall.locates.option seen_child? hr⟩, TaskingInfo.locates.all seen_childrenNamed ht⟩,
    ProcessingInfo.locates.all seen_childrenNamed hp⟩

end Management

section Protection

theorem NoticeText.locates : Locates NoticeText.ofElement ctx v := by
  intro e c h
  simp only [ofElement, checked, bind_ok, within_ok, check_ok, pure_ok] at h
  obtain ⟨s, hs, ws, hws, rfl⟩ := h
  have hplaceless : Placeless ws := by
    simp only [rules, bind_ok] at hws
    obtain ⟨_, -, _, -, _, -, hws⟩ := hws
    exact ctx.checkTokens_placeless hws
  exact .append (.append (.attributes hplaceless) (.warnIf _ _)) (.security hs)

theorem Notice.locates : Locates Notice.ofElement ctx v := by
  intro e c h
  simp only [ofElement, bind_ok, within_ok] at h
  obtain ⟨texts, ht, s, hs, n, hn, h⟩ := h
  exact .checked h (.append
    (.append (.absorbAll (NoticeText.locates.all seen_childrenNamed ht)) (.security hs))
    (.attributes (NoticeAttributes.placeless hn)))

theorem NoticeList.locates : Locates NoticeList.ofElement ctx v := by
  intro e c h
  simp only [ofElement, bind_ok, within_ok] at h
  obtain ⟨notices, hn, s, hs, h⟩ := h
  exact .checked h (.append (.absorbAll (Notice.locates.all seen_childrenNamed hn)) (.security hs))

theorem AccessText.locates : Locates AccessText.ofElement ctx v := by
  intro e c h
  unfold ofElement at h
  split at h
  · simp only [within_ok, error_ok] at h
  · simp only [bind_ok, within_ok] at h
    obtain ⟨_, -, s, hs, h⟩ := h
    exact .checked h (.append (.warnIf _ _) (.security hs))

theorem AccessEntity.locates : Locates AccessEntity.ofElement ctx v := by
  intro e c h
  unfold ofElement at h
  split at h
  · simp only [within_ok, error_ok] at h
  · simp only [bind_ok, within_ok] at h
    obtain ⟨_, -, system, hsystem, values, hv, s, hs, h⟩ := h
    refine .checked h (.append (.absorbAll (List.forall_mem_append.2 ⟨?_, ?_⟩)) (.security hs))
    · exact AccessText.locates.option seen_child? hsystem
    · exact AccessText.locates.all seen_childrenNamed hv

theorem ProfileList.locates : Locates ProfileList.ofElement ctx v := by
  intro e c h
  simp only [ofElement, bind_ok, within_ok] at h
  obtain ⟨_, -, profiles, hp, s, hs, h⟩ := h
  exact .checked h
    (.append (.absorbAll (AccessEntity.locates.all seen_childrenNamed hp)) (.security hs))

namespace Access

theorem entriesOf_inside {e : Element} {uri listName : String}
    (hfold : ∀ w : Element, w.localName = listName → Folded v w) {cs : List AccessEntity}
    (h : entriesOf ctx v (e.child? uri listName) = .ok cs) :
    ∀ x ∈ cs.map Component.base, Inside v e x.warnings := by
  unfold entriesOf at h
  split at h
  next list hlist =>
    have hname := List.find?_some hlist
    refine AccessEntity.locates.all (fun d hd => ?_) (within_ok.1 h)
    exact .inr ⟨list, List.mem_of_find?_eq_some hlist, hfold list (localName_eq hname), hd⟩
  next =>
    cases h
    simp

theorem locates : Locates ofElement ctx v := by
  intro e c h
  simp only [ofElement, bind_ok, within_ok] at h
  obtain ⟨_, -, is, hi, gs, hg, ps, hp, s, hs, h⟩ := h
  refine .checked h (.append (.append (.warnIf _ _) (.absorbAll ?_)) (.security hs))
  simp only [parts, List.forall_mem_append]
  exact ⟨⟨entriesOf_inside (fun _ hw => .inr (.inl hw)) hi,
    entriesOf_inside (fun _ hw => .inr (.inr hw)) hg⟩, ProfileList.locates.option seen_child? hp⟩

end Access

theorem Security.locates : Locates Security.ofElement ctx v := by
  intro e c h
  simp only [ofElement, bind_ok, within_ok] at h
  obtain ⟨notices, hn, access, ha, s, hs, h⟩ := h
  refine .checked h (.append (.absorbAll (List.forall_mem_append.2 ⟨?_, ?_⟩)) (.security hs))
  · exact NoticeList.locates.option seen_child? hn
  · refine Access.locates.option (fun d hd => .inl ?_) ha
    unfold accessElements at hd
    split at hd
    · exact List.mem_of_mem_filter (List.mem_of_mem_head? hd)
    · cases hd

end Protection

section Resource

theorem ExtensibleElement.silent : Silent ExtensibleElement.ofElement ctx v := by
  intro e c h
  simp only [ofElement, bind_ok, check_ok, pure_ok, exists_unit] at h
  obtain ⟨-, rfl⟩ := h
  rfl

namespace TopLevel

/-- A component of one kind, wrapped as a component of a resource. -/
theorem map_located {α : Type} [Component α] {wrap : α → TopLevel} {e : Element} {x : Outcome α}
    {t : TopLevel} (h : ∀ c, x = .ok c → Located v e (Component.base c).warnings)
    (hw : ∀ c, (wrap c).base = Component.base c) (ht : x.map wrap = .ok t) :
    Located v e t.base.warnings := by
  obtain ⟨c, hc, rfl⟩ := map_ok.1 ht
  exact hw c ▸ h c hc

theorem ofDdmsElement_located {e : Element} {t : TopLevel} (h : ofDdmsElement ctx v e = .ok t) :
    Located v e t.base.warnings := by
  unfold ofDdmsElement at h
  split at h
  · exact map_located (Identifier.silent.locates (e := e)) (fun _ => rfl) h
  · exact map_located (Language.locates (e := e)) (fun _ => rfl) h
  · exact map_located (Dates.locates (e := e)) (fun _ => rfl) h
  · exact map_located (Rights.silent.locates (e := e)) (fun _ => rfl) h
  · exact map_located (Source.locates (e := e)) (fun _ => rfl) h
  · exact map_located (ResourceType.locates (e := e)) (fun _ => rfl) h
  · exact map_located (Format.locates (e := e)) (fun _ => rfl) h
  · exact map_located (SubjectCoverage.locates (e := e)) (fun _ => rfl) h
  · exact map_located (VirtualCoverage.locates (e := e)) (fun _ => rfl) h
  · exact map_located (TemporalCoverage.locates (e := e)) (fun _ => rfl) h
  · exact map_located (GeospatialCoverage.locates (e := e)) (fun _ => rfl) h
  · exact map_located (Security.locates (e := e)) (fun _ => rfl) h
  · split_ifs at h
    · exact map_located (Management.locates (e := e)) (fun _ => rfl) h
    · exact map_located (RelatedResource.locates (e := e)) (fun _ => rfl) h
    · exact map_located (Caption.locates (e := e)) (fun _ => rfl) h
    · exact map_located (ProducerRole.locates (e := e)) (fun _ => rfl) h

theorem ofElement_located {e : Element} {t : TopLevel} (h : ofElement ctx v e = .ok t) :
    Located v e t.base.warnings := by
  unfold ofElement at h
  split_ifs at h
  · exact ofDdmsElement_located h
  · exact map_located (ExtensibleElement.silent.locates (e := e)) (fun _ => rfl) h

end TopLevel

namespace Resource

theorem ofElement_located {e : Element} {r : Resource} (h : ofElement ctx v e = .ok r) :
    Located v e r.warnings := by
  simp only [ofElement, bind_ok, within_ok] at h
  obtain ⟨_, -, ts, ht, s, hs, n, hn, h⟩ := h
  refine .checked h (.append (.append (.append (.warnIf _ _) (.absorbAll ?_)) (.security hs))
    (.attributes (NoticeAttributes.placeless hn)))
  have hread : ∀ t ∈ ts, Inside v e t.base.warnings :=
    mapM_all (fun c hc _ ht => (TopLevel.ofElement_located ht).inside (.inl hc)) ht
  exact List.forall_mem_map.2 fun t hm => hread t (TopLevel.mem_inOrder.1 hm)

/-- Every warning of a resource that was read is located by names that lead down from its element to
one below it, where elements that belong to no component are left out. If the document has no such
element, each next name is that of a child of the element reached so far. -/
theorem warnings_located (ctx : Context) (v : Version) (e : Element) (r : Resource)
    (h : ofElement ctx v e = .ok r) (f : Finding) (hf : f ∈ r.warnings) :
    ∃ names, Descends v e names ∧ f.locator = Fault.place names ∧
      ((∀ w, Contains e w → ¬Folded v w) → Leads e names) := by
  obtain ⟨names, hnames, hlocator⟩ := ofElement_located h f hf
  exact ⟨names, hnames, hlocator, hnames.leads⟩

/-- The element of a resource of version 2.0, with a format that holds the content. -/
def formatted (content : List Element) : Element :=
  let ctx : Context := {}
  let ddms := ctx.ddmsElement .v2_0
  let put := fun (e : Element) name value => e.put (ctx.ddmsName .v2_0 name) value
  let marked := ((ddms "security").put (ctx.ismName .v2_0 "classification") "U").put
    (ctx.ismName .v2_0 "ownerProducer") "USA"
  (ddms "Resource").add
    [put (put (ddms "identifier") "qualifier" "urn:isbn") "value" "0",
     ctx.textElement .v2_0 "title" "Title",
     (ddms "creator").add [(ddms "Organization").add [ctx.textElement .v2_0 "name" "Office"]],
     (ddms "subjectCoverage").add [(ddms "Subject").add [put (ddms "keyword") "value" "word"]],
     (ddms "format").add
       [(ddms "Media").add (ctx.textElement .v2_0 "mimeType" "text/plain" :: content)],
     marked]

/-- A format with an extent of which nothing is said. -/
def sizeless : Element := formatted [Context.ddmsElement {} .v2_0 "extent"]

/-- It is read with a warning about the extent. -/
theorem sizeless_read : ∃ r, ofElement {} .v2_0 sizeless = .ok r ∧ ∃ f ∈ r.warnings,
    f.locator = "/ddms:Resource/ddms:format/ddms:extent" := by
  have hread : (ofElement {} .v2_0 sizeless).toOption.map (·.warnings.map (·.locator)) =
      some ["/ddms:Resource", "/ddms:Resource/ddms:format/ddms:extent"] := by decide +kernel
  obtain ⟨r, hr, hw⟩ := Option.map_eq_some_iff.1 hread
  have hmem : "/ddms:Resource/ddms:format/ddms:extent" ∈ r.warnings.map (·.locator) := by simp [hw]
  obtain ⟨f, hf, hlocator⟩ := List.mem_map.1 hmem
  exact ⟨r, toOption_ok.1 hr, f, hf, hlocator⟩

theorem warnings_located_sizeless :
    ∃ r, ofElement {} .v2_0 sizeless = .ok r ∧ ∃ f ∈ r.warnings,
      f.locator = "/ddms:Resource/ddms:format/ddms:extent" ∧
      ∃ names, Descends .v2_0 sizeless names ∧ f.locator = Fault.place names := by
  obtain ⟨r, hr, f, hf, hextent⟩ := sizeless_read
  obtain ⟨names, hnames, hlocator, -⟩ := warnings_located {} .v2_0 sizeless r hr f hf
  exact ⟨r, hr, f, hf, hextent, names, hnames, hlocator⟩

/-- The extent stands in the wrapper of the format, and no way down from the resource has the names
that the warning about it is located by. -/
theorem extent_misplaced :
    ∃ r, ofElement {} .v2_0 sizeless = .ok r ∧ ∃ f ∈ r.warnings,
      ∀ names, Leads sizeless names → f.locator ≠ Fault.place names := by
  obtain ⟨r, hr, f, hf, hextent⟩ := sizeless_read
  -- the ways down are finitely many, and each is tried
  have hnone : ∀ names ∈ sizeless.chains,
      "/ddms:Resource/ddms:format/ddms:extent" ≠ Fault.place names := by decide +kernel
  exact ⟨r, hr, f, hf, fun names hn => hextent ▸ hnone names (Element.mem_chains hn)⟩

end Resource

end Resource

end DiscoveryMetadata
