import DiscoveryMetadata.Proofs.Keeping.Records
import DiscoveryMetadata.Proofs.Rebuilding.Subjects
import DiscoveryMetadata.Proofs.Returning.Subjects
/-
  What relations and coverages of subjects, of virtual space and of time keep through their drafts.

  Lost are what a link says of the way it is to be followed, the extensible attributes of terms,
  and the name of a period that is there without a text.
-/
namespace DiscoveryMetadata

open Buildable
open Xml (Element)

variable {ctx : Context} {v : Version} {e : Element}

section Relations

namespace Link

/-- A link is kept with its markings, if it does not say how it is to be followed. -/
def Kept (c : Link) : Prop :=
  (c.link.arcrole = "" ∧ c.link.show_ = "" ∧ c.link.actuate = "") ∧ c.security.Filled

instance (c : Link) : Decidable c.Kept :=
  inferInstanceAs (Decidable (_ ∧ SecurityAttributes.Filled _))

theorem renews {c : Link} (h : ofElement ctx v e = .ok c) (hk : c.Kept) :
    Renews ctx v (ctx.ddmsName v "link") c.toDraft c := by
  simp only [ofElement, checked, bind_ok, within_ok, check_ok, exists_unit, pure_ok] at h
  obtain ⟨l, hl, s, hs, hr, rfl⟩ := h
  obtain ⟨⟨harcrole, hshow, hactuate⟩, hfilled⟩ := hk
  obtain ⟨hput, hs⟩ := SecurityAttributes.commitAs_read hs hfilled
  simp only [rules, bind_ok, exists_unit, requireDdms_ok] at hr
  obtain ⟨hname, htype, hhref, hfixed⟩ := hr
  have hagain : LinkAttributes.locator v l.href l.role l.title l.label = .ok l := by
    obtain ⟨hcheck, rfl⟩ := LinkAttributes.checked_ok.1 hl
    simp only [demand_ok, beq_iff_eq] at hfixed
    refine LinkAttributes.checked_ok.2 ⟨?_, ?_⟩ <;> simp_all [fixedType]
  refine ⟨_, bind_ok.2 ⟨l, hagain, bind_ok.2 ⟨s, hs, bind_ok.2 ⟨_, within_ok.2 (hput _),
    bind_ok.2 ⟨(), check_ok.2 ?rules, rfl⟩⟩⟩⟩, ?same, rfl, by simp [Component.base]⟩
  case rules =>
    simp only [rules, bind_ok, exists_unit, requireDdms_ok]
    exact ⟨by simp, htype, hhref, hfixed⟩
  case same =>
    change (_ == _ && (_ == _ && _ == _)) = true
    simp [hname]

/-- Links that are equal are marked alike. -/
theorem beq_security {l' l : Link} (h : (l' == l) = true) :
    (l'.security == l.security) = true := by
  have hparts : (_ == _ && (_ == _ && l'.security == l.security)) = true := h
  simp only [Bool.and_eq_true] at hparts
  exact hparts.2.2

end Link

namespace RelatedResource

/-- A related resource is kept with its markings if all its links are. -/
def Kept (c : RelatedResource) : Prop := c.security.Filled ∧ AllKept Link.toDraft Link.Kept c.links

instance (c : RelatedResource) : Decidable c.Kept :=
  inferInstanceAs (Decidable (SecurityAttributes.Filled _ ∧ AllKept _ _ _))

theorem checkLink_ok {b : Base} {l : Link} {x : Unit} :
    checkLink b l = .ok x ↔ l.version = b.version ∧ l.security.isEmpty = true := by
  simp only [checkLink, bind_ok, exists_unit, Base.requireSameVersion_ok, demand_ok]

theorem renews {c : RelatedResource} (h : ofElement ctx v e = .ok c) (hk : c.Kept) :
    Renews ctx v (ctx.ddmsName v (name v)) c.toDraft c := by
  simp only [ofElement, checked, bind_ok, within_ok, check_ok, exists_unit, pure_ok] at h
  obtain ⟨ls, hls, s, hs, hr, rfl⟩ := h
  obtain ⟨hfilled, hlk⟩ := hk
  obtain ⟨hput, hs⟩ := SecurityAttributes.commitAs_read hs hfilled
  obtain ⟨es, hes⟩ : ∃ es, readAll Link.ofElement ctx v es = .ok ls := by
    split at hls
    · exact ⟨_, withinHolder_ok.1 hls⟩
    · exact ⟨[], hls⟩
  obtain ⟨ls', hls', hll⟩ := readAll_renews (fun _ _ _ h hk => Link.renews h hk) hes hlk
  simp only [rules, bind_ok, exists_unit, requireDdms_ok, forbid_ok] at hr
  obtain ⟨hname, hrel, huri, hdir, hqual, hvalue, hquri, hsome, hlinks⟩ := hr
  refine ⟨_, bind_ok.2 ⟨ls', hls', bind_ok.2 ⟨s, hs, bind_ok.2 ⟨_, within_ok.2 (hput _),
    bind_ok.2 ⟨(), check_ok.2 ?rules, rfl⟩⟩⟩⟩, ?same, rfl, ?name⟩
  case rules =>
    simp only [rules, bind_ok, exists_unit, requireDdms_ok, forbid_ok, Like.isEmpty_eq hll]
    refine ⟨?_, hrel, huri, hdir, hqual, hvalue, hquri, hsome, ?_⟩
    · split <;> simp [name]
    · simp only [forM_ok, checkLink_ok] at hlinks ⊢
      exact forall_mem_of_forall₂
        (fun l' l hl h => ⟨hl.version, (SecurityAttributes.isEmpty_of_beq
          (Link.beq_security hl.same)).trans h.2⟩) hll hlinks
  case same =>
    change (_ == _ && (_ == _ && (_ == _ && (_ == _ && (_ == _ && (_ == _ && _ == _)))))) = true
    split <;> simp [hname, toDraft, Like.beq_list hll]
  case name => split <;> simp [Component.base]

end RelatedResource

end Relations

section Subjects

/-- Extensible attributes that were read are those of a draft, if there are none. -/
theorem ExtensibleAttributes.ofElement_eq {e : Element}
    (h : (ofElement v e).attributes = []) : ofElement v e = empty v :=
  ExtensibleAttributes.mk.injEq .. |>.mpr ⟨rfl, h⟩

namespace Keyword

/-- A keyword is kept with its markings, if it has no extensible attributes. -/
def Kept (c : Keyword) : Prop := c.extensible.attributes = [] ∧ c.security.Filled

instance (c : Keyword) : Decidable c.Kept :=
  inferInstanceAs (Decidable (_ ∧ SecurityAttributes.Filled _))

theorem renews {c : Keyword} (h : ofElement ctx v e = .ok c) (hk : c.Kept) :
    Renews ctx v (ctx.ddmsName v "keyword") c.toDraft c := by
  simp only [ofElement, checked, bind_ok, within_ok, check_ok, exists_unit, pure_ok] at h
  obtain ⟨s, hs, hr, rfl⟩ := h
  obtain ⟨hnone, hfilled⟩ := hk
  obtain ⟨hput, hs⟩ := SecurityAttributes.commitAs_read hs hfilled
  rw [ExtensibleAttributes.ofElement_eq hnone] at hr
  simp only [rules, bind_ok, exists_unit, requireDdms_ok] at hr
  obtain ⟨hname, hr⟩ := hr
  refine ⟨_, bind_ok.2 ⟨s, hs, bind_ok.2 ⟨_, within_ok.2 (bind_ok.2 ⟨_, hput _, rfl⟩),
    bind_ok.2 ⟨(), check_ok.2 ?rules, rfl⟩⟩⟩, ?same, rfl, by simp [Component.base, name]⟩
  case rules =>
    simp only [rules, bind_ok, exists_unit, requireDdms_ok]
    exact ⟨by simp, hr⟩
  case same =>
    change (_ == _ && (_ == _ && (_ == _ && _ == _))) = true
    simp [hname, toDraft, ExtensibleAttributes.ofElement_eq hnone]

end Keyword

namespace Category

/-- A category is kept with its markings, if it has no extensible attributes. -/
def Kept (c : Category) : Prop := c.extensible.attributes = [] ∧ c.security.Filled

instance (c : Category) : Decidable c.Kept :=
  inferInstanceAs (Decidable (_ ∧ SecurityAttributes.Filled _))

theorem renews {c : Category} (h : ofElement ctx v e = .ok c) (hk : c.Kept) :
    Renews ctx v (ctx.ddmsName v "category") c.toDraft c := by
  simp only [ofElement, checked, bind_ok, within_ok, check_ok, exists_unit, pure_ok] at h
  obtain ⟨s, hs, hr, rfl⟩ := h
  obtain ⟨hnone, hfilled⟩ := hk
  obtain ⟨hput, hs⟩ := SecurityAttributes.commitAs_read hs hfilled
  rw [ExtensibleAttributes.ofElement_eq hnone] at hr
  simp only [rules, bind_ok, exists_unit, requireDdms_ok] at hr
  obtain ⟨hname, hr⟩ := hr
  refine ⟨_, bind_ok.2 ⟨s, hs, bind_ok.2 ⟨_, within_ok.2 (bind_ok.2 ⟨_, hput _, rfl⟩),
    bind_ok.2 ⟨(), check_ok.2 ?rules, rfl⟩⟩⟩, ?same, rfl, by simp [Component.base, name]⟩
  case rules =>
    simp only [rules, bind_ok, exists_unit, requireDdms_ok]
    exact ⟨by simp, hr⟩
  case same =>
    change (_ == _ && (_ == _ && (_ == _ && (_ == _ && (_ == _ && _ == _))))) = true
    simp [hname, toDraft, ExtensibleAttributes.ofElement_eq hnone]

end Category

namespace ProductionMetric

/-- A production metric is kept with its markings. -/
def Kept (c : ProductionMetric) : Prop := c.security.Filled

instance (c : ProductionMetric) : Decidable c.Kept := inferInstanceAs (Decidable c.security.Filled)

theorem renews {c : ProductionMetric} (h : ofElement ctx v e = .ok c) (hk : c.Kept) :
    Renews ctx v (ctx.ddmsName v "productionMetric") c.toDraft c := by
  simp only [ofElement, checked, bind_ok, within_ok, check_ok, exists_unit, pure_ok] at h
  obtain ⟨s, hs, hr, rfl⟩ := h
  obtain ⟨hput, hs⟩ := SecurityAttributes.commitAs_read hs hk
  simp only [rules, bind_ok, exists_unit, requireDdms_ok] at hr
  obtain ⟨hname, hr⟩ := hr
  refine ⟨_, bind_ok.2 ⟨s, hs, bind_ok.2 ⟨_, within_ok.2 (hput _),
    bind_ok.2 ⟨(), check_ok.2 ?rules, rfl⟩⟩⟩, ?same, rfl, by simp [Component.base]⟩
  case rules =>
    simp only [rules, bind_ok, exists_unit, requireDdms_ok]
    exact ⟨by simp, hr⟩
  case same =>
    change (_ == _ && (_ == _ && (_ == _ && _ == _))) = true
    simp [hname, toDraft]

end ProductionMetric

namespace NonStateActor

/-- An actor is kept with its markings. -/
def Kept (c : NonStateActor) : Prop := c.security.Filled

instance (c : NonStateActor) : Decidable c.Kept := inferInstanceAs (Decidable c.security.Filled)

theorem renews {c : NonStateActor} (h : ofElement ctx v e = .ok c) (hk : c.Kept) :
    Renews ctx v (ctx.ddmsName v "nonStateActor") c.toDraft c := by
  simp only [ofElement, checked, bind_ok, within_ok, check_ok, exists_unit, pure_ok] at h
  obtain ⟨o, -, s, hs, hr, rfl⟩ := h
  obtain ⟨hput, hs⟩ := SecurityAttributes.commitAs_read hs hk
  simp only [rules, bind_ok, exists_unit, requireDdms_ok] at hr
  obtain ⟨hname, hr⟩ := hr
  refine ⟨_, bind_ok.2 ⟨s, hs, bind_ok.2 ⟨_, within_ok.2 (hput _),
    bind_ok.2 ⟨(), check_ok.2 ?rules, rfl⟩⟩⟩, ?same, rfl, by simp [Component.base]⟩
  case rules =>
    simp only [rules, bind_ok, exists_unit, requireDdms_ok]
    exact ⟨by simp, hr⟩
  case same =>
    change (_ == _ && (_ == _ && (_ == _ && (_ == _ && _ == _)))) = true
    simp [hname, toDraft]

end NonStateActor

namespace VirtualCoverage

/-- A coverage is kept with its markings. -/
def Kept (c : VirtualCoverage) : Prop := c.security.Filled

instance (c : VirtualCoverage) : Decidable c.Kept := inferInstanceAs (Decidable c.security.Filled)

theorem renews {c : VirtualCoverage} (h : ofElement ctx v e = .ok c) (hk : c.Kept) :
    Renews ctx v (ctx.ddmsName v "virtualCoverage") c.toDraft c := by
  simp only [ofElement, checked, bind_ok, within_ok, check_ok, exists_unit, pure_ok] at h
  obtain ⟨s, hs, hr, rfl⟩ := h
  obtain ⟨hput, hs⟩ := SecurityAttributes.commitAs_read hs hk
  simp only [rules, bind_ok, exists_unit, requireDdms_ok] at hr
  obtain ⟨hname, hr⟩ := hr
  refine ⟨_, bind_ok.2 ⟨s, hs, bind_ok.2 ⟨_, within_ok.2 (hput _),
    bind_ok.2 ⟨(), check_ok.2 ?rules, rfl⟩⟩⟩, ?same, rfl, by simp [Component.base]⟩
  case rules =>
    simp only [rules, bind_ok, exists_unit, requireDdms_ok]
    exact ⟨by simp, hr⟩
  case same =>
    change (_ == _ && (_ == _ && (_ == _ && _ == _))) = true
    simp [hname, toDraft]

end VirtualCoverage

namespace SubjectCoverage

/-- A coverage is kept with its markings if all its terms, metrics and actors are. -/
def Kept (c : SubjectCoverage) : Prop :=
  c.security.Filled ∧ AllKept Keyword.toDraft Keyword.Kept c.keywords ∧
    AllKept Category.toDraft Category.Kept c.categories ∧
    AllKept ProductionMetric.toDraft ProductionMetric.Kept c.productionMetrics ∧
    AllKept NonStateActor.toDraft NonStateActor.Kept c.nonStateActors

instance (c : SubjectCoverage) : Decidable c.Kept :=
  inferInstanceAs (Decidable (SecurityAttributes.Filled _ ∧ AllKept _ _ _ ∧ AllKept _ _ _ ∧
    AllKept _ _ _ ∧ AllKept _ _ _))

theorem renews {c : SubjectCoverage} (h : ofElement ctx v e = .ok c) (hk : c.Kept) :
    Renews ctx v (ctx.ddmsName v "subjectCoverage") c.toDraft c := by
  simp only [ofElement, checked, bind_ok, within_ok, withinHolder_ok, check_ok, exists_unit,
    pure_ok] at h
  obtain ⟨ks, hks, cs, hcs, ms, hms, as, has, s, hs, hr, rfl⟩ := h
  obtain ⟨hfilled, hkk, hck, hmk, hak⟩ := hk
  obtain ⟨hput, hs⟩ := SecurityAttributes.commitAs_read hs hfilled
  simp only [rules, bind_ok, exists_unit, requireDdms_ok, forbid_ok] at hr
  obtain ⟨hname, -, hterms, -, hsince⟩ := hr
  obtain ⟨ks', hks', hkl⟩ := readAll_renews (fun _ _ _ h hk => Keyword.renews h hk) hks hkk
  obtain ⟨cs', hcs', hcl⟩ := readAll_renews (fun _ _ _ h hk => Category.renews h hk) hcs hck
  obtain ⟨ms', hms', hml⟩ := readAll_renews (fun _ _ _ h hk => ProductionMetric.renews h hk) hms hmk
  obtain ⟨as', has', hal⟩ := readAll_renews (fun _ _ _ h hk => NonStateActor.renews h hk) has hak
  refine ⟨_, bind_ok.2 ⟨ks', hks', bind_ok.2 ⟨cs', hcs', bind_ok.2 ⟨ms', hms', bind_ok.2 ⟨as', has',
    bind_ok.2 ⟨s, hs, bind_ok.2 ⟨_, within_ok.2 (hput _), bind_ok.2 ⟨(), check_ok.2 ?rules,
      rfl⟩⟩⟩⟩⟩⟩⟩, ?same, rfl, by simp [Component.base]⟩
  case rules =>
    simp only [rules, bind_ok, exists_unit, requireDdms_ok, demand_ok, forbid_ok,
      Base.requireSameVersions_ok, Like.isEmpty_eq hkl, Like.isEmpty_eq hcl]
    refine ⟨by simp, ?_, hterms, ?_, hsince⟩
    · generalize hmade : ctx.addWrapped v wrapper _ (ctx.ddmsElement v "subjectCoverage") = made
      obtain ⟨holder, hh, -⟩ := holder?_addWrapped
        (e := SecurityAttributes.mark ctx v s.values made)
        ((SecurityAttributes.children_mark _).trans (hmade ▸ children_addWrapped "subjectCoverage"))
        (by simp [← hmade])
      rw [hh]
      rfl
    · simp only [parts, List.forall_mem_append]
      exact ⟨⟨⟨Like.versions hkl, Like.versions hcl⟩, Like.versions hml⟩, Like.versions hal⟩
  case same =>
    change (_ == _ && (_ == _ && (_ == _ && (_ == _ && (_ == _ && _ == _))))) = true
    simp [hname, Like.beq_list hkl, Like.beq_list hcl, Like.beq_list hml, Like.beq_list hal]

end SubjectCoverage

end Subjects

section Times

theorem Calendar.kind?_blank {t : String} (h : Text.isBlank t = true) : kind? t = none := by
  rw [kind?, read?, Text.trim_of_isBlank h]
  rfl

namespace TemporalCoverage

variable {exact approximate : String} {b b' : TimeBound}

/-- A period is kept with its markings if its name has a text when it is there, and its approximable
dates are kept. -/
def Kept (c : TemporalCoverage) : Prop :=
  c.security.Filled ∧ c.given ≠ some "" ∧
    AllKept ApproximableDate.toDraft ApproximableDate.Kept (date? c.start).toList ∧
    AllKept ApproximableDate.toDraft ApproximableDate.Kept (date? c.finish).toList

instance (c : TemporalCoverage) : Decidable c.Kept :=
  inferInstanceAs (Decidable (SecurityAttributes.Filled _ ∧ _ ≠ _ ∧ AllKept _ _ _ ∧ AllKept _ _ _))

/-- The bound is like another: the same text, which is a date or a word for none, or an approximable
date that is like the other. -/
inductive BoundLike (ctx : Context) (v : Version) (approximate : String) :
    TimeBound → TimeBound → Prop
  | exact {value : String} (h : checkBound value = .ok ()) :
    BoundLike ctx v approximate (.exact value) (.exact value)
  | approximate {d' d : ApproximableDate} (hv : v.atLeast .v4_1 = true)
    (h : Like v (ctx.ddmsName v approximate) d' d) :
    BoundLike ctx v approximate (.approximate d') (.approximate d)

theorem isBlank_of_checkBound {value : String} (h : checkBound value = .ok ()) :
    Text.isBlank value = false := by
  rw [checkBound, demand_ok] at h
  rw [← Bool.not_eq_true]
  intro hb
  rw [Calendar.kind?_blank hb] at h
  have hmem : value = "Not Applicable" ∨ value = unknown := by simpa [substitutes] using h
  rcases hmem with rfl | rfl <;> exact absurd hb (by decide)

theorem BoundLike.same (h : BoundLike ctx v approximate b' b) : (b' == b) = true := by
  cases h with
  | exact h => exact beq_self_eq_true (TimeBound.exact _)
  | approximate hv h => exact h.same

theorem BoundLike.defaulted_eq (h : BoundLike ctx v approximate b' b) : defaulted b' = b' := by
  cases h with
  | exact h => rw [defaulted, if_neg (by simp [isBlank_of_checkBound h])]
  | approximate hv h => rfl

theorem BoundLike.exactText_eq (h : BoundLike ctx v approximate b' b) :
    exactText (some b') = exactText (some b) := by
  cases h <;> rfl

theorem BoundLike.checkFit_ok {e' : Element} (h : BoundLike ctx v approximate b' b) :
    checkFit ⟨e', v, []⟩ b' = .ok () := by
  cases h with
  | exact h => exact h
  | approximate hv h => exact (Base.requireSameVersion_ok _ _).2 h.version

theorem BoundLike.name_boundElement (h : BoundLike ctx v approximate b' b) :
    ∀ e ∈ [boundElement ctx v exact b'],
      e.name = ctx.ddmsName v (boundName exact approximate b') := by
  refine List.forall_mem_singleton.2 ?_
  cases h with
  | exact h => exact ctx.name_textElement v _ _
  | approximate hv h => exact h.name

/-- A bound that was read is made again from what the draft says of it. -/
theorem readBound_renews {holder : Option Element}
    (h : readBoundIn ctx v holder exact approximate = .ok (some b))
    (hfit : checkFit ⟨e, v, []⟩ b = .ok ())
    (hk : AllKept ApproximableDate.toDraft ApproximableDate.Kept (date? (some b)).toList)
    (d : ApproximableDate.Draft) :
    ∃ b', Draft.bound ctx v (exactText (some b)) (((date? (some b)).map (·.toDraft)).getD d) =
      .ok b' ∧ BoundLike ctx v approximate b' b := by
  cases b with
  | exact value =>
    have hblank := isBlank_of_checkBound hfit
    refine ⟨.exact value, ?_, .exact hfit⟩
    simp only [Draft.bound, exactText, hblank]
    rfl
  | approximate date =>
    obtain ⟨child, hchild, hread⟩ : ∃ child, child.localName = approximate ∧
        ApproximableDate.ofElement ctx v child = .ok date := by
      unfold readBoundIn at h
      split at h
      · replace h := withinHolder_ok.1 h
        unfold readBound at h
        split at h
        · simp at h
        · obtain ⟨o, ho, h⟩ := bind_ok.1 h
          obtain ⟨date, rfl, heq⟩ := Option.map_eq_some_iff.1 (pure_ok.1 h)
          cases heq
          generalize hchild : Element.ownChild? _ approximate = found at ho
          cases readOption_ok.1 ho with
          | some h => exact ⟨_, Element.localName_of_ownChild? hchild, h⟩
      · simp at h
    have hv : v.atLeast .v4_1 = true := by
      simp only [ApproximableDate.ofElement, ApproximableDate.checked, ApproximableDate.rules,
        bind_ok, check_ok, exists_unit, requireVersion, demand_ok] at hread
      exact hread.1.2.2.1
    obtain ⟨hne, hdate⟩ := hk date (List.mem_singleton.2 rfl)
    obtain ⟨d', hd', hlike⟩ := ApproximableDate.renews hread hdate
    exact ⟨.approximate d', bind_ok.2 ⟨_, commitAs_some.2 ⟨hne, hd'⟩, rfl⟩,
      .approximate hv (hchild ▸ hlike)⟩

theorem make_like {given : Option String} {start start' finish finish' : TimeBound}
    {s : SecurityAttributes} {w : List Finding}
    (hname : e.name.isNamed v.ddmsUri "temporalCoverage" = true) (hgiven : given ≠ some "")
    (hput : ∀ e', s.addTo ctx v e' = .ok (SecurityAttributes.mark ctx v s.values e'))
    (hs : BoundLike ctx v "approximableStart" start' start)
    (hf : BoundLike ctx v "approximableEnd" finish' finish)
    (hafter : Calendar.isAfter (exactText (some start)) (exactText (some finish)) = false)
    (hsince : requireSecuritySince v .v3_0 s = .ok ()) :
    ∃ c', make ctx v (given.getD "") start' finish' s = .ok c' ∧
      Like v (ctx.ddmsName v "temporalCoverage") c'
        ⟨⟨e, v, w⟩, given, some start, some finish, s⟩ := by
  have hagain : (if (given.getD "").isEmpty then none else some (given.getD "")) = given := by
    cases given <;> simp_all
  simp only [make, hs.defaulted_eq, hf.defaulted_eq, hagain]
  refine ⟨_, bind_ok.2 ⟨_, within_ok.2 (hput _), bind_ok.2 ⟨(), check_ok.2 ?rules, rfl⟩⟩, ?same, rfl,
    by simp [Component.base]⟩
  case rules =>
    generalize hmade : ctx.addWrapped v wrapper _ (ctx.ddmsElement v "temporalCoverage") = made
    obtain ⟨holder, hh, hc, hu⟩ := holder?_addWrapped
      (e := SecurityAttributes.mark ctx v s.values made)
      ((SecurityAttributes.children_mark _).trans (hmade ▸ children_addWrapped "temporalCoverage"))
      (by simp [← hmade])
    have hfind : ∀ l, holder.ownChildren l =
        (if "name" = l then ctx.textElements v "name" (given.getD "") else []) ++
          (if boundName "start" "approximableStart" start' = l then
            [boundElement ctx v "start" start'] else []) ++
          (if boundName "end" "approximableEnd" finish' = l then
            [boundElement ctx v "end" finish'] else []) := by
      intro l
      rw [Element.ownChildren, Element.childrenNamed, hc, hu, ← List.singleton_append,
        ← List.append_assoc, List.filter_append,
        List.filter_append, filter_named (names_textElements ctx v "name" _),
        filter_named hs.name_boundElement, filter_named hf.name_boundElement]
      simp
    have hnames : (holder.ownChildren "name").length ≤ 1 := by
      rw [hfind]
      cases start' <;> cases finish' <;> simp [boundName]
    have hstarts : (holder.ownChildren "start").length +
        (holder.ownChildren "approximableStart").length = 1 := by
      rw [hfind, hfind]
      cases start' <;> cases finish' <;> simp [boundName]
    have hends : (holder.ownChildren "end").length +
        (holder.ownChildren "approximableEnd").length = 1 := by
      rw [hfind, hfind]
      cases start' <;> cases finish' <;> simp [boundName]
    have hfits : ∀ b ∈ [some start', some finish'].filterMap id,
        checkFit ⟨SecurityAttributes.mark ctx v s.values made, v, []⟩ b = .ok () := by
      simpa using ⟨hs.checkFit_ok, hf.checkFit_ok⟩
    simp only [rules, contentRules, hh, bind_ok, exists_unit, requireDdms_ok, withinHolder_ok,
      requireCount, demand_ok, hs.exactText_eq, hf.exactText_eq]
    refine ⟨by simp [← hmade], ⟨by simpa using hnames, ?_⟩, hsince⟩
    -- before version 4.1 the exact bounds are counted alone, and no other ones can be there
    by_cases hv : v.atLeast .v4_1 = true
    · simp only [hv, if_true, bind_ok, exists_unit, forM_ok, demand_ok, forbid_ok]
      exact ⟨by simp [hstarts], by simp [hends], hfits, hafter⟩
    · have hstart : (holder.ownChildren "start").length = 1 := by
        cases hs with
        | exact h =>
          rw [hfind]
          cases finish' <;> simp [boundName]
        | approximate hv' h => exact absurd hv' hv
      have hend : (holder.ownChildren "end").length = 1 := by
        cases hf with
        | exact h =>
          rw [hfind]
          cases start' <;> simp [boundName]
        | approximate hv' h => exact absurd hv' hv
      rw [if_neg hv]
      simp only [bind_ok, exists_unit, forM_ok, demand_ok, forbid_ok]
      exact ⟨by simp [hstart], by simp [hend], hfits, hafter⟩
  case same =>
    change (_ == _ && (_ == _ && (_ == _ && (_ == _ && _ == _)))) = true
    have hss : (some start' == some start) = true := hs.same
    have hff : (some finish' == some finish) = true := hf.same
    simp [hname, hss, hff]

/-- A bound is read where there is an element for it. -/
theorem readBound_some {holder : Element} {o : Option TimeBound}
    (h : readBound ctx v holder exact approximate = .ok o)
    (hcount : 1 ≤ (holder.ownChildren exact).length + (holder.ownChildren approximate).length) :
    ∃ b, o = some b := by
  unfold readBound at h
  rw [Element.ownChild?_eq, Element.ownChild?_eq] at h
  cases hexact : holder.ownChildren exact with
  | cons child r =>
    rw [hexact] at h
    exact ⟨_, (Except.ok.inj h).symm⟩
  | nil =>
    cases happroximate : holder.ownChildren approximate with
    | nil => simp [hexact, happroximate] at hcount
    | cons child r =>
      rw [hexact, happroximate] at h
      obtain ⟨p, hp, h⟩ := bind_ok.1 h
      cases readOption_ok.1 hp with
      | some hd => exact ⟨_, (pure_ok.1 h).symm⟩

/-- What the rules of the content say, whatever the version. -/
theorem contentRules_ok {c : TemporalCoverage} {holder : Element} {x : Unit}
    (h : c.contentRules holder = .ok x) :
    1 ≤ (holder.ownChildren "start").length + (holder.ownChildren "approximableStart").length ∧
      1 ≤ (holder.ownChildren "end").length + (holder.ownChildren "approximableEnd").length ∧
      (∀ b ∈ [c.start, c.finish].filterMap id, checkFit c.toBase b = .ok ()) ∧
      Calendar.isAfter (exactText c.start) (exactText c.finish) = false := by
  unfold contentRules at h
  by_cases hv : c.version.atLeast .v4_1 = true
  · simp only [hv, if_true, bind_ok, exists_unit, requireCount, demand_ok, forbid_ok, forM_ok,
      Bool.and_eq_true, decide_eq_true_eq] at h
    exact ⟨h.2.1.1, h.2.2.1.1, h.2.2.2⟩
  · simp only [hv, Bool.false_eq_true, if_false, bind_ok, exists_unit, requireCount, demand_ok,
      forbid_ok, forM_ok, Bool.and_eq_true, decide_eq_true_eq] at h
    exact ⟨by omega, by omega, h.2.2.2⟩

theorem renews {c : TemporalCoverage} (h : ofElement ctx v e = .ok c) (hk : c.Kept) :
    Renews ctx v (ctx.ddmsName v "temporalCoverage") c.toDraft c := by
  simp only [ofElement, checked, bind_ok, within_ok, check_ok, exists_unit, pure_ok] at h
  obtain ⟨start, hstart, finish, hfinish, s, hs, hr, rfl⟩ := h
  obtain ⟨hfilled, hgiven, hstartKept, hfinishKept⟩ := hk
  obtain ⟨hput, hs⟩ := SecurityAttributes.commitAs_read hs hfilled
  simp only [rules, bind_ok, exists_unit, requireDdms_ok] at hr
  obtain ⟨hname, hr⟩ := hr
  generalize ((e.holder? v wrapper).bind (·.ownChild? "name")).map (·.content) = given at *
  cases hholder : e.holder? v wrapper with
  | none => simp [hholder] at hr
  | some holder =>
    rw [hholder] at hstart hfinish
    simp only [hholder, bind_ok, exists_unit, withinHolder_ok] at hr
    obtain ⟨hcontent, hsince⟩ := hr
    obtain ⟨hstarts, hends, hfits, hafter⟩ := contentRules_ok hcontent
    obtain ⟨start, rfl⟩ := readBound_some (withinHolder_ok.1 hstart) hstarts
    obtain ⟨finish, rfl⟩ := readBound_some (withinHolder_ok.1 hfinish) hends
    obtain ⟨start', hstart', hslike⟩ := readBound_renews hstart (hfits start (by simp)) hstartKept
      { name := "approximableStart" }
    obtain ⟨finish', hfinish', hflike⟩ := readBound_renews hfinish (hfits finish (by simp))
      hfinishKept { name := "approximableEnd" }
    obtain ⟨c', hmade, hlike⟩ := make_like hname hgiven hput hslike hflike hafter hsince
    exact ⟨c', bind_ok.2 ⟨start', hstart', bind_ok.2 ⟨finish', hfinish', bind_ok.2
      ⟨s, hs, hmade⟩⟩⟩, hlike⟩

end TemporalCoverage

end Times

end DiscoveryMetadata
