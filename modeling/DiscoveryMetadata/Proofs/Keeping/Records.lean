import DiscoveryMetadata.Proofs.Keeping.Basic
import DiscoveryMetadata.Proofs.Rebuilding.Records
/-
  What records keep through their drafts.

  Values and texts are kept as they are. Lost are a description of an approximable date that is
  there without a text, and parts of which the drafts count as empty.
-/
namespace DiscoveryMetadata

open Buildable
open Xml (Element)

variable {ctx : Context} {v : Version} {e : Element}

theorem Identifier.renews {c : Identifier} (h : ofElement ctx v e = .ok c) :
    Renews ctx v (ctx.ddmsName v "identifier") c.toDraft c := by
  simp only [ofElement, bind_ok, check_ok, exists_unit, pure_ok] at h
  obtain ⟨hr, rfl⟩ := h
  simp only [rules, bind_ok, exists_unit, requireDdms_ok] at hr
  obtain ⟨hname, hr⟩ := hr
  refine ⟨_, bind_ok.2 ⟨(), check_ok.2 ?rules, rfl⟩, ?same, rfl, by simp [Component.base]⟩
  case rules =>
    simpa [rules, bind_ok, exists_unit, requireDdms_ok, Element.own, Element.attributeText_put,
      toDraft] using hr
  case same =>
    change (_ == _ && (_ == _ && _ == _)) = true
    simp [hname, Element.own, Element.attributeText_put, toDraft]

namespace Caption

/-- A caption is kept with its markings. -/
def Kept (c : Caption) : Prop := c.security.Filled

instance (c : Caption) : Decidable c.Kept := inferInstanceAs (Decidable c.security.Filled)

theorem renews {c : Caption} (h : ofElement ctx v e = .ok c) (hk : c.Kept) :
    Renews ctx v (ctx.ddmsName v c.kind.name) c.toDraft c := by
  unfold ofElement at h
  split at h
  · simp only [within_ok, error_ok] at h
  · simp only [checked, bind_ok, within_ok, check_ok, exists_unit, pure_ok] at h
    obtain ⟨s, hs, hr, rfl⟩ := h
    obtain ⟨hput, hs⟩ := SecurityAttributes.commitAs_read hs hk
    simp only [rules, bind_ok, exists_unit, requireDdms_ok] at hr
    obtain ⟨hname, hr⟩ := hr
    refine ⟨_, bind_ok.2 ⟨s, hs, bind_ok.2 ⟨_, within_ok.2 (hput _),
      bind_ok.2 ⟨(), check_ok.2 ?rules, rfl⟩⟩⟩, ?same, rfl, by simp [Component.base, toDraft]⟩
    case rules => simpa [rules, bind_ok, exists_unit, requireDdms_ok, toDraft] using hr
    case same =>
      change (_ == _ && (_ == _ && (_ == _ && _ == _))) = true
      simp [hname, toDraft]

theorem Kind.name_injective : Function.Injective Kind.name := by
  rintro (_ | _ | _) (_ | _ | _) h <;> simp_all [name]

/-- The kind of a caption is that of its name. -/
theorem ofElement_kind {c : Caption} (h : ofElement ctx v e = .ok c) :
    c.kind.name = e.localName := by
  unfold ofElement at h
  split at h
  · simp only [within_ok, error_ok] at h
  case _ kind hkind =>
    simp only [checked, bind_ok, within_ok, check_ok, exists_unit, pure_ok] at h
    obtain ⟨s, -, -, rfl⟩ := h
    simpa using List.find?_some hkind

/-- A caption of one kind that may be there is made again. -/
theorem readOption_renews (kind : Kind) {d : Draft} {o : Option Element} {p : Option Caption}
    (ho : ∀ x ∈ o, x.localName = kind.name) (hd : isEmpty d = true)
    (h : readOption ofElement ctx v o = .ok p) (hk : AllKept toDraft Kept p.toList) :
    ∃ p', commitAs ctx v { (p.map toDraft).getD d with kind } = .ok p' ∧
      Option.Rel (Like v (ctx.ddmsName v kind.name)) p' p := by
  have hkind : ∀ x ∈ o, ∀ c, ofElement ctx v x = .ok c → c.kind = kind := fun x hx c hc =>
    Kind.name_injective ((ofElement_kind hc).trans (ho x hx))
  refine readOption_renews_map (g := fun d : Draft => { d with kind }) hd (fun x hx c h hk => ?_)
    (fun x hx c h => toDraft_kind (hkind x hx c h)) h hk
  have hc := renews h hk
  rwa [hkind x hx c h] at hc

end Caption

theorem Language.renews {c : Language} (h : ofElement ctx v e = .ok c) :
    Renews ctx v (ctx.ddmsName v "language") c.toDraft c := by
  simp only [ofElement, checked, bind_ok, check_ok, exists_unit, pure_ok] at h
  obtain ⟨hr, rfl⟩ := h
  simp only [rules, bind_ok, exists_unit, requireDdms_ok] at hr
  obtain ⟨hname, hr⟩ := hr
  refine ⟨_, bind_ok.2 ⟨(), check_ok.2 ?rules, rfl⟩, ?same, rfl, by simp [Component.base]⟩
  case rules =>
    simpa [rules, bind_ok, exists_unit, requireDdms_ok, Element.own, Element.attributeText_put,
      toDraft] using hr
  case same =>
    change (_ == _ && (_ == _ && _ == _)) = true
    simp [hname, Element.own, Element.attributeText_put, toDraft]

namespace ApproximableDate

/-- An approximable date is kept, unless there is a description without a text. -/
def Kept (c : ApproximableDate) : Prop := c.described ≠ some ""

instance (c : ApproximableDate) : Decidable c.Kept := inferInstanceAs (Decidable (_ ≠ _))

variable (ctx v) in
/-- What an approximable date is made of is found again in its element. -/
theorem make_eq (name description date approximation start finish : String) :
    ∃ e : Element, e.name = ctx.ddmsName v name ∧
      make ctx v name description date approximation start finish =
        checked ⟨⟨e, v, []⟩, if description = "" then none else some description, date,
          approximation, start, finish⟩ := by
  refine ⟨_, rfl, congrArg checked (ApproximableDate.mk.injEq .. |>.mpr ⟨rfl, ?_⟩)⟩
  simp only [Element.ownChild?, Element.child?, Element.uri_add, Element.children_add,
    Context.uri_ddmsElement, Context.children_ddmsElement, List.nil_append, List.find?_append,
    Context.find?_textElements, find?_dateElements, find?_windowElements]
  refine ⟨?_, ?_, ?_, ?_, ?_⟩
  · by_cases hd : description = "" <;> simp [hd]
  · by_cases hd : date = "" ∧ approximation = "" <;> simp [hd]
  · by_cases hd : date = "" ∧ approximation = "" <;>
      simp [hd, Element.own, Element.attributeText_put]
  · by_cases hd : start = "" ∧ finish = "" <;>
      simp [hd, Element.ownText, Element.ownChild?, Element.child?]
  · by_cases hd : start = "" ∧ finish = "" <;>
      simp [hd, Element.ownText, Element.ownChild?, Element.child?]

/-- The rules ask no more of the element than its name. -/
theorem checked_renamed {e' : Element} {described : Option String}
    {date approximation start finish : String} {c : ApproximableDate}
    (hn : e'.name = ctx.ddmsName v e.localName)
    (h : checked ⟨⟨e, v, []⟩, described, date, approximation, start, finish⟩ = .ok c) :
    ∃ c', checked ⟨⟨e', v, []⟩, described, date, approximation, start, finish⟩ = .ok c' ∧
      Like v e'.name c' c := by
  simp only [checked, bind_ok, check_ok, exists_unit, pure_ok] at h
  obtain ⟨hr, rfl⟩ := h
  have hl : Base.localName ⟨e', v, []⟩ = Base.localName ⟨e, v, []⟩ := by
    simp [Base.localName, Element.localName, hn]
  simp only [rules, bind_ok, exists_unit, requireDdms_ok] at hr
  obtain ⟨hnames, hname, hr⟩ := hr
  refine ⟨_, bind_ok.2 ⟨(), check_ok.2 ?rules, rfl⟩, ?same, rfl, rfl⟩
  case rules =>
    simp only [rules, bind_ok, exists_unit, requireDdms_ok, hl]
    exact ⟨hnames, by simp [hn, Base.localName, Element.localName], hr⟩
  case same =>
    change (_ == _ && (_ == _ && (_ == _ && (_ == _ && (_ == _ && _ == _))))) = true
    simpa [hn, Base.localName] using hname

theorem renews {c : ApproximableDate} (h : ofElement ctx v e = .ok c) (hk : c.Kept) :
    Renews ctx v (ctx.ddmsName v e.localName) c.toDraft c := by
  have hdescribed : (if c.description = "" then none else some c.description) = c.described := by
    rw [Kept] at hk
    rw [description]
    cases hd : c.described <;> simp_all
  obtain ⟨e', hname, hmake⟩ := make_eq ctx v e.localName c.description c.date
    c.approximation c.searchableStart c.searchableEnd
  rw [hdescribed] at hmake
  obtain ⟨c', hc', hlike⟩ := checked_renamed hname h
  simp only [ofElement, checked, bind_ok, check_ok, exists_unit, pure_ok] at h
  obtain ⟨-, rfl⟩ := h
  exact ⟨c', hmake.trans hc', hname ▸ hlike⟩

end ApproximableDate

namespace Dates

/-- Dates are kept if the approximable ones are. -/
def Kept (c : Dates) : Prop :=
  AllKept ApproximableDate.toDraft ApproximableDate.Kept c.acquiredOns

instance (c : Dates) : Decidable c.Kept := inferInstanceAs (Decidable (AllKept _ _ _))

theorem renews {c : Dates} (h : ofElement ctx v e = .ok c) (hk : c.Kept) :
    Renews ctx v (ctx.ddmsName v "dates") c.toDraft c := by
  simp only [ofElement, checked, bind_ok, within_ok, check_ok, exists_unit, pure_ok] at h
  obtain ⟨dates, hdates, hr, rfl⟩ := h
  simp only [rules, bind_ok, exists_unit, requireDdms_ok] at hr
  obtain ⟨hname, -, hr⟩ := hr
  obtain ⟨dates', hagain, hlike⟩ := readAll_renews (fun e he d hd hk =>
    Element.localName_of_mem_ownChildren he ▸ ApproximableDate.renews hd hk) hdates hk
  refine ⟨_, bind_ok.2 ⟨dates', hagain, bind_ok.2 ⟨(), check_ok.2 ?rules, rfl⟩⟩, ?same, rfl,
    by simp [Component.base, DateValues.entries]⟩
  case rules =>
    simp only [rules, bind_ok, exists_unit, requireDdms_ok, Base.requireSameVersions_ok,
      Like.isEmpty_eq hlike]
    exact ⟨by simp [DateValues.entries], Like.versions hlike, hr⟩
  case same =>
    change (_ == _ && (_ == _ && _ == _)) = true
    simp [hname, toDraft, Like.beq_list hlike, DateValues.entries]

end Dates

theorem Rights.renews {c : Rights} (h : ofElement ctx v e = .ok c) :
    Renews ctx v (ctx.ddmsName v "rights") c.toDraft c := by
  simp only [ofElement, bind_ok, within_ok, exists_unit, pure_ok, requireDdms_ok] at h
  obtain ⟨p, -, i, -, x, -, hname, rfl⟩ := h
  refine ⟨_, within_ok.2 (bind_ok.2 ⟨p, (flag_ok ?privacy).2 rfl, bind_ok.2 ⟨i,
    (flag_ok ?intellectual).2 rfl, bind_ok.2 ⟨x, (flag_ok ?copy).2 rfl, bind_ok.2 ⟨(),
      requireDdms_ok.2 (by simp), rfl⟩⟩⟩⟩), ?same, rfl, by simp [Component.base]⟩
  case same =>
    change (_ == _ && (_ == _ && (_ == _ && _ == _))) = true
    simp [hname, toDraft]
  all_goals simp [Element.own, Element.attributeText_put, Text.ofTruth_ne_empty, toDraft]

namespace Source

/-- A source is kept with its markings. -/
def Kept (c : Source) : Prop := c.security.Filled

instance (c : Source) : Decidable c.Kept := inferInstanceAs (Decidable c.security.Filled)

theorem renews {c : Source} (h : ofElement ctx v e = .ok c) (hk : c.Kept) :
    Renews ctx v (ctx.ddmsName v "source") c.toDraft c := by
  simp only [ofElement, checked, bind_ok, within_ok, check_ok, exists_unit, pure_ok] at h
  obtain ⟨s, hs, hr, rfl⟩ := h
  obtain ⟨hput, hs⟩ := SecurityAttributes.commitAs_read hs hk
  simp only [rules, bind_ok, exists_unit, requireDdms_ok] at hr
  obtain ⟨hname, hr⟩ := hr
  refine ⟨_, bind_ok.2 ⟨s, hs, bind_ok.2 ⟨_, within_ok.2 (hput _), bind_ok.2 ⟨s, within_ok.2
    (SecurityAttributes.ofElement_addTo hs (hput _) ?unmarked), bind_ok.2 ⟨(), check_ok.2 ?rules,
      rfl⟩⟩⟩⟩, ?same, rfl, by simp [Component.base, toDraft]⟩
  case unmarked => simp [Element.attribute?_put, v.ddmsUri_ne_ismUri]
  case rules =>
    simpa [rules, bind_ok, exists_unit, requireDdms_ok, toDraft, Element.own,
      Element.attributeText_put, SecurityAttributes.attributeText_mark, v.ddmsUri_ne_ismUri] using hr
  case same =>
    change (_ == _ && (_ == _ && (_ == _ && (_ == _ && (_ == _ && _ == _))))) = true
    simp [hname, toDraft, Element.own, Element.attributeText_put,
      SecurityAttributes.attributeText_mark, v.ddmsUri_ne_ismUri]

end Source

namespace ResourceType

/-- A type is kept with its markings. -/
def Kept (c : ResourceType) : Prop := c.security.Filled

instance (c : ResourceType) : Decidable c.Kept := inferInstanceAs (Decidable c.security.Filled)

theorem renews {c : ResourceType} (h : ofElement ctx v e = .ok c) (hk : c.Kept) :
    Renews ctx v (ctx.ddmsName v "type") c.toDraft c := by
  simp only [ofElement, checked, bind_ok, within_ok, check_ok, exists_unit, pure_ok] at h
  obtain ⟨s, hs, hr, rfl⟩ := h
  obtain ⟨hput, hs⟩ := SecurityAttributes.commitAs_read hs hk
  simp only [rules, bind_ok, exists_unit, requireDdms_ok] at hr
  obtain ⟨hname, hr⟩ := hr
  refine ⟨_, bind_ok.2 ⟨s, hs, bind_ok.2 ⟨_, within_ok.2 (hput _), bind_ok.2 ⟨s, within_ok.2
    (SecurityAttributes.ofElement_addTo hs (hput _) ?unmarked), bind_ok.2 ⟨(), check_ok.2 ?rules,
      rfl⟩⟩⟩⟩, ?same, rfl, by simp [Component.base, toDraft]⟩
  case unmarked => simp [Element.attribute?_put, v.ddmsUri_ne_ismUri]
  case rules =>
    simpa [rules, bind_ok, exists_unit, requireDdms_ok, toDraft, Element.own,
      Element.attributeText_put, SecurityAttributes.attributeText_mark, v.ddmsUri_ne_ismUri] using hr
  case same =>
    change (_ == _ && (_ == _ && (_ == _ && (_ == _ && _ == _)))) = true
    simp [hname, toDraft, Element.own, Element.attributeText_put,
      SecurityAttributes.attributeText_mark, v.ddmsUri_ne_ismUri]

end ResourceType

theorem Extent.renews {c : Extent} (h : ofElement ctx v e = .ok c) :
    Renews ctx v (ctx.ddmsName v "extent") c.toDraft c := by
  simp only [ofElement, checked, bind_ok, check_ok, exists_unit, pure_ok] at h
  obtain ⟨hr, rfl⟩ := h
  simp only [rules, bind_ok, exists_unit, requireDdms_ok] at hr
  obtain ⟨hname, hr⟩ := hr
  refine ⟨_, bind_ok.2 ⟨(), check_ok.2 ?rules, rfl⟩, ?same, rfl, by simp [Component.base]⟩
  case rules =>
    simpa [rules, bind_ok, exists_unit, requireDdms_ok, Element.own, Element.attributeText_put,
      toDraft] using hr
  case same =>
    change (_ == _ && (_ == _ && _ == _)) = true
    simp [hname, Element.own, Element.attributeText_put, toDraft]

namespace Format

/-- A format is kept if the extent is there as a draft. -/
def Kept (c : Format) : Prop := AllKept Extent.toDraft (fun _ => True) c.extent.toList

instance (c : Format) : Decidable c.Kept := inferInstanceAs (Decidable (AllKept _ _ _))

theorem make_like {mimeType medium : String} {x x' : Option Extent} {w : List Finding}
    (hname : e.name.isNamed v.ddmsUri "format" = true) (hmime : Text.isBlank mimeType = false)
    (hlike : Option.Rel (Like v (ctx.ddmsName v "extent")) x' x) :
    ∃ c', make ctx v mimeType x' medium = .ok c' ∧
      Like v (ctx.ddmsName v "format") c' ⟨⟨e, v, w⟩, mimeType, x, medium⟩ := by
  have hnames : ∀ e ∈ (x'.map (·.element)).toList, e.name = ctx.ddmsName v "extent" :=
    Like.names_option hlike
  refine ⟨_, bind_ok.2 ⟨(), check_ok.2 ?rules, rfl⟩, ?same, rfl, by simp [Component.base]⟩
  case rules =>
    generalize hmade : ctx.addWrapped v wrapper _ (ctx.ddmsElement v "format") = made
    obtain ⟨media, hm, hc, hu⟩ := holder?_addWrapped (e := made)
      (hmade ▸ children_addWrapped "format") (by simp [← hmade])
    have hfind : ∀ l, media.ownChildren l =
        (if "mimeType" = l then ctx.textElements v "mimeType" mimeType else []) ++
          (if "extent" = l then (x'.map (·.element)).toList else []) ++
          (if "medium" = l then ctx.textElements v "medium" medium else []) := by
      intro l
      simp [Element.ownChildren, Element.childrenNamed, hc, hu, filter_named hnames,
        filter_named (names_textElements ctx v _ _)]
    have hfilled : mimeType ≠ "" := by
      rintro rfl
      exact absurd hmime (by decide)
    simp only [rules, hm, bind_ok, exists_unit, requireDdms_ok, requireValue, forbid_ok,
      requireChildren_ok, hfind, Base.requireSameVersions_ok]
    exact ⟨by simp [← hmade], hmime, by simp [length_textElements, hfilled],
      by simp, by simp, Like.versions_option hlike⟩
  case same =>
    change (_ == _ && (_ == _ && (_ == _ && _ == _))) = true
    simp [hname, Like.beq_option hlike]

theorem renews {c : Format} (h : ofElement ctx v e = .ok c) (hk : c.Kept) :
    Renews ctx v (ctx.ddmsName v "format") c.toDraft c := by
  simp only [ofElement, checked, bind_ok, within_ok, withinHolder_ok, check_ok, exists_unit,
    pure_ok] at h
  obtain ⟨x, hx, hr, rfl⟩ := h
  simp only [rules, bind_ok, exists_unit, requireDdms_ok] at hr
  obtain ⟨hname, hr⟩ := hr
  have hmime : Text.isBlank ((holder ⟨e, v, []⟩).ownText "mimeType") = false := by
    cases hm : e.holder? v wrapper with
    | none => simp [hm] at hr
    | some media =>
      simp only [hm, bind_ok, requireValue, forbid_ok] at hr
      exact hr.choose_spec.1
  obtain ⟨x', hagain, hlike⟩ := readOption_renews (d := ({} : Extent.Draft)) rfl
    (fun e _ x hx _ => Extent.renews hx) hx hk
  obtain ⟨c', hmade, hc⟩ := make_like hname hmime hlike
  exact ⟨c', bind_ok.2 ⟨x', hagain, hmade⟩, hc⟩

end Format

end DiscoveryMetadata
