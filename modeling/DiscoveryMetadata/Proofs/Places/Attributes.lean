import DiscoveryMetadata.Attributes.Link
import DiscoveryMetadata.Attributes.Srs
import DiscoveryMetadata.Proofs.Gates.Part
import DiscoveryMetadata.Proofs.Places.Basic
/-
  What goes wrong in a group of attributes has no place of its own.

  With the standard vocabularies every key that a check asks for has a table, since the check asks
  only in the versions that have the attribute. So a token outside its vocabulary is the only way
  in which looking it up can fail.
-/
namespace DiscoveryMetadata

open Xml (Element)
open Fault (Unplaced Placed Beneath)

variable {ctx : Context} {v : Version} {e : Element}

theorem Version.atLeast_trans {u v w : Version} (huv : u.atLeast v = true)
    (hvw : v.atLeast w = true) : u.atLeast w = true := by
  unfold Version.atLeast at *
  simp only [decide_eq_true_eq] at *
  omega

namespace Vocabulary

/-- Each key of a version has a table among the standard vocabularies. -/
theorem standard_table {key : String} (hk : key ∈ keysOf v) :
    ∃ t, standard.table key v = .ok t := by
  have hv : v ∈ Version.all := by cases v <;> decide
  have hmem : ((v, key), Standard.table v key) ∈ standard.tables :=
    List.mem_flatMap.2 ⟨v, hv, List.mem_map.2 ⟨key, hk, rfl⟩⟩
  unfold table
  cases h : standard.tables.lookup (v, key) with
  | some t => exact ⟨t, rfl⟩
  | none => simpa using List.lookup_eq_none_iff.1 h _ hmem

theorem notice_known (hv : v.atLeast .v4_0_1 = true) : Key.notice ∈ keysOf v := by
  simp [keysOf, hv]

theorem pocType_known (hv : v.atLeast .v4_0_1 = true) : Key.pocType ∈ keysOf v := by
  simp [keysOf, hv]

end Vocabulary

namespace Context

/-- The vocabularies can be had, and they are the standard ones. -/
def Standard (ctx : Context) : Prop := ctx.vocabulary = .ok .standard

variable (hctx : ctx.Standard)
include hctx

theorem checkToken_fails {key : String} (hk : key ∈ Vocabulary.keysOf v) (token : String) :
    Fails Unplaced (ctx.checkToken key token v) := by
  obtain ⟨t, ht⟩ := Vocabulary.standard_table hk
  have hvoc : ctx.vocabulary = .ok .standard := hctx
  have hknows : ctx.knows key token v = .ok (t.contains token) := by
    simp only [knows, hvoc, Vocabulary.contains, bind_ok, pure_ok]
    exact ⟨_, rfl, t, ht, rfl⟩
  refine .bind (by simp [hknows]) fun _ _ => ?_
  split_ifs <;> simp

theorem checkTokens_fails {key : String} (hk : key ∈ Vocabulary.keysOf v) (tokens : List String) :
    Fails Unplaced (ctx.checkTokens key v tokens) :=
  .bind (.mapM fun _ _ => checkToken_fails hctx hk _) fun _ _ => .pure

end Context

namespace SecurityAttributes

namespace Definition

theorem checkVersion_fails (d : Definition) : Fails Unplaced (d.checkVersion v) := by
  unfold checkVersion
  refine .bind (requireVersion_fails _) fun _ _ => ?_
  split
  · exact .pure
  · split_ifs <;> simp

theorem checkForm_fails (d : Definition) (value : String) : Fails Unplaced (d.checkForm value) := by
  unfold checkForm
  split <;> simp

/-- A definition draws on a vocabulary that the versions with the attribute have. -/
theorem vocabulary_known {d : Definition} (hd : d ∈ definitions) (hv : d.checkVersion v = .ok ())
    {key : String} (hk : d.vocabulary = some key) : key ∈ Vocabulary.keysOf v := by
  obtain ⟨hsince, huntil⟩ := allows_of_checkVersion hv
  have hall : ∀ v ∈ Version.all, ∀ d ∈ definitions, v.atLeast d.since = true →
      (∀ last ∈ d.until_, last.atLeast v = true) → ∀ k ∈ d.vocabulary,
        k ∈ Vocabulary.keysOf v := by decide +kernel
  exact hall v (by cases v <;> decide) d hd hsince huntil key hk

theorem check_fails {d : Definition} (hctx : ctx.Standard) (hd : d ∈ definitions)
    (value : String) : Fails Unplaced (d.check ctx v value) := by
  unfold check
  refine .bind (d.checkVersion_fails) fun _ hv => .bind (d.checkForm_fails value) fun _ _ => ?_
  cases hk : d.vocabulary with
  | none => exact .pure
  | some key => exact Context.checkTokens_fails hctx (vocabulary_known hd hv hk) _

end Definition

theorem ofElement_fails (hctx : ctx.Standard) (e : Element) :
    Fails Unplaced (ofElement ctx v e) := by
  refine .bind (.bind (.mapM fun d hd => ?_) fun _ _ => .pure) fun _ _ => .pure
  split
  · exact Definition.check_fails hctx hd _
  · exact .ok

@[simp]
theorem requireClassification_fails (a : SecurityAttributes) :
    Fails Unplaced a.requireClassification := by
  simp [requireClassification]

end SecurityAttributes

@[simp]
theorem requireSecuritySince_fails (minimum : Version) (security : SecurityAttributes) :
    Fails Unplaced (requireSecuritySince v minimum security) := by
  simp [requireSecuritySince]

@[simp]
theorem requireExtensibleSince_fails (localName : String) (extensible : ExtensibleAttributes) :
    Fails Unplaced (requireExtensibleSince v localName extensible) := by
  simp [requireExtensibleSince]

namespace NoticeAttributes

theorem readExternal_fails (e : Element) : Fails Unplaced (readExternal v e) := by
  unfold readExternal
  split
  · exact .ok
  · split <;> simp

theorem check_fails (hctx : ctx.Standard) (a : NoticeAttributes) :
    Fails Unplaced (a.check ctx) := by
  have hlength : ∀ name text, Fails Unplaced (checkLength name text) := by simp [checkLength]
  have hdate : Fails Unplaced (ifPresent a.noticeDate fun d =>
      demand (Calendar.isDate d) (.notDate "noticeDate attribute")) := .ifPresent (by simp)
  unfold check
  split
  · exact .pure
  · refine .bind (by simp) fun _ hv => .bind ?_ fun _ _ => by simp [hlength, hdate]
    unfold checkType
    split
    · exact .ok
    · exact Context.checkTokens_fails hctx (Vocabulary.notice_known (demand_ok.1 hv)) _

theorem ofElement_fails (hctx : ctx.Standard) (e : Element) :
    Fails Unplaced (ofElement ctx v e) :=
  .bind (readExternal_fails e) fun _ _ => .bind (check_fails hctx _) fun _ _ => .pure

end NoticeAttributes

namespace LinkAttributes

@[simp]
theorem checkOneOf_fails (name : String) (allowed : List String) (value : String) :
    Fails Unplaced (checkOneOf name allowed value) :=
  .ifPresent (by simp)

theorem check_fails (a : LinkAttributes) : Fails Unplaced (a.check v) := by
  have hlabel : Fails Unplaced (ifPresent a.label Text.checkNCName) :=
    .ifPresent (checkNCName_fails _)
  unfold check
  split_ifs <;> simp [hlabel]

theorem ofElement_fails (e : Element) : Fails Unplaced (ofElement v e) :=
  .bind (check_fails _) fun _ _ => .pure

end LinkAttributes

namespace SrsAttributes

theorem readDimension_fails (e : Element) : Fails Unplaced (readDimension e) := by
  unfold readDimension
  split
  · exact .ok
  · split <;> simp [badDimension]

theorem check_fails (a : SrsAttributes) : Fails Unplaced a.check := by
  simp [check]

theorem ofValues_fails (name : String) (dimension : Option Int) (axisLabels uomLabels : List String) :
    Fails Unplaced (ofValues name dimension axisLabels uomLabels) := by
  refine .bind (.optionMapM fun d _ => ?_) fun _ _ => .bind (check_fails _) fun _ _ => .pure
  unfold dimensionOf
  split <;> simp [badDimension]

theorem ofElement_fails (e : Element) : Fails Unplaced (ofElement e) :=
  .bind (readDimension_fails e) fun _ _ => ofValues_fails _ _ _ _

end SrsAttributes

namespace Markings

theorem versionOf_fails (e : Element) (uri : String) : Fails Unplaced (versionOf e uri) := by
  refine .optionMapM fun text _ => ?_
  split <;> simp

theorem flagOf_fails (e : Element) : Fails Unplaced (flagOf v e) := by
  refine .optionMapM fun text _ => ?_
  split <;> simp

/-- A version without need-to-know rules has no version of them, and that is no fault. -/
theorem ntkVersionOf_fails (e : Element) : Fails Unplaced (ntkVersionOf v e) := by
  unfold ntkVersionOf
  split
  · exact versionOf_fails _ _
  · exact .ok

theorem ofElement_fails (e : Element) : Fails Unplaced (ofElement v e) :=
  .bind (versionOf_fails _ _) fun _ _ => .bind (ntkVersionOf_fails _) fun _ _ =>
    .bind (flagOf_fails _) fun _ _ => .pure

theorem checkFixed_fails (name : String) (given : Int) (fixed : Option Int) :
    Fails Unplaced (checkFixed v name given fixed) := by
  unfold checkFixed
  split <;> simp

theorem requireVersion_fails (name : String) (n : Option Int) :
    Fails Unplaced (requireVersion name n) := by
  unfold requireVersion
  split <;> simp

theorem check_fails (m : Markings) : Fails Unplaced (m.check v) := by
  unfold check
  simp only [Fails.bind_iff, Fails.demand, Fails.forbid, requireVersion_fails, checkFixed_fails,
    Fault.unplaced_required, Fault.unplaced_notDate, implies_true, true_and]
  intros
  split_ifs
  · simp [requireVersion_fails, checkFixed_fails]
  · exact .pure

end Markings

end DiscoveryMetadata
