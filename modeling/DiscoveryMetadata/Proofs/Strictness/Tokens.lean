import DiscoveryMetadata.Attributes.Notice
import DiscoveryMetadata.Attributes.Security
import DiscoveryMetadata.Proofs.Outcome
/-
  Two contexts that judge tokens alike, as far as the findings allow.

  A context either refuses a token outside its vocabulary or lets it pass with a finding. `Follows
  P a b` says that `b` lets a token pass with the same finding as `a` does, provided that the
  finding satisfies `P`. This carries over from one token to lists of tokens, to the security
  attributes and to the notice attributes of an element, provided that all their findings do.

  Two instances matter. A lenient context follows a strict one whatever the findings are, since a
  strict context finds nothing (`lenient_follows`). A strict context follows a lenient one where no
  finding reports a token (`strict_follows`).
-/
namespace DiscoveryMetadata

open Xml (Element)

/-- All findings say something that `P` lets pass. -/
def Heard (P : String → Prop) (fs : List Finding) : Prop := ∀ f ∈ fs, P f.text

namespace Heard

variable {P : String → Prop}

theorem append {fs gs : List Finding} : Heard P (fs ++ gs) ↔ Heard P fs ∧ Heard P gs := by
  simp only [Heard, List.mem_append, or_imp, forall_and]

theorem flatMap {α : Type} {l : List α} {w : α → List Finding} :
    Heard P (l.flatMap w) ↔ ∀ a ∈ l, Heard P (w a) := by
  simp only [Heard, List.mem_flatMap]
  constructor
  · intro h a ha f hf
    exact h f ⟨a, ha, hf⟩
  · rintro h f ⟨a, ha, hf⟩
    exact h a ha f hf

/-- A finding keeps its words on the way up. -/
theorem absorb {b : Base} {fs : List Finding} : Heard P (b.absorb fs) ↔ Heard P fs := by
  simp [Heard, Base.absorb, Finding.under]

theorem absorbAll {b : Base} {parts : List Base} :
    Heard P (b.absorbAll parts) ↔ ∀ p ∈ parts, Heard P p.warnings := by
  rw [Base.absorbAll, flatMap]
  simp only [absorb]

/-- Whether all parts are heard is asked of one kind of parts after the other. -/
theorem absorbAll_append {b : Base} {xs ys : List Base} :
    Heard P (b.absorbAll (xs ++ ys)) ↔ Heard P (b.absorbAll xs) ∧ Heard P (b.absorbAll ys) := by
  simp only [absorbAll, List.forall_mem_append]

theorem absorbAll_map {α : Type} {b : Base} {f : α → Base} {cs : List α} :
    Heard P (b.absorbAll (cs.map f)) ↔ ∀ c ∈ cs, Heard P (f c).warnings := by
  simp only [absorbAll, List.forall_mem_map]

theorem absorbAll_option {α : Type} {b : Base} {f : α → Base} {o : Option α} :
    Heard P (b.absorbAll (o.map f).toList) ↔ ∀ c ∈ o, Heard P (f c).warnings := by
  cases o <;> simp [absorbAll]

end Heard

/-- A token that passes in `a`, with findings that satisfy `P`, passes in `b` with the same. -/
def Context.Follows (P : String → Prop) (a b : Context) : Prop :=
  ∀ {key token : String} {v : Version} {w : Option Finding},
    a.checkToken key token v = .ok w → Heard P w.toList → b.checkToken key token v = .ok w

/-- The context with vocabularies that bind, or that do not. -/
def Context.withStrict (ctx : Context) (strict : Bool) : Context := { ctx with strict }

namespace Context

/-- What a token check comes to, once it is known whether the vocabulary has the token. -/
theorem checkToken_ok {ctx : Context} {key token : String} {v : Version} {w : Option Finding} :
    ctx.checkToken key token v = .ok w ↔
      ∃ known, ctx.knows key token v = .ok known ∧
        (if known = true then w = none
        else ctx.strict = false ∧ w = some (.warning (outside key token) "")) := by
  rw [checkToken, bind_ok]
  constructor
  · rintro ⟨known, hk, h⟩
    refine ⟨known, hk, ?_⟩
    split at h <;> rename_i hn
    · rw [if_pos hn]
      exact (pure_ok.1 h).symm
    · rw [if_neg hn]
      split at h <;> rename_i hs
      · exact (throw_ok.1 h).elim
      · exact ⟨by simpa using hs, (pure_ok.1 h).symm⟩
  · rintro ⟨known, hk, h⟩
    refine ⟨known, hk, ?_⟩
    split at h <;> rename_i hn
    · rw [if_pos hn, h, pure_ok]
    · rw [if_neg hn, h.1, h.2]
      rfl

/-- The words report a token that is not in its vocabulary. -/
def ReportsToken (text : String) : Prop := ∃ key token, text = outside key token

/-- The findings of a token check report tokens, and have no place of their own. -/
theorem reports_of_checkTokens {ctx : Context} {key : String} {v : Version}
    {tokens : List String} {ws : List Finding} (h : ctx.checkTokens key v tokens = .ok ws) :
    ∀ f ∈ ws, ReportsToken f.text ∧ f.locator = "" := by
  simp only [checkTokens, bind_ok, pure_ok] at h
  obtain ⟨found, hfound, rfl⟩ := h
  have hall : ∀ o ∈ found, ∀ f ∈ o, ReportsToken f.text ∧ f.locator = "" := by
    refine mapM_all (fun t _ o ho => ?_) hfound
    obtain ⟨known, -, ho⟩ := checkToken_ok.1 ho
    cases known with
    | true => simp_all
    | false =>
      rintro f hf
      obtain rfl := Option.some.inj (ho.2.symm.trans hf)
      exact ⟨⟨key, t, rfl⟩, rfl⟩
  intro f hf
  obtain ⟨o, ho, hf⟩ := List.mem_filterMap.1 hf
  exact hall o ho f hf

/-- A strict context lets no token pass with a finding, so a lenient one lets the same pass. -/
theorem lenient_follows (ctx : Context) :
    Follows (fun _ => True) (ctx.withStrict true) (ctx.withStrict false) := by
  intro key token v w h _
  obtain ⟨known, hk, hw⟩ := checkToken_ok.1 h
  refine checkToken_ok.2 ⟨known, hk, ?_⟩
  cases known with
  | true => exact hw
  | false => exact absurd hw.1 (by simp [withStrict])

/-- Where no finding reports a token, what a lenient context lets pass is in the vocabulary. -/
theorem strict_follows (ctx : Context) :
    Follows (fun text => ¬ ReportsToken text) (ctx.withStrict false) (ctx.withStrict true) := by
  intro key token v w h hp
  obtain ⟨known, hk, hw⟩ := checkToken_ok.1 h
  refine checkToken_ok.2 ⟨known, hk, ?_⟩
  cases known with
  | true => exact hw
  | false =>
    obtain ⟨-, rfl⟩ := hw
    exact absurd ⟨key, token, rfl⟩ (hp (.warning (outside key token) "") (by simp))

end Context

/-- What is found about the values of a group reports tokens, and has no place of its own. -/
theorem SecurityAttributes.reports_of_check {ctx : Context} {v : Version}
    {values : List (String × String)} {ws : List Finding} (h : check ctx v values = .ok ws) :
    ∀ f ∈ ws, Context.ReportsToken f.text ∧ f.locator = "" := by
  simp only [check, bind_ok, pure_ok] at h
  obtain ⟨found, hfound, rfl⟩ := h
  have hall : ∀ ws ∈ found, ∀ f ∈ ws, Context.ReportsToken f.text ∧ f.locator = "" := by
    refine mapM_all (fun d _ ws hws => ?_) hfound
    split at hws
    · simp only [Definition.check, bind_ok] at hws
      obtain ⟨_, -, _, -, hws⟩ := hws
      split at hws
      · exact Context.reports_of_checkTokens hws
      · cases hws
        simp
    · cases hws
      simp
  intro f hf
  obtain ⟨ws, hws, hf⟩ := List.mem_flatten.1 hf
  exact hall ws hws f hf

/-- What `a` reads with findings that satisfy `P`, `b` reads as well. -/
def Repeats {α : Type} (P : String → Prop) (a b : Context) (v : Version)
    (read : Context → Version → Element → Outcome α) (warnings : α → List Finding) : Prop :=
  ∀ ⦃e c⦄, read a v e = .ok c → Heard P (warnings c) → read b v e = .ok c

section Lists

variable {P : String → Prop} {α β : Type} {f g : α → Outcome β}

/-- Steps that follow each other one by one do so along a list. -/
theorem mapM_follows {w : β → List Finding}
    (h : ∀ a b, f a = .ok b → Heard P (w b) → g a = .ok b) {l : List α} {r : List β}
    (hr : l.mapM f = .ok r) (hp : ∀ b ∈ r, Heard P (w b)) : l.mapM g = .ok r := by
  rw [mapM_ok] at hr ⊢
  induction hr with
  | nil => exact .nil
  | cons ha _ ih =>
    rw [List.forall_mem_cons] at hp
    exact .cons (h _ _ ha hp.1) (ih hp.2)

end Lists

namespace Repeats

variable {α : Type} {P : String → Prop} {a b : Context} {v : Version}
  {read : Context → Version → Element → Outcome α} {warnings : α → List Finding}

theorem all (h : Repeats P a b v read warnings) {es : List Element} {cs : List α}
    (hr : readAll read a v es = .ok cs) (hp : ∀ c ∈ cs, Heard P (warnings c)) :
    readAll read b v es = .ok cs :=
  mapM_follows (fun _ _ hc hw => h hc hw) hr hp

theorem option (h : Repeats P a b v read warnings) {e : Option Element} {o : Option α}
    (hr : readOption read a v e = .ok o) (hp : ∀ c ∈ o, Heard P (warnings c)) :
    readOption read b v e = .ok o := by
  rw [readOption_ok] at hr ⊢
  cases hr with
  | none => exact .none
  | some hc => exact .some (h hc (hp _ rfl))

/-- A kind that does not look at the context at all. -/
theorem of_eq (h : read a v = read b v) : Repeats P a b v read warnings :=
  fun _ _ hc _ => h ▸ hc

end Repeats

namespace Context.Follows

variable {P : String → Prop} {a b : Context} {v : Version}

theorem checkTokens (h : Follows P a b) {key : String} {tokens : List String}
    {ws : List Finding} (hw : a.checkTokens key v tokens = .ok ws) (hp : Heard P ws) :
    b.checkTokens key v tokens = .ok ws := by
  simp only [Context.checkTokens, bind_ok, pure_ok] at hw ⊢
  obtain ⟨os, hos, rfl⟩ := hw
  refine ⟨os, mapM_follows (w := Option.toList) (fun _ _ => h) hos ?_, rfl⟩
  intro o ho f hf
  exact hp f (List.mem_filterMap.2 ⟨o, ho, Option.mem_toList.1 hf⟩)

theorem definition (h : Follows P a b) {d : SecurityAttributes.Definition} {value : String}
    {ws : List Finding} (hw : d.check a v value = .ok ws) (hp : Heard P ws) :
    d.check b v value = .ok ws := by
  simp only [SecurityAttributes.Definition.check, bind_ok] at hw ⊢
  obtain ⟨u, hu, u', hu', hk⟩ := hw
  refine ⟨u, hu, u', hu', ?_⟩
  cases hv : d.vocabulary with
  | none => simpa only [hv] using hk
  | some key =>
    simp only [hv] at hk ⊢
    exact h.checkTokens hk hp

/-- The security attributes with their findings. -/
theorem checkedSecurity (h : Follows P a b) {values : List (String × String)}
    {s : SecurityAttributes} (hs : SecurityAttributes.checked a v values = .ok s)
    (hp : Heard P s.warnings) : SecurityAttributes.checked b v values = .ok s := by
  simp only [SecurityAttributes.checked, SecurityAttributes.check, bind_ok, pure_ok] at hs ⊢
  obtain ⟨_, ⟨found, hf, rfl⟩, rfl⟩ := hs
  refine ⟨_, ⟨found, mapM_follows (P := P) (w := id) ?_ hf ?_, rfl⟩, rfl⟩
  · intro d ws hd hws
    cases hl : values.lookup d.name with
    | none => simpa only [hl] using hd
    | some value =>
      simp only [hl] at hd ⊢
      exact h.definition hd hws
  · intro ws hws f hf
    exact hp f (List.mem_flatten.2 ⟨ws, hws, hf⟩)

theorem security (h : Follows P a b) :
    Repeats P a b v SecurityAttributes.ofElement (·.warnings) :=
  fun _ _ hs hp => h.checkedSecurity hs hp

theorem noticeType (h : Follows P a b) {n : NoticeAttributes} {ws : List Finding}
    (hw : n.checkType a = .ok ws) (hp : Heard P ws) : n.checkType b = .ok ws := by
  unfold NoticeAttributes.checkType at hw ⊢
  split
  · rwa [if_pos ‹_›] at hw
  · rw [if_neg ‹_›] at hw
    exact h.checkTokens hw hp

theorem noticeCheck (h : Follows P a b) {n : NoticeAttributes} {ws : List Finding}
    (hw : n.check a = .ok ws) (hp : Heard P ws) : n.check b = .ok ws := by
  unfold NoticeAttributes.check at hw ⊢
  split
  · rwa [if_pos ‹_›] at hw
  · rw [if_neg ‹_›] at hw
    simp only [bind_ok, pure_ok] at hw ⊢
    obtain ⟨u, hu, found, hf, rest⟩ := hw
    have hws : found = ws := by
      obtain ⟨_, _, _, _, _, _, _, _, h⟩ := rest
      exact h
    exact ⟨u, hu, found, h.noticeType hf (hws ▸ hp), rest⟩

/-- The notice attributes with their findings. -/
theorem notice (h : Follows P a b) :
    Repeats P a b v NoticeAttributes.ofElement (·.warnings) := by
  intro e n hn hp
  simp only [NoticeAttributes.ofElement, NoticeAttributes.ofValues, NoticeAttributes.checked,
    bind_ok, pure_ok] at hn ⊢
  obtain ⟨external, hx, ws, hws, rfl⟩ := hn
  exact ⟨external, hx, ws, h.noticeCheck hws hp, rfl⟩

end Context.Follows

end DiscoveryMetadata
