import DiscoveryMetadata.Component.Basic
import DiscoveryMetadata.Component.Checks
import Mathlib.Data.List.Forall2
/-
  When a chain of steps succeeds.

  Reading and making are chains of steps of which each can refuse. The lemmas here say, step by
  step, what it means that such a chain gives a value: `bind_ok` for one step after another,
  `mapM_ok` and `forM_ok` for a step done for each of a list, `demand_ok` and `forbid_ok` for a
  condition. A proof about a component opens its chain with them and works with the steps.
-/
namespace DiscoveryMetadata

open Xml (Element)

section Steps

variable {α β : Type}

@[simp]
theorem bind_ok {x : Outcome α} {f : α → Outcome β} {b : β} :
    (x >>= f) = .ok b ↔ ∃ a, x = .ok a ∧ f a = .ok b := by
  cases x <;> simp [bind, Except.bind]

/-- A step whose result is only changed afterwards decides whether there is one. -/
theorem bind_succeeds {x : Outcome α} {f : α → β} :
    (∃ b, (x >>= fun a => pure (f a)) = .ok b) ↔ ∃ a, x = .ok a := by
  cases x <;> simp [bind, Except.bind, pure, Except.pure]

theorem toOption_ok {x : Outcome α} {a : α} : x.toOption = some a ↔ x = .ok a := by
  cases x <;> simp [Except.toOption]

theorem isSome_toOption {x : Outcome α} : x.toOption.isSome = true ↔ ∃ a, x = .ok a := by
  cases x <;> simp [Except.toOption]

theorem exists_unit {p : Unit → Prop} : (∃ u, p u) ↔ p () :=
  ⟨fun ⟨_, h⟩ => h, fun h => ⟨(), h⟩⟩

@[simp]
theorem pure_ok {a b : α} : (pure a : Outcome α) = .ok b ↔ a = b := by
  simp [pure, Except.pure]

@[simp]
theorem error_ok {f : Fault} {a : α} : (Except.error f : Outcome α) = .ok a ↔ False := by
  simp

@[simp]
theorem throw_ok {f : Fault} {a : α} : (throw f : Outcome α) = .ok a ↔ False := by
  simp [throw, throwThe, MonadExceptOf.throw]

@[simp]
theorem map_ok {x : Outcome α} {f : α → β} {b : β} :
    Except.map f x = .ok b ↔ ∃ a, x = .ok a ∧ f a = b := by
  cases x <;> simp [Except.map]

theorem map_error {x : Outcome α} {g : α → β} {f : Fault} :
    Except.map g x = .error f ↔ x = .error f := by
  cases x <;> simp [Except.map]

@[simp]
theorem within_ok {name : String} {x : Outcome α} {a : α} : within name x = .ok a ↔ x = .ok a := by
  cases x <;> simp [within]

@[simp]
theorem check_ok {b : Base} {x : Outcome α} {a : α} : b.check x = .ok a ↔ x = .ok a :=
  within_ok

@[simp]
theorem withinHolder_ok {e : Element} {wrapper : String} {x : Outcome α} {a : α} :
    withinHolder e wrapper x = .ok a ↔ x = .ok a := by
  unfold withinHolder
  split
  · exact within_ok
  · rfl

@[simp]
theorem demand_ok {c : Bool} {f : Fault} {u : Unit} : demand c f = .ok u ↔ c = true := by
  cases c <;> simp [demand]

@[simp]
theorem forbid_ok {c : Bool} {f : Fault} {u : Unit} : forbid c f = .ok u ↔ c = false := by
  cases c <;> simp [forbid]

@[simp]
theorem ifPresent_ok {t : String} {check : String → Outcome Unit} {u : Unit} :
    ifPresent t check = .ok u ↔ (t ≠ "" → check t = .ok ()) := by
  unfold ifPresent
  by_cases h : t = ""
  · simp [h]
  · simp [h, String.isEmpty_iff]

/-- A condition that only some versions have. -/
@[simp]
theorem ite_ok {c : Prop} [Decidable c] {x : Outcome Unit} {u : Unit} :
    (if c then x else pure ()) = .ok u ↔ (c → x = .ok ()) := by
  by_cases h : c <;> simp [h, pure, Except.pure]

/-- A step that only some cases have, before the others. -/
@[simp]
theorem iteStep_ok {c : Prop} [Decidable c] {x : Outcome Unit} {k : Unit → Outcome β} {b : β} :
    (if c then x >>= k else k ()) = .ok b ↔ (c → x = .ok ()) ∧ k () = .ok b := by
  by_cases h : c
  · rw [if_pos h, bind_ok]
    exact ⟨fun ⟨_, hx, hk⟩ => ⟨fun _ => hx, hk⟩, fun ⟨hx, hk⟩ => ⟨(), hx h, hk⟩⟩
  · rw [if_neg h]
    exact ⟨fun hk => ⟨fun hc => absurd hc h, hk⟩, And.right⟩

@[simp]
theorem forM_ok {l : List α} {f : α → Outcome PUnit} {u : PUnit} :
    l.forM f = .ok u ↔ ∀ a ∈ l, f a = .ok () := by
  induction l with
  | nil => simp [List.forM, pure_ok]
  | cons a l ih =>
    rw [List.forM, bind_ok]
    simp only [ih, List.mem_cons, forall_eq_or_imp]
    constructor
    · rintro ⟨_, ha, hl⟩
      exact ⟨ha, hl⟩
    · rintro ⟨ha, hl⟩
      exact ⟨_, ha, hl⟩

theorem mapM_ok {f : α → Outcome β} {l : List α} {r : List β} :
    l.mapM f = .ok r ↔ List.Forall₂ (fun a b => f a = .ok b) l r := by
  induction l generalizing r with
  | nil => cases r <;> simp [pure_ok]
  | cons a l ih =>
    rw [List.mapM_cons]
    simp only [bind_ok, pure_ok, ih]
    constructor
    · rintro ⟨b, hb, bs, hbs, rfl⟩
      exact .cons hb hbs
    · rintro (_ | ⟨hb, hbs⟩)
      exact ⟨_, hb, _, hbs, rfl⟩

/-- A step that was done for all of a list was done for each. -/
theorem mapM_mem {f : α → Outcome β} {l : List α} {r : List β} (h : l.mapM f = .ok r) {a : α}
    (ha : a ∈ l) : ∃ b, f a = .ok b := by
  replace h := mapM_ok.1 h
  induction h with
  | nil => cases ha
  | cons hb _ ih =>
    rcases List.mem_cons.1 ha with rfl | ha
    · exact ⟨_, hb⟩
    · exact ih ha

/-- A step can be done for all of a list if it can be done for each. -/
theorem mapM_succeeds {f : α → Outcome β} {l : List α} :
    (∃ r, l.mapM f = .ok r) ↔ ∀ a ∈ l, ∃ b, f a = .ok b := by
  constructor
  · rintro ⟨r, h⟩ a ha
    exact mapM_mem h ha
  · intro h
    induction l with
    | nil => exact ⟨[], rfl⟩
    | cons a l ih =>
      obtain ⟨ha, hl⟩ := List.forall_mem_cons.1 h
      obtain ⟨b, hb⟩ := ha
      obtain ⟨r, hr⟩ := ih hl
      exact ⟨b :: r, mapM_ok.2 (.cons hb (mapM_ok.1 hr))⟩

/-- What holds of a result whatever it comes from holds of all results. -/
theorem mapM_all {Q : β → Prop} {f : α → Outcome β} {l : List α}
    (hf : ∀ a ∈ l, ∀ b, f a = .ok b → Q b) {r : List β} (h : l.mapM f = .ok r) : ∀ b ∈ r, Q b := by
  replace h := mapM_ok.1 h
  induction h with
  | nil => simp
  | cons hb _ ih =>
    rw [List.forall_mem_cons] at hf
    exact List.forall_mem_cons.2 ⟨hf.1 _ hb, ih hf.2⟩

theorem optionMapM_ok {f : α → Outcome β} {o : Option α} {p : Option β} :
    o.mapM f = .ok p ↔ Option.Rel (fun a b => f a = .ok b) o p := by
  cases o with
  | none =>
    rw [Option.mapM_none, pure_ok]
    constructor
    · rintro rfl
      exact .none
    · rintro ⟨⟩
      rfl
  | some a =>
    rw [Option.mapM_some, ← bind_pure_comp, bind_ok]
    constructor
    · rintro ⟨b, hb, h⟩
      cases h
      exact .some hb
    · intro h
      cases h with
      | some hb => exact ⟨_, hb, rfl⟩

end Steps

section Checks

variable {e : Element} {v : Version} {l : String} {u : Unit}

theorem Xml.Element.uri_of_isNamed {uri : String} (h : e.name.isNamed uri l = true) :
    e.uri = uri := by
  rw [Xml.QName.isNamed, Bool.and_eq_true, beq_iff_eq, beq_iff_eq] at h
  rw [Element.uri, h.2, Option.getD_some]

theorem Xml.Element.localName_of_isNamed {uri : String} (h : e.name.isNamed uri l = true) :
    e.localName = l := by
  rw [Xml.QName.isNamed, Bool.and_eq_true, beq_iff_eq, beq_iff_eq] at h
  exact h.1

theorem requireDdms_ok : requireDdms e v l = .ok u ↔ e.name.isNamed v.ddmsUri l = true := by
  rw [requireDdms, demand_ok]

theorem requireChildren_ok {low high : Nat} :
    requireChildren e l low high = .ok u ↔
      (low ≤ (e.ownChildren l).length && (e.ownChildren l).length ≤ high) = true := by
  rw [requireChildren, requireCount, demand_ok]

@[simp]
theorem Base.requireSameVersion_ok (b c : Base) :
    b.requireSameVersion c = .ok u ↔ c.version = b.version := by
  rw [requireSameVersion, demand_ok, beq_iff_eq]

@[simp]
theorem Base.requireSameVersions_ok (b : Base) (cs : List Base) :
    b.requireSameVersions cs = .ok u ↔ ∀ c ∈ cs, c.version = b.version := by
  rw [requireSameVersions, forM_ok]
  simp only [requireSameVersion_ok]

end Checks

section Reading

variable {α : Type} {f : Context → Version → Element → Outcome α} {ctx : Context} {v : Version}

theorem readAll_ok {es : List Element} {cs : List α} :
    readAll f ctx v es = .ok cs ↔ List.Forall₂ (fun e c => f ctx v e = .ok c) es cs :=
  mapM_ok

theorem readOption_ok {o : Option Element} {p : Option α} :
    readOption f ctx v o = .ok p ↔ Option.Rel (fun e c => f ctx v e = .ok c) o p :=
  optionMapM_ok

/-- What holds of a part whatever element it is read from holds of all that are read. -/
theorem readAll_all {Q : α → Prop} (hf : ∀ e c, f ctx v e = .ok c → Q c) {es : List Element}
    {cs : List α} (h : readAll f ctx v es = .ok cs) : ∀ c ∈ cs, Q c :=
  mapM_all (fun e _ => hf e) h

theorem readOption_all {Q : α → Prop} (hf : ∀ e c, f ctx v e = .ok c → Q c) {o : Option Element}
    {p : Option α} (h : readOption f ctx v o = .ok p) : ∀ c ∈ p, Q c := by
  cases readOption_ok.1 h with
  | none => simp
  | some hc => simpa using hf _ _ hc

end Reading

namespace Buildable

variable {δ α : Type} [Buildable δ α] {ctx : Context} {v : Version}

theorem commitAs_none {d : δ} : commitAs ctx v d = .ok none ↔ isEmpty d = true := by
  unfold commitAs
  cases isEmpty d <;> simp [map_ok]

theorem commitAs_some {d : δ} {c : α} :
    commitAs ctx v d = .ok (some c) ↔ isEmpty d = false ∧ build ctx v d = .ok c := by
  unfold commitAs
  cases isEmpty d <;> simp [map_ok]

/-- What holds of a component whatever draft it is made from holds of the one that is made. -/
theorem commitAs_all {Q : α → Prop} {d : δ} (hb : ∀ c, build ctx v d = .ok c → Q c)
    {o : Option α} (h : commitAs ctx v d = .ok o) : ∀ c ∈ o, Q c := by
  rintro c rfl
  exact hb c (commitAs_some.1 h).2

theorem commitAll_nil {cs : List α} : commitAll ctx v ([] : List δ) = .ok cs ↔ cs = [] := by
  constructor
  · rintro ⟨⟩
    rfl
  · rintro rfl
    rfl

theorem commitAll_cons {d : δ} {ds : List δ} {cs : List α} :
    commitAll ctx v (d :: ds) = .ok cs ↔
      ∃ o r, commitAs ctx v d = .ok o ∧ commitAll ctx v ds = .ok r ∧ cs = o.toList ++ r := by
  simp only [commitAll, List.mapM_cons, bind_ok, pure_ok]
  constructor
  · rintro ⟨_, ⟨o, ho, os, hos, rfl⟩, rfl⟩
    exact ⟨o, _, ho, ⟨os, hos, rfl⟩, by cases o <;> simp⟩
  · rintro ⟨o, _, ho, ⟨os, hos, rfl⟩, rfl⟩
    exact ⟨_, ⟨o, ho, os, hos, rfl⟩, by cases o <;> simp⟩

theorem commitAll_all {Q : α → Prop} {ds : List δ}
    (hb : ∀ d ∈ ds, ∀ c, build ctx v d = .ok c → Q c) {cs : List α}
    (h : commitAll ctx v ds = .ok cs) : ∀ c ∈ cs, Q c := by
  induction ds generalizing cs with
  | nil => simp [commitAll_nil.1 h]
  | cons d ds ih =>
    obtain ⟨o, r, ho, hr, rfl⟩ := commitAll_cons.1 h
    intro c hc
    rcases List.mem_append.1 hc with hc | hc
    · exact commitAs_all (hb d List.mem_cons_self) ho c (Option.mem_toList.1 hc)
    · exact ih (fun d hd => hb d (List.mem_cons_of_mem _ hd)) hr c hc

end Buildable

end DiscoveryMetadata
