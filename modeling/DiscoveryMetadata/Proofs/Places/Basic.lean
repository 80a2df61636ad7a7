import DiscoveryMetadata.Calendar
import DiscoveryMetadata.Proofs.Outcome
import DiscoveryMetadata.Text.Names
import DiscoveryMetadata.Uri
/-
  Where a fault in a document lies.

  A fault has no place where it arises. Each enclosing element puts its own name in front on the
  way out, so a fault that leaves a reader holds the names of elements that lead down to it.

  `Leads e names` says that `names` start with the name of `e`, each next one that of a child of
  the element reached so far. `Placed e f` says that the place of `f` is such a chain. What
  happens inside an element is `Unplaced` or placed in one of its children (`Beneath`), and
  `within` makes it placed in the element itself (`Fails.within`).

  `Fails P x` says that `P` holds of the fault of `x`, if there is one. The lemmas about it follow
  the steps that a reader is made of.
-/
namespace DiscoveryMetadata

open Xml (Element)

/-- The names lead from the element down to one below it, or stop at the element. -/
inductive Leads : Element → List String → Prop
  | here (e : Element) : Leads e [e.writtenName]
  | down {e c : Element} {names : List String} (hc : c ∈ e.children) (h : Leads c names) :
    Leads e (e.writtenName :: names)

namespace Fault

/-- The names as a place in a document. -/
def place : List String → String
  | [] => ""
  | name :: names => "/" ++ name ++ place names

/-- A rule is broken, and nothing is said about where. -/
def Unplaced (f : Fault) : Prop := ∃ m, f = .invalid m none

/-- A rule is broken at a place that leads down from the element. -/
def Placed (e : Element) (f : Fault) : Prop :=
  ∃ m names, Leads e names ∧ f = .invalid m (some (place names))

/-- A rule is broken inside the element, which has not put its name in front yet. -/
def Beneath (e : Element) (f : Fault) : Prop := f.Unplaced ∨ ∃ c ∈ e.children, f.Placed c

@[simp]
theorem unplaced_rule (sentence : String) : (rule sentence).Unplaced := ⟨sentence, rfl⟩

@[simp]
theorem unplaced_required (name : String) : (required name).Unplaced := unplaced_rule _

@[simp]
theorem unplaced_tooEarly (subject minimum : String) : (tooEarly subject minimum).Unplaced :=
  unplaced_rule _

@[simp]
theorem unplaced_unexpectedName (clark : String) : (unexpectedName clark).Unplaced :=
  unplaced_rule _

@[simp]
theorem unplaced_notBoolean (name : String) : (notBoolean name).Unplaced := unplaced_rule _

@[simp]
theorem unplaced_notDate (subject : String) : (notDate subject).Unplaced := unplaced_rule _

@[simp]
theorem unplaced_notOneOf (name : String) (allowed : List String) :
    (notOneOf name allowed).Unplaced := unplaced_rule _

@[simp]
theorem unplaced_securityTooEarly (minimum : String) : (securityTooEarly minimum).Unplaced :=
  unplaced_rule _

@[simp]
theorem unplaced_miscounted (name : String) (low high : Nat) :
    (miscounted name low high).Unplaced := by
  unfold miscounted
  split_ifs <;> exact unplaced_rule _

/-- The element puts its name in front of what happened inside it. -/
theorem Beneath.locate {e : Element} {f : Fault} (h : f.Beneath e) (he : e.writtenName ≠ "") :
    (f.locate e.writtenName).Placed e := by
  have hname : e.writtenName.isEmpty = false := by simpa [String.isEmpty_iff] using he
  rcases h with ⟨m, rfl⟩ | ⟨c, hc, m, names, hn, rfl⟩
  · exact ⟨m, _, .here e, by simp [Fault.locate, hname, place]⟩
  · exact ⟨m, _, .down hc hn, by simp [Fault.locate, hname, place]⟩

end Fault

open Fault (Unplaced Placed Beneath)

/-- The property holds of the fault of an outcome, if it is one. -/
def Fails {α : Type} (P : Fault → Prop) (x : Outcome α) : Prop := ∀ f, x = .error f → P f

namespace Fails

variable {α β : Type} {P Q : Fault → Prop} {x : Outcome α} {e : Element}

theorem mono (hx : Fails P x) (h : ∀ f, P f → Q f) : Fails Q x := fun f hf => h f (hx f hf)

@[simp]
theorem ok {a : α} : Fails P (.ok a : Outcome α) := nofun

@[simp]
theorem pure {a : α} : Fails P (Pure.pure a : Outcome α) := nofun

@[simp]
theorem error {f : Fault} : Fails P (.error f : Outcome α) ↔ P f :=
  ⟨fun h => h f rfl, fun h _ hf => by cases hf; exact h⟩

@[simp]
theorem throw {f : Fault} : Fails P (MonadExcept.throw f : Outcome α) ↔ P f := error

theorem bind {g : α → Outcome β} (hx : Fails P x) (hg : ∀ a, x = .ok a → Fails P (g a)) :
    Fails P (x >>= g) := by
  cases x with
  | error f => exact fun _ h => by cases h; exact hx f rfl
  | ok a => exact hg a rfl

/-- A chain of steps fails as its first step does, or as one that comes after what it gave. -/
@[simp]
theorem bind_iff {g : α → Outcome β} :
    Fails P (x >>= g) ↔ Fails P x ∧ ∀ a, x = .ok a → Fails P (g a) := by
  refine ⟨fun h => ?_, fun ⟨hx, hg⟩ => bind hx hg⟩
  cases x with
  | error f => exact ⟨fun _ hf => by cases hf; exact h f rfl, nofun⟩
  | ok a => exact ⟨ok, fun b hb => by cases hb; exact h⟩

@[simp]
theorem map {g : α → β} : Fails P (Except.map g x) ↔ Fails P x := by
  cases x <;> simp [Except.map]

@[simp]
theorem functorMap {g : α → β} : Fails P (g <$> x) ↔ Fails P x := by
  cases x <;> simp [Functor.map, Except.map]

@[simp]
theorem demand {c : Bool} {f : Fault} : Fails P (demand c f) ↔ (c = false → P f) := by
  cases c <;> simp [DiscoveryMetadata.demand]

@[simp]
theorem forbid {c : Bool} {f : Fault} : Fails P (forbid c f) ↔ (c = true → P f) := by
  cases c <;> simp [DiscoveryMetadata.forbid]

theorem ifPresent {t : String} {check : String → Outcome Unit} (h : Fails P (check t)) :
    Fails P (ifPresent t check) := by
  unfold DiscoveryMetadata.ifPresent
  split
  · exact ok
  · exact h

theorem forM {l : List α} {g : α → Outcome PUnit} (h : ∀ a ∈ l, Fails P (g a)) :
    Fails P (l.forM g) := by
  induction l with
  | nil => exact pure
  | cons a l ih =>
    rw [List.forall_mem_cons] at h
    exact bind h.1 fun _ _ => ih h.2

theorem mapM {l : List α} {g : α → Outcome β} (h : ∀ a ∈ l, Fails P (g a)) :
    Fails P (l.mapM g) := by
  induction l with
  | nil => exact pure
  | cons a l ih =>
    rw [List.forall_mem_cons] at h
    rw [List.mapM_cons]
    exact bind h.1 fun _ _ => bind (ih h.2) fun _ _ => pure

theorem optionMapM {o : Option α} {g : α → Outcome β} (h : ∀ a ∈ o, Fails P (g a)) :
    Fails P (o.mapM g) := by
  cases o with
  | none => exact pure
  | some a =>
    rw [Option.mapM_some, ← bind_pure_comp]
    exact bind (h a rfl) fun _ _ => pure

/-- What fails inside an element is placed in it once the element has put its name in front. -/
theorem within (he : e.writtenName ≠ "") (hx : Fails (Beneath e) x) :
    Fails (Placed e) (within e.writtenName x) := by
  cases x with
  | ok a => exact ok
  | error f => exact error.2 ((hx f rfl).locate he)

/-- What has no place yet lies inside whatever element comes next. -/
theorem beneath (hx : Fails Unplaced x) : Fails (Beneath e) x := hx.mono fun _ => .inl

/-- What is placed in a child lies inside the element. -/
theorem inChild {c : Element} (hx : Fails (Placed c) x) (hc : c ∈ e.children) :
    Fails (Beneath e) x :=
  hx.mono fun _ h => .inr ⟨c, hc, h⟩

/-- A fault without a place is placed in the first element that puts its name in front. -/
theorem own (he : e.writtenName ≠ "") (hx : Fails Unplaced x) :
    Fails (Placed e) (DiscoveryMetadata.within e.writtenName x) :=
  within he hx.beneath

/-- An element without a name puts nothing in front. -/
theorem nameless (he : e.writtenName = "") (hx : Fails P x) :
    Fails P (DiscoveryMetadata.within e.writtenName x) := by
  rw [he]
  cases x with
  | ok a => exact ok
  | error f =>
    have hf : f.locate "" = f := by cases f <;> rfl
    exact error.2 (by rw [hf]; exact hx f rfl)

/-- A component is the element that its rules are about. -/
theorem checkBeneath {b : Base} (hb : b.element.writtenName ≠ "")
    (hx : Fails (Beneath b.element) x) : Fails (Placed b.element) (b.check x) :=
  within hb hx

theorem check {b : Base} (hb : b.element.writtenName ≠ "") (hx : Fails Unplaced x) :
    Fails (Placed b.element) (b.check x) :=
  checkBeneath hb hx.beneath

end Fails

section Rules

variable {e : Element} {v minimum : Version} {b : Base}

@[simp]
theorem requireCount_fails (name : String) (count low high : Nat) :
    Fails Unplaced (requireCount name count low high) := by
  simp [requireCount]

@[simp]
theorem requireChildren_fails (localName : String) (low high : Nat) :
    Fails Unplaced (requireChildren e localName low high) :=
  requireCount_fails _ _ _ _

@[simp]
theorem requireValue_fails (name value : String) : Fails Unplaced (requireValue name value) := by
  simp [requireValue]

@[simp]
theorem requireVersion_fails (subject : String) :
    Fails Unplaced (requireVersion v minimum subject) := by
  simp [requireVersion]

@[simp]
theorem requireDdmsUri_fails : Fails Unplaced (requireDdmsUri e v) := by
  simp [requireDdmsUri]

@[simp]
theorem requireDdms_fails (localName : String) : Fails Unplaced (requireDdms e v localName) := by
  simp [requireDdms]

/-- Only a schema that the version does not draw on makes this fail in another way. -/
theorem requireIn_fails {s : Schema} {uri : String} (hs : v.uriOf s = .ok uri)
    (localName : String) : Fails Unplaced (requireIn e v s localName) := by
  simp [requireIn, hs]

@[simp]
theorem requireSameVersion_fails (part : Base) : Fails Unplaced (b.requireSameVersion part) := by
  simp [Base.requireSameVersion]

@[simp]
theorem requireSameVersions_fails (parts : List Base) :
    Fails Unplaced (b.requireSameVersions parts) :=
  .forM fun _ _ => requireSameVersion_fails _

@[simp]
theorem uriCheck_fails (text : String) : Fails Unplaced (Uri.check text) := by
  unfold Uri.check
  split <;> simp

@[simp]
theorem ifPresent_uriCheck_fails (text : String) : Fails Unplaced (ifPresent text Uri.check) :=
  .ifPresent (uriCheck_fails text)

@[simp]
theorem checkNCName_fails (text : String) : Fails Unplaced (Text.checkNCName text) := by
  simp [Text.checkNCName]

@[simp]
theorem checkNCNames_fails (text : String) : Fails Unplaced (Text.checkNCNames text) :=
  .forM fun _ _ => checkNCName_fails _

@[simp]
theorem checkNameToken_fails (text : String) : Fails Unplaced (Text.checkNameToken text) := by
  simp [Text.checkNameToken]

@[simp]
theorem requireKind_fails (text : String) : Fails Unplaced (Calendar.requireKind text) := by
  unfold Calendar.requireKind
  split <;> simp

end Rules

section Children

variable {α : Type} {f : Context → Version → Element → Outcome α} {ctx : Context} {v : Version}
  {e : Element}

theorem localName_eq {uri localName : String} (h : e.name.isNamed uri localName = true) :
    e.localName = localName := by
  simp only [Xml.QName.isNamed, Bool.and_eq_true, beq_iff_eq] at h
  exact h.1

/-- An element with a local name has a written name. -/
theorem writtenName_ne {localName : String} (hn : localName ≠ "") (h : e.localName = localName) :
    e.writtenName ≠ "" := by
  subst h
  unfold Element.writtenName Xml.QName.written
  split
  · simp [String.append_eq_empty_iff]
  · exact hn

/-- A reader places its faults in the element that it reads, if that has a name. -/
def Places (f : Context → Version → Element → Outcome α) (ctx : Context) : Prop :=
  ∀ (v : Version) (e : Element), e.writtenName ≠ "" → Fails (Placed e) (f ctx v e)

theorem Places.readAll (hf : Places f ctx) {localName : String} (hn : localName ≠ "")
    (uri : String) : Fails (Beneath e) (readAll f ctx v (e.childrenNamed uri localName)) := by
  refine .mapM fun c hc => ?_
  obtain ⟨hc, hname⟩ := List.mem_filter.1 hc
  exact (hf v c (writtenName_ne hn (localName_eq hname))).inChild hc

theorem Places.readOption (hf : Places f ctx) {localName : String} (hn : localName ≠ "")
    (uri : String) : Fails (Beneath e) (readOption f ctx v (e.child? uri localName)) := by
  refine .optionMapM fun c hc => ?_
  have hname := List.find?_some hc
  exact (hf v c (writtenName_ne hn (localName_eq hname))).inChild (List.mem_of_find?_eq_some hc)

/-- The element of the content is the element itself, or its child with the name of the wrapper. -/
def Holds (e : Element) (wrapper : String) (holder : Element) : Prop :=
  (holder = e ∧ e.localName ≠ wrapper) ∨ (holder ∈ e.children ∧ holder.localName = wrapper)

theorem holds_of_holder? {wrapper : String} {holder : Element} (he : e.localName ≠ wrapper)
    (h : e.holder? v wrapper = some holder) : Holds e wrapper holder := by
  unfold Element.holder? Element.wrapper? Element.ownChild? Element.child? at h
  split_ifs at h
  · exact .inl ⟨(Option.some.inj h).symm, he⟩
  · have hname := List.find?_some h
    exact .inr ⟨List.mem_of_find?_eq_some h, localName_eq hname⟩

theorem holds_getD {wrapper : String} (he : e.localName ≠ wrapper) :
    Holds e wrapper ((e.holder? v wrapper).getD e) := by
  cases h : e.holder? v wrapper with
  | none => exact .inl ⟨rfl, he⟩
  | some holder => exact holds_of_holder? he h

/-- A wrapper shows on the way out, and the element itself does not show twice. -/
theorem Fails.withinHolder {β : Type} {wrapper : String} {holder : Element} {x : Outcome β}
    (hh : Holds e wrapper holder) (hw : wrapper ≠ "") (hx : Fails (Beneath holder) x) :
    Fails (Beneath e) (withinHolder holder wrapper x) := by
  unfold DiscoveryMetadata.withinHolder
  rcases hh with ⟨rfl, hn⟩ | ⟨hc, hn⟩
  · rw [if_neg (by simpa using hn)]
    exact hx
  · rw [if_pos (by simpa using hn)]
    exact (Fails.within (writtenName_ne hw hn) hx).inChild hc

end Children

end DiscoveryMetadata
