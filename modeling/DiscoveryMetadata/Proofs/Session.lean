import DiscoveryMetadata.Proofs.Outcome
/-
  Sessions over time.

  The configuration, the current version and the loaded vocabularies of a session are changed one
  after the other, and each change can be refused. Between any two requests they fit together:
  what is loaded is what loading for the installed configuration gives (`Coherent`). The lemmas
  `perform_lookUp`, `perform_select` and `perform_adopt` say once what each operation answers and
  what it leaves behind; `Coherent.step` follows for one request and `Coherent.after` for a history
  of them.

  Main statement: `history_coherent`. After any history, a configuration is installed as a whole or
  not at all, a look into the vocabularies sees those that the installed configuration names, and
  one that fails leaves nothing behind.
-/
namespace DiscoveryMetadata.Session

variable {files : Files} {s : Session} {c : Configuration}

/-- What can be asked of a session. -/
inductive Request where
  /-- To install a configuration. -/
  | install (c : Configuration)
  /-- To make the version with this number the current one. -/
  | select (number : String)
  /-- To look into the vocabularies. -/
  | lookUp
  /-- To forget the vocabularies. -/
  | forget

/-- The session after a request, whether it was refused or not. -/
def step (files : Files) (s : Session) : Request → Session
  | .install c => ((adopt c).perform s).2
  | .select number => ((Session.select number).perform s).2
  | .lookUp => (s.vocabulary files).2
  | .forget => s.forget

/-- The session after several requests. -/
def after (files : Files) (s : Session) (qs : List Request) : Session := qs.foldl (step files) s

/-- What is loaded is what loading for the installed configuration gives. -/
def Coherent (files : Files) (s : Session) : Prop :=
  ∀ voc, s.loaded = some voc → loadFor files s.configuration = .ok voc

section Operations

theorem perform_lookUp (files : Files) (s : Session) : (lookUp files).perform s =
    match s.loaded, loadFor files s.configuration with
    | some voc, _ => (.ok voc, s)
    | none, .ok voc => (.ok voc, { s with loaded := some voc })
    | none, .error f => (.error f, s) := by
  obtain ⟨configuration, current, loaded⟩ := s
  cases loaded with
  | some voc => rfl
  | none =>
    -- the second look at the session finds the same configuration
    have hrun : (lookUp files).perform ⟨configuration, current, none⟩ =
        (Operation.ofOutcome (loadFor files configuration) >>= fun voc => do
          modify fun s : Session => { s with loaded := some voc }
          return voc : Operation Vocabulary).perform ⟨configuration, current, none⟩ := rfl
    rw [hrun]
    cases loadFor files configuration <;> rfl

theorem perform_select (number : String) (s : Session) : (select number).perform s =
    match Version.ofText number with
    | .ok v => (.ok v, { s with current := v })
    | .error f => (.error f, s) := by
  unfold select
  cases Version.ofText number <;> rfl

/-- The version that a check finds is the one of the configuration's number. -/
theorem ofText_of_check {v : Version} (h : c.check = .ok v) :
    Version.ofText c.defaultVersion = .ok v := by
  obtain ⟨w, hw, h⟩ := bind_ok.1 h
  obtain ⟨-, -, h⟩ := bind_ok.1 h
  rw [hw, pure_ok.1 h]

/-- Once the check has passed, no later step of installing a configuration is refused. -/
theorem perform_adopt (c : Configuration) (s : Session) : (adopt c).perform s =
    match c.check with
    | .ok v => (.ok (), ⟨c, v, none⟩)
    | .error f => (.error f, s) := by
  unfold adopt
  cases h : c.check with
  | error f => rfl
  | ok v =>
    unfold select
    rw [ofText_of_check h]
    rfl

/-- A configuration that is refused leaves the session as it was. -/
theorem adopt_error {f : Fault} {s' : Session} (h : (adopt c).perform s = (.error f, s')) :
    s' = s := by
  rw [perform_adopt] at h
  cases hc : c.check with
  | ok v =>
    rw [hc] at h
    cases h
  | error g =>
    rw [hc] at h
    cases h
    rfl

/-- A configuration that is not refused has passed the check, and nothing is loaded for it yet. -/
theorem adopt_ok {s' : Session} (h : (adopt c).perform s = (.ok (), s')) :
    ∃ v, c.check = .ok v ∧ s' = ⟨c, v, none⟩ := by
  rw [perform_adopt] at h
  cases hc : c.check with
  | ok v =>
    rw [hc] at h
    cases h
    exact ⟨v, rfl, rfl⟩
  | error g =>
    rw [hc] at h
    cases h

/-- Just the configurations that pass the check are installed, and nothing is loaded for them yet. -/
theorem install_ok {s' : Session} :
    s.install c = .ok s' ↔ ∃ v, c.check = .ok v ∧ s' = ⟨c, v, none⟩ := by
  unfold install
  rw [perform_adopt]
  cases c.check with
  | ok v => simp [Except.map, eq_comm]
  | error f => simp [Except.map]

theorem vocabulary_eq (files : Files) (s : Session) :
    s.vocabulary files = (lookUp files).perform s := rfl

/-- A look that fails finds nothing loaded and leaves nothing behind. -/
theorem vocabulary_error {f : Fault} {s' : Session} (h : s.vocabulary files = (.error f, s')) :
    s' = s ∧ s'.loaded = none := by
  rw [vocabulary_eq, perform_lookUp] at h
  cases hl : s.loaded with
  | some voc =>
    rw [hl] at h
    cases h
  | none =>
    rw [hl] at h
    cases hload : loadFor files s.configuration with
    | ok voc =>
      rw [hload] at h
      cases h
    | error g =>
      rw [hload] at h
      cases h
      exact ⟨rfl, hl⟩

end Operations

section Invariant

/-- A session in which nothing is loaded is coherent. -/
theorem Coherent.of_none (h : s.loaded = none) : Coherent files s := by
  intro voc hvoc
  rw [h] at hvoc
  cases hvoc

/-- A look into the vocabularies of a coherent session gives what loading gives. -/
theorem Coherent.vocabulary (h : Coherent files s) :
    (s.vocabulary files).1 = loadFor files s.configuration := by
  rw [vocabulary_eq, perform_lookUp]
  cases hs : s.loaded with
  | some voc => exact (h voc hs).symm
  | none => cases loadFor files s.configuration <;> rfl

/-- Looking changes at most what is loaded. -/
theorem configuration_vocabulary (files : Files) (s : Session) :
    (s.vocabulary files).2.configuration = s.configuration := by
  rw [vocabulary_eq, perform_lookUp]
  cases s.loaded with
  | some voc => rfl
  | none => cases loadFor files s.configuration <;> rfl

theorem Coherent.step (h : Coherent files s) (q : Request) : Coherent files (step files s q) := by
  cases q with
  | install c =>
    rw [Session.step, perform_adopt]
    cases c.check with
    | ok v => exact .of_none rfl
    | error f => exact h
  | select number =>
    rw [Session.step, perform_select]
    cases Version.ofText number with
    | ok v => exact h
    | error f => exact h
  | lookUp =>
    rw [Session.step, vocabulary_eq, perform_lookUp]
    cases hs : s.loaded with
    | some voc => exact h
    | none =>
      -- only here something is loaded, and it is what the configuration in force brings in
      cases hload : loadFor files s.configuration with
      | ok voc =>
        intro voc' hvoc
        obtain rfl := Option.some.inj hvoc
        exact hload
      | error f => exact h
  | forget => exact .of_none rfl

theorem Coherent.after (h : Coherent files s) (qs : List Request) :
    Coherent files (after files s qs) := by
  induction qs generalizing s with
  | nil => exact h
  | cons q r ih => exact ih (h.step q)

/-- Only a usable configuration takes the place of the installed one. -/
theorem configuration_step {q : Request} (h : ∀ c, q = .install c → ∃ f, c.check = .error f) :
    (step files s q).configuration = s.configuration := by
  cases q with
  | install c =>
    obtain ⟨f, hf⟩ := h c rfl
    rw [step, perform_adopt, hf]
  | select number =>
    rw [step, perform_select]
    cases Version.ofText number <;> rfl
  | lookUp => exact configuration_vocabulary files s
  | forget => rfl

theorem configuration_after {qs : List Request}
    (h : ∀ c, .install c ∈ qs → ∃ f, c.check = .error f) :
    (after files s qs).configuration = s.configuration := by
  induction qs generalizing s with
  | nil => rfl
  | cons q r ih =>
    have hq : (step files s q).configuration = s.configuration :=
      configuration_step fun c hc => h c (hc ▸ List.mem_cons_self)
    exact (ih fun c hc => h c (List.mem_cons_of_mem q hc)).trans hq

end Invariant

/-- After any history of requests: a configuration that is refused leaves the session as it was; one
that is not is in force, with its version, for all later looks into the vocabularies until another
one is installed; what a token is found in are the vocabularies that the installed configuration
names; and where these cannot be loaded, nothing is kept. -/
theorem history_coherent (files : Files) (qs : List Request) :
    let s := after files {} qs
    (∀ c f s', (adopt c).perform s = (.error f, s') → s' = s) ∧
    (∀ c s', (adopt c).perform s = (.ok (), s') →
      s'.configuration = c ∧ Version.ofText c.defaultVersion = .ok s'.current ∧
        ∀ later, (∀ c', .install c' ∈ later → ∃ f, c'.check = .error f) →
          (after files s' later).configuration = c ∧
            ((after files s' later).vocabulary files).1 = loadFor files c) ∧
    (∀ key token v b, (s.context files).1.knows key token v = .ok b →
      ∃ voc, loadFor files s.configuration = .ok voc ∧ voc.contains key token v = .ok b) ∧
    (∀ f s', s.vocabulary files = (.error f, s') → s' = s ∧ s'.loaded = none) := by
  intro s
  have hs : Coherent files s := (Coherent.of_none rfl).after qs
  refine ⟨fun c f s' h => adopt_error h, ?installed, ?answered, fun f s' h => vocabulary_error h⟩
  case installed =>
    intro c s' h
    obtain ⟨v, hc, rfl⟩ := adopt_ok h
    refine ⟨rfl, ofText_of_check hc, ?_⟩
    intro later hlater
    have hkept : (after files ⟨c, v, none⟩ later).configuration = c := configuration_after hlater
    have hcoherent : Coherent files (after files ⟨c, v, none⟩ later) :=
      (Coherent.of_none rfl).after later
    exact ⟨hkept, by rw [hcoherent.vocabulary, hkept]⟩
  case answered =>
    intro key token v b h
    -- the context sees the vocabularies that a look gives
    have hlook : (s.context files).1.vocabulary = loadFor files s.configuration := hs.vocabulary
    obtain ⟨voc, hvoc, hb⟩ := bind_ok.1 h
    exact ⟨voc, hlook ▸ hvoc, hb⟩

/-- A configuration of another version, with a prefix that is no name. -/
def misnamed : Configuration := { prefixes := { ddms := "1" }, defaultVersion := "3.1" }

/-- A configuration that names a directory for the vocabularies. -/
def moved : Configuration := { vocabularyLocation := some "cve" }

/-- Behind a look into the vocabularies, a configuration that is refused changes nothing. Where one
is installed whose directory is missing, what was looked at before is not used any more. -/
theorem history_coherent_moved :
    ∃ s₀ s f g, after Files.none {} [.lookUp] = s₀ ∧ s₀.loaded.isSome = true ∧
      (adopt misnamed).perform s₀ = (.error g, s₀) ∧ (adopt moved).perform s₀ = (.ok (), s) ∧
      s.configuration = moved ∧ s.vocabulary Files.none = (.error f, s) ∧ s.loaded = none := by
  have hloaded : (after Files.none {} [.lookUp]).loaded.isSome = true := by
    show ((lookUp Files.none).perform {}).2.loaded.isSome = true
    rw [perform_lookUp]
    rfl
  obtain ⟨hrefused, hinstalled, -⟩ := history_coherent Files.none [.lookUp]
  obtain ⟨g, s₁, hmisnamed⟩ : ∃ g s₁, (adopt misnamed).perform (after Files.none {} [.lookUp]) =
      (.error g, s₁) := by
    obtain ⟨g, hg⟩ : ∃ g, misnamed.check = .error g := ⟨_, rfl⟩
    exact ⟨g, _, by rw [perform_adopt, hg]⟩
  obtain rfl := hrefused misnamed g s₁ hmisnamed
  have hcheck : moved.check = .ok .v5_0 := toOption_ok.1 (by decide +kernel)
  have hadopt : (adopt moved).perform (after Files.none {} [.lookUp]) =
      (.ok (), ⟨moved, .v5_0, none⟩) := by
    rw [perform_adopt, hcheck]
  obtain ⟨-, -, -, hunloaded⟩ := history_coherent Files.none [.lookUp, .install moved]
  obtain ⟨hmoved, -, hlater⟩ := hinstalled moved _ hadopt
  have hlook := (hlater [] nofun).2
  obtain ⟨f, hf⟩ : ∃ f, loadFor Files.none moved = .error f := ⟨_, rfl⟩
  have hstate : after Files.none {} [.lookUp, .install moved] = ⟨moved, .v5_0, none⟩ :=
    congrArg Prod.snd hadopt
  rw [hstate] at hunloaded
  have hanswer : (vocabulary Files.none ⟨moved, .v5_0, none⟩).1 = .error f := hlook.trans hf
  obtain ⟨hsame, -⟩ := hunloaded f _ (Prod.ext hanswer rfl)
  exact ⟨_, _, f, g, rfl, hloaded, hmisnamed, hadopt, hmoved, Prod.ext hanswer hsame, rfl⟩

end DiscoveryMetadata.Session
