import DiscoveryMetadata.Proofs.Equality
import DiscoveryMetadata.Proofs.Output.Legible
import DiscoveryMetadata.Proofs.Places.Attributes
import DiscoveryMetadata.Proofs.Returning.Management
import DiscoveryMetadata.Proofs.Returning.Protection
import DiscoveryMetadata.Proofs.Strictness.Tokens
/-
  Reading finds what making made, in the security and in the management of a resource.

  What is committed is read again from the element that it is made into, part by part. One list of
  tokens is written into a single attribute: the kinds of contact of a notice text. It is found
  again just if no kind of contact holds white space (`committed_reread`), and a vocabulary that
  binds sees to that as soon as all kinds that it knows are words (`Context.KnowsWords`), as they
  are in the standard one. Vocabularies can be replaced, though, and nothing asks their tokens to be
  words (`spaced_not_reread`).

  So it is with every list in one attribute: what is read again is the list of the words of its
  members (`lists_reread`). Nothing else sees to it that the members are words: the labels of axes
  are checked as one text, in which they cannot be told apart any more, and the kinds of contact of
  a role are not checked before version 4.1.
-/
namespace DiscoveryMetadata

open Buildable
open Text (IsWord)
open Xml (Element)

namespace Context

variable {ctx : Context} {v : Version} {key : String}

/-- Only words are known for kinds of contact. -/
def KnowsWords (ctx : Context) : Prop :=
  ∀ (v : Version) (t : String), ctx.knows Vocabulary.Key.pocType t v = .ok true → IsWord t

/-- Where vocabularies bind, all tokens that pass are known. -/
theorem knows_of_checkTokens (hs : ctx.strict = true) {tokens : List String} {ws : List Finding}
    (h : ctx.checkTokens key v tokens = .ok ws) : ∀ t ∈ tokens, ctx.knows key t v = .ok true := by
  simp only [checkTokens, bind_ok] at h
  obtain ⟨os, hos, -⟩ := h
  intro t ht
  obtain ⟨o, ho⟩ := mapM_mem hos ht
  obtain ⟨known, hk, hw⟩ := checkToken_ok.1 ho
  cases known with
  | true => exact hk
  | false => exact absurd (hw.1.symm.trans hs) Bool.false_ne_true

end Context

/-- A table among the standard vocabularies is the one of its version and key. -/
theorem Vocabulary.table_standard {v : Version} {key : String} {t : Table}
    (h : standard.table key v = .ok t) : t = Standard.table v key := by
  unfold table at h
  cases hl : standard.tables.lookup (v, key) with
  | none => rw [hl] at h; cases h
  | some t' =>
    rw [hl] at h
    obtain rfl : t' = t := Except.ok.inj h
    obtain ⟨before, after, heq, -⟩ := List.lookup_eq_some_iff.1 hl
    have hmem : ((v, key), t') ∈ standard.tables := heq ▸ by simp
    obtain ⟨v', -, hv⟩ := List.mem_flatMap.1 hmem
    obtain ⟨key', -, hk⟩ := List.mem_map.1 hv
    cases hk
    rfl

/-- The kinds of contact of the standard vocabularies are words. -/
theorem Context.Standard.knowsWords {ctx : Context} (h : ctx.Standard) : ctx.KnowsWords := by
  intro v t hk
  have hvoc : ctx.vocabulary = .ok .standard := h
  simp only [Context.knows, hvoc, Vocabulary.contains, bind_ok, pure_ok, Except.ok.injEq,
    exists_eq_left'] at hk
  obtain ⟨table, htable, hcontains⟩ := hk
  have hpoc : Vocabulary.Standard.table v Vocabulary.Key.pocType =
      ⟨Vocabulary.Standard.pocTypes, []⟩ := by cases v <;> decide +kernel
  have hwords : ∀ t ∈ Vocabulary.Standard.pocTypes, IsWord t := by decide
  rw [Vocabulary.table_standard htable, hpoc] at hcontains
  exact hwords t (by simpa [Table.contains] using hcontains)

section Contacts

variable {ctx : Context} {v : Version} {e : Element}

namespace NoticeText

variable {c a b : NoticeText}

/-- Where vocabularies bind, a text that was made has only kinds of contact that are known. -/
theorem isWord_of_build {d : Draft} (hs : ctx.strict = true) (hw : ctx.KnowsWords)
    (h : build ctx v d = .ok c) : ∀ t ∈ c.pocTypes, IsWord t := by
  rw [pocTypes_of_build h]
  simp only [build, make, checked, bind_ok, check_ok, rules, exists_unit] at h
  obtain ⟨_, -, _, -, _, -, _, ⟨-, -, -, hcheck⟩, -⟩ := h
  exact fun t ht => hw v t (Context.knows_of_checkTokens hs hcheck t ht)

theorem isWord_of_ofElement (h : ofElement ctx v e = .ok c) : ∀ t ∈ c.pocTypes, IsWord t := by
  simp only [ofElement, checked, bind_ok, pure_ok] at h
  obtain ⟨_, -, _, -, rfl⟩ := h
  exact fun t ht => Text.isWord_of_mem_words ht

theorem pocTypes_of_beq (h : (a == b) = true) : a.pocTypes = b.pocTypes := by
  have h : (a.toBase == b.toBase && (a.value == b.value && (a.pocTypes == b.pocTypes &&
    a.security == b.security))) = true := h
  simp only [Bool.and_eq_true, beq_iff_eq] at h
  exact h.2.2.1

end NoticeText

namespace Notice

variable {c a b : Notice}

theorem isWord_of_ofElement (h : ofElement ctx v e = .ok c) : ∀ t ∈ c.pocTypes, IsWord t := by
  simp only [ofElement, checked, bind_ok, within_ok, pure_ok] at h
  obtain ⟨texts, htexts, _, -, _, -, _, -, rfl⟩ := h
  rw [pocTypes, List.forall_mem_flatMap]
  exact readAll_all (fun _ _ => NoticeText.isWord_of_ofElement) htexts

theorem pocTypes_of_beq (h : (a == b) = true) : a.pocTypes = b.pocTypes := by
  have h : (a.toBase == b.toBase && (a.texts == b.texts && (a.security == b.security &&
    a.notice == b.notice))) = true := h
  simp only [Bool.and_eq_true] at h
  rw [pocTypes, pocTypes, List.flatMap_def, List.flatMap_def,
    map_of_beq NoticeText.pocTypes_of_beq h.2.1]

end Notice

namespace NoticeList

variable {c a b : NoticeList}

theorem isWord_of_ofElement (h : ofElement ctx v e = .ok c) : ∀ t ∈ c.pocTypes, IsWord t := by
  simp only [ofElement, checked, bind_ok, within_ok, pure_ok] at h
  obtain ⟨notices, hnotices, _, -, _, -, rfl⟩ := h
  rw [pocTypes, List.forall_mem_flatMap]
  exact readAll_all (fun _ _ => Notice.isWord_of_ofElement) hnotices

theorem pocTypes_of_beq (h : (a == b) = true) : a.pocTypes = b.pocTypes := by
  have h : (a.toBase == b.toBase && (a.notices == b.notices && a.security == b.security)) =
    true := h
  simp only [Bool.and_eq_true] at h
  rw [pocTypes, pocTypes, List.flatMap_def, List.flatMap_def,
    map_of_beq Notice.pocTypes_of_beq h.2.1]

end NoticeList

namespace Security

variable {c a b : Security}

theorem isWord_of_ofElement (h : ofElement ctx v e = .ok c) : ∀ t ∈ c.pocTypes, IsWord t := by
  simp only [ofElement, checked, bind_ok, within_ok, pure_ok] at h
  obtain ⟨notices, hnotices, _, -, _, -, _, -, rfl⟩ := h
  rw [forall_mem_pocTypes]
  exact readOption_all (fun _ _ => NoticeList.isWord_of_ofElement) hnotices

theorem pocTypes_of_beq (h : (a == b) = true) : a.pocTypes = b.pocTypes := by
  have h : (a.toBase == b.toBase && (a.excludeFromRollup == b.excludeFromRollup &&
    (a.noticeList == b.noticeList && (a.access == b.access && a.security == b.security)))) =
    true := h
  simp only [Bool.and_eq_true] at h
  have hlists := optionMap_of_beq NoticeList.pocTypes_of_beq h.2.2.1
  rw [pocTypes, pocTypes, List.flatMap_def, List.flatMap_def, ← Option.toList_map,
    ← Option.toList_map, hlists]

end Security

end Contacts

/-- What strict making commits to is read again from its own element, equal to what was made and
with the same warnings: a management always, and a security just if the kinds of contact in its
notices are words. They are where only words are known for them. -/
theorem committed_reread {ctx : Context} (hs : ctx.strict = true) (v : Version) :
    (∀ (d : Security.Draft) (c : Security), commitAs ctx v d = .ok (some c) →
      ((∃ c', Security.ofElement ctx v c.element = .ok c' ∧ (c' == c) = true ∧
        c'.warnings = c.warnings) ↔ ∀ t ∈ c.pocTypes, IsWord t) ∧
      (ctx.KnowsWords → ∀ t ∈ c.pocTypes, IsWord t)) ∧
    (∀ (d : Management.Draft) (c : Management), (∀ n ∈ d.integers, Text.fits 64 n = true) →
      commitAs ctx v d = .ok (some c) →
      ∃ c', Management.ofElement ctx v c.element = .ok c' ∧ (c' == c) = true ∧
        c'.warnings = c.warnings) := by
  refine ⟨?security, ?management⟩
  case security =>
    intro d c h
    have hbuild := (commitAs_some.1 h).2
    refine ⟨⟨?words, ?again⟩, ?known⟩
    case words =>
      rintro ⟨c', hread, heq, -⟩
      rw [← Security.pocTypes_of_beq heq]
      exact Security.isWord_of_ofElement hread
    case again =>
      intro hwords
      have hreturns : Returns (fun _ => True) Security.ofElement ctx v _ c :=
        Security.build_returns (fun _ _ => trivial) hwords hbuild
      exact ⟨c, hreturns.again, beq_self_eq_true c, rfl⟩
    case known =>
      intro hw
      exact Security.forall_pocTypes (fun _ _ _ => NoticeText.isWord_of_build hs hw) hbuild
  case management =>
    intro d c hn h
    have hreturns : Returns (fun _ => True) Management.ofElement ctx v _ c :=
      Management.build_returns trivial (fun _ _ => trivial) hn (commitAs_some.1 h).2
    exact ⟨c, hreturns.again, beq_self_eq_true c, rfl⟩

namespace Security

/-- A security with a notice, whose text names two kinds of contact, and with a list of profiles. -/
def noticed : Draft where
  noticeList := {
    notices := [{
      texts := [{ value := " Ask first. ", pocTypes := ["DoD-Dist-B", "ICD-710"]
                  security := { values := [("classification", "U"), ("ownerProducer", "USA")] } }]
      security := { values := [("classification", "U"), ("ownerProducer", "USA")] }
      noticeType := "DoD-Dist-B" }]
    security := { values := [("classification", "U"), ("ownerProducer", "USA")] } }
  security := { values := [("classification", "U"), ("ownerProducer", "USA")] }

end Security

namespace Management

/-- A management with a revision that is told in two details, one of them empty. -/
def revised : Draft where
  revisionRecall := {
    revisionId := some (-1), revisionType := "ADMINISTRATIVE RECALL"
    details := [{ value := "Recalled "
                  security := { values := [("classification", "U"), ("ownerProducer", "USA")] } },
      { security := { values := [("classification", "U"), ("ownerProducer", "USA")] } }]
    security := { values := [("classification", "U"), ("ownerProducer", "USA")] } }

end Management

theorem committed_reread_default :
    (∃ c c', commitAs {} .v4_1 Security.noticed = .ok (some c) ∧
      Security.ofElement {} .v4_1 c.element = .ok c' ∧ (c' == c) = true ∧
        c'.warnings = c.warnings) ∧
    (∃ c c', commitAs {} .v4_1 Management.revised = .ok (some c) ∧
      Management.ofElement {} .v4_1 c.element = .ok c' ∧ (c' == c) = true ∧
        c'.warnings = c.warnings) := by
  have hsecurity : ((commitAs {} .v4_1 Security.noticed : Outcome (Option Security)).toOption.map
      Option.isSome) = some true := by decide +kernel
  have hmanagement : ((commitAs {} .v4_1 Management.revised : Outcome
      (Option Management)).toOption.map Option.isSome) = some true := by decide +kernel
  obtain ⟨o, ho, hc⟩ := Option.map_eq_some_iff.1 hsecurity
  obtain ⟨c, rfl⟩ := Option.isSome_iff_exists.1 hc
  obtain ⟨o', ho', hm⟩ := Option.map_eq_some_iff.1 hmanagement
  obtain ⟨m, rfl⟩ := Option.isSome_iff_exists.1 hm
  have hcommit := toOption_ok.1 ho
  have hcommit' := toOption_ok.1 ho'
  have hstrict : Context.strict {} = true := rfl
  have hstandard : Context.Standard {} := rfl
  obtain ⟨hread, hread'⟩ := committed_reread hstrict .v4_1
  obtain ⟨hagain, hwords⟩ := hread _ c hcommit
  obtain ⟨c', hc'⟩ := hagain.2 (hwords hstandard.knowsWords)
  obtain ⟨m', hm'⟩ := hread' _ m (by decide +kernel) hcommit'
  exact ⟨⟨c, c', hcommit, hc'⟩, m, m', hcommit', hm'⟩

/-- Tables that know two words as one kind of contact, whatever the key. -/
def Files.spaced : Files := fun _ =>
  .ok ("<CVE xmlns=\"urn:us:gov:ic:cve\"><Value>U</Value><Value>USA</Value>" ++
    "<Value>DoD-Dist-B</Value><Value>DoD Dist</Value></CVE>")

/-- A security with a notice, whose text names that kind of contact. -/
def Security.spaced : Draft where
  noticeList := {
    notices := [{
      texts := [{ value := "Ask first.", pocTypes := ["DoD Dist"]
                  security := { values := [("classification", "U"), ("ownerProducer", "USA")] } }]
      security := { values := [("classification", "U"), ("ownerProducer", "USA")] }
      noticeType := "DoD-Dist-B" }]
    security := { values := [("classification", "U"), ("ownerProducer", "USA")] } }
  security := { values := [("classification", "U"), ("ownerProducer", "USA")] }

/-- Where a configuration brings these tables in, a security is committed to, strictly, that cannot
be read from its own element. -/
theorem spaced_not_reread :
    ∃ s c, Session.install {} { vocabularyLocation := some "cve" } = .ok s ∧
      (s.context Files.spaced).1.strict = true ∧
      commitAs (s.context Files.spaced).1 .v5_0 Security.spaced = .ok (some c) ∧
      ∀ c', Security.ofElement (s.context Files.spaced).1 .v5_0 c.element ≠ .ok c' := by
  have hrun : ((Session.install {} { vocabularyLocation := some "cve" }).toOption.bind fun s =>
      let ctx := (s.context Files.spaced).1
      ((commitAs ctx .v5_0 Security.spaced : Outcome (Option Security)).toOption.bind id).map
        fun c => (ctx.strict, (Security.ofElement ctx .v5_0 c.element).toOption.isNone)) =
      some (true, true) := by decide +kernel
  obtain ⟨s, hs, hcommit⟩ := Option.bind_eq_some_iff.1 hrun
  obtain ⟨c, hc, hread⟩ := Option.map_eq_some_iff.1 hcommit
  obtain ⟨o, ho, rfl⟩ := Option.bind_eq_some_iff.1 hc
  obtain ⟨hstrict, hnone⟩ := Prod.mk.inj hread
  refine ⟨s, c, toOption_ok.1 hs, hstrict, toOption_ok.1 ho, fun c' hc' => ?_⟩
  rw [hc'] at hnone
  cases hnone

section Lists

/-- From a list that was made, the words of its members are read, so that the list itself is read
again just if its members are words. -/
structure WordByWord {α : Type} (list : α → List String) (made : List String) (again : Outcome α) :
    Prop where
  words : ∀ c, again = .ok c → list c = made.flatMap Text.words
  same : (∃ c, again = .ok c ∧ list c = made) ↔ ∀ t ∈ made, IsWord t

theorem WordByWord.intro {α : Type} {list : α → List String} {made : List String} {again : Outcome α}
    (hwords : ∀ c, again = .ok c → list c = made.flatMap Text.words)
    (hagain : (∀ t ∈ made, IsWord t) → ∃ c, again = .ok c) : WordByWord list made again := by
  refine ⟨hwords, ⟨?read, ?made⟩⟩
  case read =>
    rintro ⟨c, hc, hlist⟩
    exact Text.flatMap_words_eq_self.1 ((hwords c hc).symm.trans hlist)
  case made =>
    intro hmade
    obtain ⟨c, hc⟩ := hagain hmade
    exact ⟨c, hc, (hwords c hc).trans (Text.flatMap_words_eq_self.2 hmade)⟩

variable {ctx : Context} {v : Version} {pocTypes : List String} {s : SecurityAttributes}

namespace ProducerRole

variable {c : ProducerRole} {kind : Kind} {entity : Producer}

theorem version_of_made (hm : Made ctx v kind entity pocTypes s c) : entity.base.version = v := by
  have hrules := hm.rules
  simp only [checked, rules, bind_ok, check_ok, exists_unit, Base.requireSameVersion_ok] at hrules
  obtain ⟨_, ⟨-, hsame, -⟩, -⟩ := hrules
  exact hsame

theorem make_wordByWord (hentity : entity.Accepted ctx) (hs : s.Accepted ctx s.version)
    (h : make ctx v kind entity pocTypes s = .ok c) :
    WordByWord (·.pocTypes) pocTypes (ofElement ctx v c.element) := by
  have hm := made_of_make hs h
  have hread := hm.ofElement_eq (version_of_made hm ▸ hentity.again)
  -- what is read is the role with the words for its kinds of contact, if they keep the rules
  refine .intro ?_ fun hmade => ⟨c, ?_⟩
  · intro again hagain
    rw [hread] at hagain
    simp only [checked, bind_ok, pure_ok] at hagain
    obtain ⟨_, -, rfl⟩ := hagain
    rfl
  · rw [hread, Text.flatMap_words_eq_self.2 hmade]
    exact hm.rules

/-- Since version 4.1, a binding vocabulary tells the kinds of contact apart. -/
theorem isWord_of_strict (hstrict : ctx.strict = true) (hw : ctx.KnowsWords)
    (hv : v.atLeast .v4_1 = true) (hm : Made ctx v kind entity pocTypes s c) :
    ∀ t ∈ pocTypes, IsWord t := by
  have hrules := hm.rules
  simp only [checked, rules, bind_ok, check_ok, exists_unit, hv, if_true] at hrules
  obtain ⟨_, ⟨-, -, -, hcheck⟩, -⟩ := hrules
  exact fun t ht => hw v t (Context.knows_of_checkTokens hstrict hcheck t ht)

end ProducerRole

namespace NoticeText

variable {c : NoticeText} {value : String}

theorem make_wordByWord (hs : s.Accepted ctx s.version)
    (h : make ctx v value pocTypes s = .ok c) :
    WordByWord (·.pocTypes) pocTypes (ofElement ctx v c.element) := by
  have hm := made_of_make hs h
  have hread := hm.ofElement_eq
  refine .intro ?_ fun hmade => ⟨c, ?_⟩
  · intro again hagain
    rw [hread] at hagain
    simp only [checked, bind_ok, pure_ok] at hagain
    obtain ⟨_, -, rfl⟩ := hagain
    rfl
  · rw [hread, Text.flatMap_words_eq_self.2 hmade]
    exact hm.rules

/-- A binding vocabulary tells the kinds of contact apart. -/
theorem isWord_of_strict (hstrict : ctx.strict = true) (hw : ctx.KnowsWords)
    (hm : Made ctx v value pocTypes s c) : ∀ t ∈ pocTypes, IsWord t := by
  have hrules := hm.rules
  simp only [checked, rules, bind_ok, check_ok, exists_unit] at hrules
  obtain ⟨_, ⟨-, -, -, hcheck⟩, -⟩ := hrules
  exact fun t ht => hw v t (Context.knows_of_checkTokens hstrict hcheck t ht)

end NoticeText

/-- What is read again of a list that was written into one attribute are the words of its members:
of the labels of axes and of their units, of the kinds of contact of a role, and of those of a notice
text. The list itself is read again just if its members are words, which a binding vocabulary sees to
in a notice text, and since version 4.1 in a role. -/
theorem lists_reread (ctx : Context) (v : Version) :
    (∀ (name : String) (dimension : Option Int) (axes uoms : List String) (a : SrsAttributes),
      SrsAttributes.ofValues name dimension axes uoms = .ok a →
      ∀ e : Element, (∀ l, e.attribute? none l = none) →
        (∀ b, SrsAttributes.ofElement (a.addTo e) = .ok b ↔
          b = a.worded ∧ (a.worded.axisLabels = [] → a.worded.uomLabels = [])) ∧
        (SrsAttributes.ofElement (a.addTo e) = .ok a ↔ ∀ l ∈ axes ++ uoms, IsWord l)) ∧
    (∀ (kind : ProducerRole.Kind) (entity : Producer) (pocTypes : List String)
      (s : SecurityAttributes) (c : ProducerRole), entity.Accepted ctx → s.Accepted ctx s.version →
      ProducerRole.make ctx v kind entity pocTypes s = .ok c →
        WordByWord (·.pocTypes) pocTypes (ProducerRole.ofElement ctx v c.element) ∧
        (v.atLeast .v4_1 = true → ctx.strict = true → ctx.KnowsWords →
          ∀ t ∈ pocTypes, IsWord t)) ∧
    (∀ (value : String) (pocTypes : List String) (s : SecurityAttributes) (c : NoticeText),
      s.Accepted ctx s.version → NoticeText.make ctx v value pocTypes s = .ok c →
        WordByWord (·.pocTypes) pocTypes (NoticeText.ofElement ctx v c.element) ∧
        (ctx.strict = true → ctx.KnowsWords → ∀ t ∈ pocTypes, IsWord t)) := by
  refine ⟨?srs, ?role, ?notice⟩
  case srs =>
    intro name dimension axes uoms a h e he
    exact ⟨fun b => SrsAttributes.ofElement_addTo_ok h he, SrsAttributes.ofElement_addTo_iff h he⟩
  case role =>
    intro kind entity pocTypes s c hentity hs h
    have hm := ProducerRole.made_of_make hs h
    exact ⟨ProducerRole.make_wordByWord hentity hs h,
      fun hv hstrict hw => ProducerRole.isWord_of_strict hstrict hw hv hm⟩
  case notice =>
    intro value pocTypes s c hs h
    have hm := NoticeText.made_of_make hs h
    exact ⟨NoticeText.make_wordByWord hs h,
      fun hstrict hw => NoticeText.isWord_of_strict hstrict hw hm⟩

/-- An office that creates, with these kinds of contact. -/
def ProducerRole.office (v : Version) (pocTypes : List String) : Outcome ProducerRole := do
  let office ← Organization.make {} v { names := ["Office"] } [] ""
  let security ← SecurityAttributes.Draft.commitAs {} v {}
  make {} v .creator (.organization office) pocTypes security

/-- An unclassified notice text, with these kinds of contact. -/
def NoticeText.asking (v : Version) (pocTypes : List String) : Outcome NoticeText := do
  let security ← SecurityAttributes.Draft.commitAs {} v
    { values := [("classification", "U"), ("ownerProducer", "USA")] }
  make {} v "Ask first." pocTypes security

/-- Where one label, or one kind of contact of a role before version 4.1, was accepted, two words
are read. -/
theorem lists_split :
    (∃ a b, SrsAttributes.ofValues "http://x" none ["A B"] [] = .ok a ∧
      SrsAttributes.ofElement (a.addTo { name := .unqualified "a" }) = .ok b ∧
      a.axisLabels = ["A B"] ∧ b.axisLabels = ["A", "B"]) ∧
    ∃ c again, ProducerRole.office .v4_0_1 ["a b"] = .ok c ∧
      ProducerRole.ofElement {} .v4_0_1 c.element = .ok again ∧
      c.pocTypes = ["a b"] ∧ again.pocTypes = ["a", "b"] := by
  constructor
  · have hrun : (do
        let a ← SrsAttributes.ofValues "http://x" none ["A B"] []
        let b ← SrsAttributes.ofElement (a.addTo { name := .unqualified "a" })
        return (a.axisLabels, b.axisLabels) : Outcome (List String × List String)).toOption =
          some (["A B"], ["A", "B"]) := by decide +kernel
    have hlabels := toOption_ok.1 hrun
    simp only [bind_ok, pure_ok, Prod.mk.injEq] at hlabels
    obtain ⟨a, ha, b, hb, hmade, hread⟩ := hlabels
    exact ⟨a, b, ha, hb, hmade, hread⟩
  · have hrun : (do
        let c ← ProducerRole.office .v4_0_1 ["a b"]
        let again ← ProducerRole.ofElement {} .v4_0_1 c.element
        return (c.pocTypes, again.pocTypes) : Outcome (List String × List String)).toOption =
          some (["a b"], ["a", "b"]) := by decide +kernel
    have hkinds := toOption_ok.1 hrun
    simp only [bind_ok, pure_ok, Prod.mk.injEq] at hkinds
    obtain ⟨c, hc, again, hagain, hmade, hread⟩ := hkinds
    exact ⟨c, again, hc, hagain, hmade, hread⟩

theorem lists_reread_words :
    (∃ a, SrsAttributes.ofValues "http://x" (some 2) ["X", "Y"] ["m", "m"] = .ok a ∧
      SrsAttributes.ofElement (a.addTo { name := .unqualified "a" }) = .ok a) ∧
    (∃ c again, ProducerRole.office .v4_1 ["DoD-Dist-B", "ICD-710"] = .ok c ∧
      ProducerRole.ofElement {} .v4_1 c.element = .ok again ∧
      again.pocTypes = ["DoD-Dist-B", "ICD-710"]) ∧
    ∃ c again, NoticeText.asking .v4_1 ["DoD-Dist-B", "ICD-710"] = .ok c ∧
      NoticeText.ofElement {} .v4_1 c.element = .ok again ∧
      again.pocTypes = ["DoD-Dist-B", "ICD-710"] := by
  obtain ⟨hsrs, hrole, hnotice⟩ := lists_reread {} .v4_1
  have hstrict : Context.strict {} = true := rfl
  have hstandard : Context.Standard {} := rfl
  refine ⟨?srs, ?role, ?notice⟩
  case srs =>
    obtain ⟨a, ha⟩ := isSome_toOption.1 (by decide +kernel : (SrsAttributes.ofValues "http://x"
      (some 2) ["X", "Y"] ["m", "m"]).toOption.isSome = true)
    have hnone : ∀ l, ({ name := .unqualified "a" } : Element).attribute? none l = none :=
      fun _ => rfl
    exact ⟨a, ha, (hsrs _ _ _ _ a ha _ hnone).2.2 (by decide)⟩
  case role =>
    obtain ⟨c, hc⟩ := isSome_toOption.1 (by decide +kernel : (ProducerRole.office .v4_1
      ["DoD-Dist-B", "ICD-710"]).toOption.isSome = true)
    have hparts := hc
    simp only [ProducerRole.office, bind_ok] at hparts
    obtain ⟨o, ho, s, hs, hmake⟩ := hparts
    have hentity : (Producer.organization o).Accepted {} := .made (by simp) ho
    obtain ⟨hwords, hknown⟩ := hrole _ _ _ s c hentity
      (SecurityAttributes.accepted_of_commit hs) hmake
    obtain ⟨again, hagain, hlist⟩ := hwords.same.2 (hknown rfl hstrict hstandard.knowsWords)
    exact ⟨c, again, hc, hagain, hlist⟩
  case notice =>
    obtain ⟨c, hc⟩ := isSome_toOption.1 (by decide +kernel : (NoticeText.asking .v4_1
      ["DoD-Dist-B", "ICD-710"]).toOption.isSome = true)
    have hparts := hc
    simp only [NoticeText.asking, bind_ok] at hparts
    obtain ⟨s, hs, hmake⟩ := hparts
    obtain ⟨hwords, hknown⟩ := hnotice _ _ s c (SecurityAttributes.accepted_of_commit hs) hmake
    obtain ⟨again, hagain, hlist⟩ := hwords.same.2 (hknown hstrict hstandard.knowsWords)
    exact ⟨c, again, hc, hagain, hlist⟩

end Lists

end DiscoveryMetadata
