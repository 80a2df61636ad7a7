import DiscoveryMetadata.Proofs.Keeping.TopLevel
import DiscoveryMetadata.Proofs.Output.Legible
import DiscoveryMetadata.Proofs.Output.Resource
import DiscoveryMetadata.Proofs.Reading.Prefixes
import DiscoveryMetadata.Proofs.Rollup
/-
  Equal resources are written alike, as plain text and as HTML.

  The lines of a resource are those of its components, each with an index among those written with
  the same name. Equality goes by expanded names, and for numbers by their values. So two things are
  asked of equal resources besides (`Resource.rendered_alike`): that zeros have the same signs, and
  that components share a written name in the one resource just where they do in the other. Their
  versions are the same: two versions have one namespace, but these fix different versions of the
  need-to-know rules.
-/
namespace DiscoveryMetadata

open Xml (Element)

namespace TopLevel

variable {s t : TopLevel}

theorem length_numbers (h : (s == t) = true) : s.numbers.length = t.numbers.length := by
  cases s <;> cases t <;> first
    | exact absurd h Bool.false_ne_true
    | rfl
    | skip
  case geospatial a b =>
    rw [numbers, numbers, a.draft_numbers, b.draft_numbers]
    exact GeospatialExtents.length_numbers (GeospatialCoverage.extents_of_beq h)

/-- The component is not an extensible element. -/
def IsDdms : TopLevel → Prop
  | extensible _ => False
  | _ => True

instance : DecidablePred IsDdms
  | extensible _ => inferInstanceAs (Decidable False)
  | identifier _ | caption _ | language _ | dates _ | rights _ | source _ | resourceType _
  | producer _ | format _ | subject _ | virtual _ | temporal _ | geospatial _ | related _
  | management _ | security _ => inferInstanceAs (Decidable True)

theorem isDdms_of_beq (h : (s == t) = true) (hs : s.IsDdms) : t.IsDdms := by
  cases s <;> cases t <;> first
    | exact absurd h Bool.false_ne_true
    | exact hs

/-- Equal components have the same lines if their versions and numbers agree; extensible elements
have none. -/
theorem lines_eq (h : (s == t) = true) (hv : s.IsDdms → s.base.version = t.base.version)
    (hn : s.numbers = t.numbers) : s.lines = t.lines := by
  have hof : ∀ {α : Type} [BEq α] [Component α] [Legible α] (a b : α), (a == b) = true →
      (fun stem index => Component.lines a stem index) = fun stem index =>
        Component.lines b stem index := fun _ _ => Legible.lines_eq
  cases s <;> cases t <;> first
    | exact absurd h Bool.false_ne_true
    | exact hof _ _ h
    | skip
  case subject.subject => exact SubjectCoverage.lines_eq h (hv trivial)
  case temporal.temporal => exact TemporalCoverage.lines_eq h (hv trivial)
  case geospatial.geospatial a b =>
    rw [numbers, numbers, a.draft_numbers, b.draft_numbers] at hn
    exact GeospatialCoverage.lines_eq h (hv trivial) hn
  case related.related => exact RelatedResource.lines_eq h (hv trivial)
  case extensible.extensible => rfl

end TopLevel

section Indices

/-- Names are repeated at the same places in both lists. -/
def RepeatAlike (ns ms : List String) : Prop := ∀ i j : Nat, ns[i]? = ns[j]? ↔ ms[i]? = ms[j]?

variable {ns ms : List String}

theorem RepeatAlike.of_nodup (hn : ns.Nodup) (hm : ms.Nodup) (hlength : ns.length = ms.length) :
    RepeatAlike ns ms := by
  intro i j
  by_cases hi : i < ns.length
  · rw [List.getElem?_inj hi hn, List.getElem?_inj (hlength ▸ hi) hm]
  · have hout : ∀ {l : List String}, ¬i < l.length → (l[i]? = l[j]? ↔ ¬j < l.length) := by
      intro l hl
      rw [List.getElem?_eq_none (Nat.le_of_not_lt hl), eq_comm, List.getElem?_eq_none_iff,
        Nat.not_lt]
    rw [hout hi, hout (hlength ▸ hi), hlength]

/-- Such lists have the names that stand at one place equally often, as far as to any place. -/
theorem RepeatAlike.count_eq (h : RepeatAlike ns ms) (hlength : ns.length = ms.length) {i : Nat}
    {n m : String} (hn : ns[i]? = some n) (hm : ms[i]? = some m) (k : Nat) :
    (ns.take k).count n = (ms.take k).count m := by
  -- where the one list has its name, the other has its own: what is counted is the same marks
  have hmarks : ns.map (· == n) = ms.map (· == m) := by
    refine List.ext_getElem? fun j => ?_
    rw [List.getElem?_map, List.getElem?_map]
    by_cases hj : j < ns.length
    · have hiff := h j i
      rw [hn, hm, List.getElem?_eq_getElem hj, List.getElem?_eq_getElem (hlength ▸ hj),
        Option.some.injEq, Option.some.injEq] at hiff
      rw [List.getElem?_eq_getElem hj, List.getElem?_eq_getElem (hlength ▸ hj), Option.map_some,
        Option.map_some, Option.some.injEq, Bool.eq_iff_iff, beq_iff_eq, beq_iff_eq]
      exact hiff
    · rw [List.getElem?_eq_none (by omega), List.getElem?_eq_none (by omega)]
      rfl
  have hcount : ∀ (l : List String) (x : String),
      (l.take k).count x = ((l.map (· == x)).take k).count true := by
    intro l x
    rw [← List.map_take, List.count, List.count, List.countP_map]
    congr 1
    funext y
    simp
  rw [hcount, hmarks, ← hcount]

end Indices

/-- Where there are need-to-know rules, their version is the one that the version of DDMS fixes. -/
theorem Markings.ntkVersion_of_check {v : Version} {m : Markings} (h : m.check v = .ok ())
    (hv : v.atLeast .v4_0_1 = true) : m.ntkVersion = fixedNtk? v := by
  simp only [check, hv, if_true, bind_ok, exists_unit] at h
  obtain ⟨-, -, -, ism, -, -, ntk, hntk, hfixed⟩ := h
  have hsome : m.ntkVersion = some ntk := by
    cases hm : m.ntkVersion with
    | none => simp [hm, requireVersion] at hntk
    | some n => simpa [hm, requireVersion] using hntk
  rw [hsome]
  cases v <;> first
    | exact absurd hv (by decide)
    | exact congrArg some (of_decide_eq_true (demand_ok.1 hfixed))

namespace Resource

/-- The numbers of a resource. -/
def numbers (r : Resource) : List Double := r.components.flatMap (·.numbers)

/-- The names of the components as they are written. -/
def writtenNames (r : Resource) : List String := r.components.map (·.base.writtenName)

theorem indexOf_eq_count (ts : List TopLevel) (i : Nat) (t : TopLevel) :
    indexOf ts i t =
      Line.index (((ts.map (·.base.writtenName)).take i).count t.base.writtenName)
        ((ts.map (·.base.writtenName)).count t.base.writtenName) := by
  have hcount : ∀ us : List TopLevel,
      (us.filter fun s => s.base.writtenName == t.base.writtenName).length =
        (us.map (·.base.writtenName)).count t.base.writtenName := by
    intro us
    rw [List.count, List.countP_map, List.countP_eq_length_filter]
    rfl
  rw [← List.map_take, ← hcount, ← hcount]
  rfl

variable {ctx₁ ctx₂ : Context} {v₁ v₂ : Version} {a b : Resource}

theorem parts_of_beq (h : (a == b) = true) : (a.toBase == b.toBase) = true ∧
    (a.components == b.components) = true ∧ a.markings = b.markings ∧
      (a.security == b.security) = true ∧ (a.notice == b.notice) = true ∧
      a.extensible = b.extensible := by
  have h : (a.toBase == b.toBase && (a.components == b.components && (a.markings == b.markings &&
    (a.security == b.security && (a.notice == b.notice && a.extensible == b.extensible))))) =
    true := h
  simpa using h

theorem Admitted.rules {ctx : Context} {v : Version} {r : Resource} (h : Admitted ctx v r) :
    r.rules = .ok () := by
  obtain ⟨c, hc⟩ := h.exists_checked
  simp only [checked, bind_ok, check_ok, pure_ok, exists_unit] at hc
  obtain ⟨hrules, rfl⟩ := hc
  exact hrules

theorem version_eq_of_uri {v w : Version} (h : v.ddmsUri = w.ddmsUri)
    (hfixed : v.atLeast .v4_0_1 = true → w.atLeast .v4_0_1 = true →
      Markings.fixedNtk? v = Markings.fixedNtk? w) : v = w := by
  revert h hfixed
  cases v <;> cases w <;> decide

/-- The rules settle the version of a resource from its name and its markings. -/
theorem version_of_beq (ha : a.rules = .ok ()) (hb : b.rules = .ok ()) (h : (a == b) = true) :
    a.version = b.version := by
  obtain ⟨hbase, -, hmarkings, -⟩ := parts_of_beq h
  have hname : a.element.name.sameExpanded b.element.name = true := hbase
  rw [Xml.QName.sameExpanded, Bool.and_eq_true, beq_iff_eq, beq_iff_eq] at hname
  have huri : a.version.ddmsUri = b.version.ddmsUri := by
    rw [← uri_of_rules ha, ← uri_of_rules hb, Element.uri, Element.uri, hname.1]
  -- two versions have one namespace, and the markings, which equality compares, tell them apart
  have hfixed : ∀ {r : Resource}, r.rules = .ok () → r.version.atLeast .v4_0_1 = true →
      r.markings.ntkVersion = Markings.fixedNtk? r.version := by
    intro r hr hv
    have hv3 : r.version.atLeast .v3_0 = true := by
      revert hv
      cases r.version <;> decide
    exact Markings.ntkVersion_of_check ((rules_ok.1 hr).2.1 hv3).1 hv
  refine version_eq_of_uri huri fun hva hvb => ?_
  rw [← hfixed ha hva, ← hfixed hb hvb, hmarkings]

/-- Equal components at the same place have the same index if names are repeated alike. -/
theorem indexOf_eq (hlength : a.components.length = b.components.length)
    (hnames : RepeatAlike a.writtenNames b.writtenNames) {i : Nat} {s t : TopLevel}
    (hs : a.components[i]? = some s) (ht : b.components[i]? = some t) :
    indexOf a.components i s = indexOf b.components i t := by
  have hnames' : ∀ k, (a.writtenNames.take k).count s.base.writtenName =
      (b.writtenNames.take k).count t.base.writtenName :=
    hnames.count_eq (by simpa [writtenNames] using hlength) (i := i) (by simp [writtenNames, hs])
      (by simp [writtenNames, ht])
  -- an index depends on how many come before and on how many there are in all
  have hall := hnames' a.components.length
  rw [List.take_of_length_le (by simp [writtenNames]),
    List.take_of_length_le (by simp [writtenNames, hlength])] at hall
  rw [indexOf_eq_count, indexOf_eq_count]
  exact congrArg₂ Line.index (hnames' i) hall

theorem isEmpty_extensibleElements (h : (a.components == b.components) = true) :
    a.extensibleElements.isEmpty = b.extensibleElements.isEmpty := by
  have hkinds : a.components.map (fun t => decide t.IsDdms) =
      b.components.map (fun t => decide t.IsDdms) := by
    refine map_of_beq (fun {s t} hst => ?_) h
    cases s <;> cases t <;> first
      | exact absurd hst Bool.false_ne_true
      | rfl
  have hof : ∀ r : Resource, r.extensibleElements.isEmpty =
      (r.components.map fun t => decide t.IsDdms).all id := by
    intro r
    rw [extensibleElements]
    induction r.components with
    | nil => rfl
    | cons t ts ih => cases t <;> first | exact ih | rfl
  rw [hof, hkinds, ← hof]

/-- Components with the same lines have them at the same places in both resources. -/
theorem placed_lines
    (hlines : a.components.map TopLevel.lines = b.components.map TopLevel.lines)
    (hnames : RepeatAlike a.writtenNames b.writtenNames) (name : String) :
    (a.components.zipIdx.flatMap fun (t, i) => t.lines name (indexOf a.components i t)) =
      b.components.zipIdx.flatMap fun (t, i) => t.lines name (indexOf b.components i t) := by
  have hlength : a.components.length = b.components.length := by
    simpa only [List.length_map] using congrArg List.length hlines
  rw [List.flatMap_def, List.flatMap_def]
  congr 1
  -- place by place: the lines are the same, and so is the index, which counts names
  refine List.ext_getElem? fun i => ?_
  have hi : (a.components[i]?).map TopLevel.lines = (b.components[i]?).map TopLevel.lines := by
    rw [← List.getElem?_map, hlines, List.getElem?_map]
  rw [List.getElem?_map, List.getElem?_map, List.getElem?_zipIdx, List.getElem?_zipIdx]
  cases hs : a.components[i]? <;> cases ht : b.components[i]? <;> rw [hs, ht] at hi
  · rfl
  · cases hi
  · cases hi
  · simp only [Option.map_some, Option.some.injEq, Nat.zero_add] at hi ⊢
    rw [hi, indexOf_eq hlength hnames hs ht]

theorem lines_of_beq (ha : a.rules = .ok ()) (hb : b.rules = .ok ()) (h : (a == b) = true)
    (hn : a.numbers = b.numbers) (hnames : RepeatAlike a.writtenNames b.writtenNames) :
    Component.lines a = Component.lines b := by
  have hversion := version_of_beq ha hb h
  obtain ⟨-, hcomponents, hmarkings, hsecurity, hnotice, hextensible⟩ := parts_of_beq h
  have hparts : ∀ {r : Resource}, r.rules = .ok () → ∀ t ∈ r.components, t.IsDdms →
      t.base.version = r.version := by
    intro r hr t ht hddms
    refine version_of_rules hr t (mem_ddmsComponents ht ?_)
    rintro x rfl
    exact hddms
  -- the numbers of the resource are those of its components in turn, so each pair has the same
  have hlines : a.components.map TopLevel.lines = b.components.map TopLevel.lines := by
    refine map_of_beq_of_flatMap TopLevel.length_numbers (fun s hs t ht hst hnst => ?_)
      hcomponents hn
    refine TopLevel.lines_eq hst (fun hddms => ?_) hnst
    rw [hparts ha s hs hddms, hparts hb t ht (TopLevel.isDdms_of_beq hst hddms), hversion]
  funext stem index
  simp only [Component.lines, hmarkings, SecurityAttributes.lines_eq hsecurity,
    NoticeAttributes.lines_eq hnotice, hextensible, placed_lines hlines hnames,
    isEmpty_extensibleElements hcomponents, hversion]

/-- Equal resources are written alike in both formats, if zeros have the same signs in both and
names are repeated alike among their components. -/
theorem rendered_alike (ctx₁ ctx₂ : Context) (v₁ v₂ : Version) (a b : Resource)
    (ha : Admitted ctx₁ v₁ a) (hb : Admitted ctx₂ v₂ b) (h : (a == b) = true)
    (hn : a.numbers = b.numbers) (hnames : RepeatAlike a.writtenNames b.writtenNames) :
    Component.toText a = Component.toText b ∧ Component.toHtml a = Component.toHtml b := by
  have hlines := lines_of_beq ha.rules hb.rules h hn hnames
  rw [Component.toText_eq, Component.toText_eq, Component.toHtml_eq, Component.toHtml_eq, hlines]
  exact ⟨rfl, rfl⟩

theorem rendered_alike_aboutPoint :
    ∃ a b, Admitted {} .v5_0 a ∧ Admitted {} .v5_0 b ∧ (a == b) = true ∧
      a.writtenNames ≠ b.writtenNames ∧ Component.toText a = Component.toText b ∧
      Component.toHtml a = Component.toHtml b := by
  have hread : ((ofElement {} .v5_0 (aboutPoint "5")).toOption.bind fun a =>
      (ofElement {} .v5_0 ((aboutPoint "5").restyle otherPrefix)).toOption.map fun b =>
        (a == b, decide (a.numbers = b.numbers), a.writtenNames, b.writtenNames)) =
      some (true, true,
        ["ddms:identifier", "ddms:title", "ddms:pointOfContact", "ddms:subjectCoverage",
          "ddms:geospatialCoverage", "ddms:security"],
        ["d:identifier", "d:title", "d:pointOfContact", "d:subjectCoverage",
          "d:geospatialCoverage", "d:security"]) := by decide +kernel
  obtain ⟨a, ha, hsome⟩ := Option.bind_eq_some_iff.1 hread
  obtain ⟨b, hb, hall⟩ := Option.map_eq_some_iff.1 hsome
  simp only [Prod.mk.injEq] at hall
  obtain ⟨heq, hnumbers, hna, hnb⟩ := hall
  have ha : Admitted {} .v5_0 a := .read _ (toOption_ok.1 ha)
  have hb : Admitted {} .v5_0 b := .read _ (toOption_ok.1 hb)
  have hnames : RepeatAlike a.writtenNames b.writtenNames := by
    rw [hna, hnb]
    exact .of_nodup (by decide) (by decide) rfl
  refine ⟨a, b, ha, hb, heq, ?_, rendered_alike {} {} .v5_0 .v5_0 a b ha hb heq
    (of_decide_eq_true hnumbers) hnames⟩
  rw [hna, hnb]
  decide

/-- The element of a resource with two identifiers, of which the second can have its own prefix. -/
def twice (p : Option String → Option String) : Element :=
  let ctx : Context := {}
  let identifier : Element :=
    { name := ctx.ddmsName .v5_0 "identifier"
      attributes := [⟨ctx.ddmsName .v5_0 "qualifier", "urn:isbn"⟩,
        ⟨ctx.ddmsName .v5_0 "value", "1"⟩] }
  (about []).add [identifier.restyle p]

/-- The elements are those of equal resources that are written apart. -/
def WrittenApart (e e' : Element) : Prop :=
  ∃ a b, ofElement {} .v5_0 e = .ok a ∧ ofElement {} .v5_0 e' = .ok b ∧ (a == b) = true ∧
    Component.toText a ≠ Component.toText b ∧ Component.toHtml a ≠ Component.toHtml b

theorem WrittenApart.of_read {e e' : Element}
    (h : ((ofElement {} .v5_0 e).toOption.bind fun a =>
      (ofElement {} .v5_0 e').toOption.map fun b =>
        (a == b, Component.toText a == Component.toText b,
          Component.toHtml a == Component.toHtml b)) = some (true, false, false)) :
    WrittenApart e e' := by
  obtain ⟨a, ha, hsome⟩ := Option.bind_eq_some_iff.1 h
  obtain ⟨b, hb, hall⟩ := Option.map_eq_some_iff.1 hsome
  simp only [Prod.mk.injEq, beq_eq_false_iff_ne] at hall
  exact ⟨a, b, toOption_ok.1 ha, toOption_ok.1 hb, hall⟩

/-- Equal resources are written apart where a zero has another sign, and where one of two
identifiers has another prefix. -/
theorem equal_written_apart :
    WrittenApart (aboutPoint "0") (aboutPoint "-0") ∧
      WrittenApart (twice id) (twice otherPrefix) := by
  refine ⟨.of_read ?_, .of_read ?_⟩ <;> decide +kernel

end Resource

end DiscoveryMetadata
