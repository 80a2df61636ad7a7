import DiscoveryMetadata.Coverage.Subject
import DiscoveryMetadata.Coverage.Temporal
import DiscoveryMetadata.Coverage.Virtual
import DiscoveryMetadata.Proofs.Rebuilding.Records
/-
  Coverages of subjects, of virtual space and of time from their own drafts.

  A draft makes terms without extensible attributes, so none are lost in the draft of a term. A
  bound of a period that is neither given as a text nor as an approximable date is made unknown,
  and then it is given as a text.
-/
namespace DiscoveryMetadata

open Buildable
open Xml (Element)

variable {ctx : Context} {v : Version} {s : SecurityAttributes}

namespace Keyword

variable {c : Keyword} {value : String} {x : ExtensibleAttributes}

theorem make_keeps (h : make ctx v value s x = .ok c) :
    c.value = value ∧ c.security = s ∧ c.extensible = x := by
  simp only [make, checked, bind_ok, within_ok, check_ok, exists_unit, pure_ok] at h
  obtain ⟨e, -, -, rfl⟩ := h
  exact ⟨rfl, rfl, rfl⟩

theorem rebuilds (d : Draft) : Rebuilds ctx v toDraft d := by
  obtain ⟨_, value, security⟩ := d
  intro c h
  obtain ⟨he, h⟩ := commitAs_some.1 h
  obtain ⟨s, hs, h⟩ := bind_ok.1 h
  obtain ⟨rfl, rfl, -⟩ := make_keeps h
  refine commitAs_some.2 ⟨?_, bind_ok.2 ⟨_, SecurityAttributes.commitAs_toDraft hs, h⟩⟩
  simpa only [isEmpty, toDraft, SecurityAttributes.toDraft_isEmpty hs] using he

end Keyword

namespace Category

variable {c : Category} {qualifier code label : String} {x : ExtensibleAttributes}

theorem make_keeps (h : make ctx v qualifier code label s x = .ok c) :
    c.qualifier = qualifier ∧ c.code = code ∧ c.label = label ∧ c.security = s ∧
      c.extensible = x := by
  simp only [make, checked, bind_ok, within_ok, check_ok, exists_unit, pure_ok] at h
  obtain ⟨e, -, -, rfl⟩ := h
  exact ⟨rfl, rfl, rfl, rfl, rfl⟩

theorem rebuilds (d : Draft) : Rebuilds ctx v toDraft d := by
  obtain ⟨_, qualifier, code, label, security⟩ := d
  intro c h
  obtain ⟨he, h⟩ := commitAs_some.1 h
  obtain ⟨s, hs, h⟩ := bind_ok.1 h
  obtain ⟨rfl, rfl, rfl, rfl, -⟩ := make_keeps h
  refine commitAs_some.2 ⟨?_, bind_ok.2 ⟨_, SecurityAttributes.commitAs_toDraft hs, h⟩⟩
  simpa only [isEmpty, toDraft, SecurityAttributes.toDraft_isEmpty hs] using he

end Category

namespace ProductionMetric

variable {c : ProductionMetric} {subject coverage : String}

theorem make_keeps (h : make ctx v subject coverage s = .ok c) :
    c.subject = subject ∧ c.coverage = coverage ∧ c.security = s := by
  simp only [make, checked, bind_ok, within_ok, check_ok, exists_unit, pure_ok] at h
  obtain ⟨e, -, -, rfl⟩ := h
  exact ⟨rfl, rfl, rfl⟩

theorem rebuilds (d : Draft) : Rebuilds ctx v toDraft d := by
  obtain ⟨_, subject, coverage, security⟩ := d
  intro c h
  obtain ⟨he, h⟩ := commitAs_some.1 h
  obtain ⟨s, hs, h⟩ := bind_ok.1 h
  obtain ⟨rfl, rfl, rfl⟩ := make_keeps h
  refine commitAs_some.2 ⟨?_, bind_ok.2 ⟨_, SecurityAttributes.commitAs_toDraft hs, h⟩⟩
  simpa only [isEmpty, toDraft, SecurityAttributes.toDraft_isEmpty hs] using he

end ProductionMetric

namespace NonStateActor

variable {c : NonStateActor} {value qualifier : String} {order : Option Int}

theorem make_keeps (h : make ctx v value order qualifier s = .ok c) :
    c.value = value ∧ c.order = order ∧ c.qualifier = qualifier ∧ c.security = s := by
  simp only [make, checked, bind_ok, within_ok, check_ok, exists_unit, pure_ok] at h
  obtain ⟨e, -, -, rfl⟩ := h
  exact ⟨rfl, rfl, rfl, rfl⟩

theorem rebuilds (d : Draft) : Rebuilds ctx v toDraft d := by
  obtain ⟨_, value, order, qualifier, security⟩ := d
  intro c h
  obtain ⟨he, h⟩ := commitAs_some.1 h
  obtain ⟨s, hs, h⟩ := bind_ok.1 h
  obtain ⟨rfl, rfl, rfl, rfl⟩ := make_keeps h
  refine commitAs_some.2 ⟨?_, bind_ok.2 ⟨_, SecurityAttributes.commitAs_toDraft hs, h⟩⟩
  simpa only [isEmpty, toDraft, SecurityAttributes.toDraft_isEmpty hs] using he

end NonStateActor

namespace SubjectCoverage

variable {c : SubjectCoverage} {keywords : List Keyword} {categories : List Category}
  {metrics : List ProductionMetric} {actors : List NonStateActor}

theorem make_keeps (h : make ctx v keywords categories metrics actors s = .ok c) :
    c.keywords = keywords ∧ c.categories = categories ∧ c.productionMetrics = metrics ∧
      c.nonStateActors = actors ∧ c.security = s := by
  simp only [make, checked, bind_ok, within_ok, check_ok, exists_unit, pure_ok] at h
  obtain ⟨e, -, -, rfl⟩ := h
  exact ⟨rfl, rfl, rfl, rfl, rfl⟩

theorem rebuilds (d : Draft) : Rebuilds ctx v toDraft d := by
  obtain ⟨_, keywords, categories, metrics, actors, security⟩ := d
  intro c h
  obtain ⟨he, h⟩ := commitAs_some.1 h
  obtain ⟨ks, hks, h⟩ := bind_ok.1 h
  obtain ⟨cs, hcs, h⟩ := bind_ok.1 h
  obtain ⟨ms, hms, h⟩ := bind_ok.1 h
  obtain ⟨as, has, h⟩ := bind_ok.1 h
  obtain ⟨s, hs, h⟩ := bind_ok.1 h
  obtain ⟨rfl, rfl, rfl, rfl, rfl⟩ := make_keeps h
  have hks' := commitAll_toDraft (fun d _ => Keyword.rebuilds d) hks
  have hcs' := commitAll_toDraft (fun d _ => Category.rebuilds d) hcs
  have hms' := commitAll_toDraft (fun d _ => ProductionMetric.rebuilds d) hms
  have has' := commitAll_toDraft (fun d _ => NonStateActor.rebuilds d) has
  refine commitAs_some.2 ⟨?_, ?_⟩
  · simpa only [isEmpty, toDraft, SecurityAttributes.toDraft_isEmpty hs, allEmpty_eq hks,
      allEmpty_eq hcs, allEmpty_eq hms, allEmpty_eq has, allEmpty_eq hks', allEmpty_eq hcs',
      allEmpty_eq hms', allEmpty_eq has'] using he
  · exact bind_ok.2 ⟨_, hks', bind_ok.2 ⟨_, hcs', bind_ok.2 ⟨_, hms', bind_ok.2 ⟨_, has',
      bind_ok.2 ⟨_, SecurityAttributes.commitAs_toDraft hs, h⟩⟩⟩⟩⟩

end SubjectCoverage

namespace VirtualCoverage

variable {c : VirtualCoverage} {address protocol : String}

theorem make_keeps (h : make ctx v address protocol s = .ok c) :
    c.address = address ∧ c.protocol = protocol ∧ c.security = s := by
  simp only [make, checked, bind_ok, within_ok, check_ok, exists_unit, pure_ok] at h
  obtain ⟨e, -, -, rfl⟩ := h
  exact ⟨rfl, rfl, rfl⟩

theorem rebuilds (d : Draft) : Rebuilds ctx v toDraft d := by
  obtain ⟨_, address, protocol, security⟩ := d
  intro c h
  obtain ⟨he, h⟩ := commitAs_some.1 h
  obtain ⟨s, hs, h⟩ := bind_ok.1 h
  obtain ⟨rfl, rfl, rfl⟩ := make_keeps h
  refine commitAs_some.2 ⟨?_, bind_ok.2 ⟨_, SecurityAttributes.commitAs_toDraft hs, h⟩⟩
  simpa only [isEmpty, toDraft, SecurityAttributes.toDraft_isEmpty hs] using he

end VirtualCoverage

namespace TemporalCoverage

variable {c : TemporalCoverage} {name text : String} {start finish b : TimeBound}
  {d e : ApproximableDate.Draft}

theorem defaulted_defaulted (b : TimeBound) : defaulted (defaulted b) = defaulted b := by
  cases b with
  | exact value =>
    by_cases hv : Text.isBlank value = true
    · simp only [defaulted, hv, if_true, ite_self]
    · simp [defaulted, hv]
  | approximate date => rfl

theorem make_defaulted :
    make ctx v name (defaulted start) (defaulted finish) s = make ctx v name start finish s := by
  simp only [make, defaulted_defaulted]

theorem make_keeps (h : make ctx v name start finish s = .ok c) :
    c.given.getD "" = name ∧ c.start = some (defaulted start) ∧
      c.finish = some (defaulted finish) ∧ c.security = s := by
  simp only [make, checked, bind_ok, within_ok, check_ok, exists_unit, pure_ok] at h
  obtain ⟨x, -, -, rfl⟩ := h
  refine ⟨?_, rfl, rfl, rfl⟩
  by_cases hn : name = "" <;> simp [hn]

/-- The draft of an approximable date that is the bound, and `e` for any other bound. -/
def dateDraft (bound : Option TimeBound) (e : ApproximableDate.Draft) : ApproximableDate.Draft :=
  ((date? bound).map (·.toDraft)).getD e

/-- A bound that was made is made again, with the word for an unknown one where it was blank. -/
theorem bound_toDraft (h : Draft.bound ctx v text d = .ok b) :
    Draft.bound ctx v (exactText (some (defaulted b))) (dateDraft (some (defaulted b)) e) =
        .ok (defaulted b) ∧
      (Text.isBlank (exactText (some (defaulted b))) &&
        isEmpty (dateDraft (some (defaulted b)) e)) = false := by
  have hexact : ∀ value, Text.isBlank (exactText (some (defaulted (.exact value)))) = false := by
    intro value
    by_cases hv : Text.isBlank value = true
    · simp only [defaulted, exactText, hv, if_true]
      decide
    · simp [defaulted, exactText, hv]
  cases b with
  | exact value =>
    rw [hexact, Draft.bound, hexact]
    exact ⟨rfl, rfl⟩
  | approximate date =>
    have hdate : commitAs ctx v d = .ok (some date) := by
      unfold Draft.bound at h
      split at h
      · obtain ⟨o, ho, h⟩ := bind_ok.1 h
        cases o with
        | none => simp at h
        | some x =>
          cases pure_ok.1 h
          exact ho
      · simp at h
    have hagain := ApproximableDate.rebuilds d date hdate
    refine ⟨bind_ok.2 ⟨_, hagain, rfl⟩, ?_⟩
    rw [Bool.and_eq_false_iff]
    exact .inr (isEmpty_eq hagain)

theorem isEmpty_draft (d : Draft) :
    isEmpty d = (allBlank [d.timePeriodName, d.startText, d.endText] &&
      isEmpty d.approximableStart && isEmpty d.approximableEnd && d.security.isEmpty) := rfl

theorem rebuilds (d : Draft) : Rebuilds ctx v toDraft d := by
  obtain ⟨_, name, startText, endText, startDate, endDate, security⟩ := d
  intro c h
  obtain ⟨-, h⟩ := commitAs_some.1 h
  obtain ⟨start, hstart, h⟩ := bind_ok.1 h
  obtain ⟨finish, hfinish, h⟩ := bind_ok.1 h
  obtain ⟨s, hs, h⟩ := bind_ok.1 h
  obtain ⟨rfl, hcstart, hcfinish, rfl⟩ := make_keeps h
  obtain ⟨hstart, hempty⟩ := bound_toDraft (e := { name := "approximableStart" }) hstart
  obtain ⟨hfinish, -⟩ := bound_toDraft (e := { name := "approximableEnd" }) hfinish
  rw [← hcstart] at hstart hempty
  rw [← hcfinish] at hfinish
  refine commitAs_some.2 ⟨?_, bind_ok.2 ⟨_, hstart, bind_ok.2 ⟨_, hfinish, bind_ok.2
    ⟨_, SecurityAttributes.commitAs_toDraft hs, make_defaulted.trans h⟩⟩⟩⟩
  rw [Bool.and_eq_false_iff] at hempty
  rw [isEmpty_draft]
  rcases hempty with hblank | hdate
  · have htext : Text.isBlank c.toDraft.startText = false := hblank
    simp [allBlank, htext]
  · have hdate : isEmpty c.toDraft.approximableStart = false := hdate
    simp [hdate]

end TemporalCoverage

end DiscoveryMetadata
