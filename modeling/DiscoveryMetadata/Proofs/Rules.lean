import DiscoveryMetadata.Proofs.Outcome
import DiscoveryMetadata.Resource
/-
  What the rules ask of a resource, and the order of its components.

  The rules are steps one after another, some of them for some versions alone. `rules_ok` says what
  it is that they all hold; proofs about a resource that keeps the rules take from it what they
  need.

  Putting components in order neither adds nor loses any (`inOrder_perm`), puts those of lower rank
  first (`inOrder_sorted`), and leaves components alone that are in order already
  (`inOrder_of_sorted`).
-/
namespace DiscoveryMetadata.Resource

variable {r : Resource}

/-- All that the rules ask, where the markings and the classification are asked for since 3.0. -/
theorem rules_ok : r.rules = .ok () ↔
    r.element.name.isNamed r.version.ddmsUri (TopLevel.resourceName r.version) = true ∧
    (r.version.atLeast .v3_0 = true →
      r.markings.check r.version = .ok () ∧ r.security.requireClassification = .ok ()) ∧
    r.identifiers.isEmpty = false ∧ r.titles.isEmpty = false ∧ r.producers.isEmpty = false ∧
    (∀ l ∈ singleNames, requireChildren r.element l 0 1 = .ok ()) ∧
    requireChildren r.element "subjectCoverage" 1
      (if r.version.atLeast .v4_0_1 then unlimited else 1) = .ok () ∧
    requireChildren r.element "security" 1 1 = .ok () ∧
    (r.version ≠ .v2_0 || r.extensibleElements.length ≤ 1) = true ∧
    (r.security.isEmpty = false → r.checkRollup = .ok ()) ∧
    ∀ b ∈ r.ddmsComponents.map (·.base), b.version = r.version := by
  unfold rules
  rw [bind_ok, exists_unit, requireDdms_ok]
  refine and_congr_right fun _ => ?_
  by_cases hv : r.version.atLeast .v3_0 = true <;>
    simp only [hv, if_true, if_false, bind_ok, exists_unit, forbid_ok, demand_ok, forM_ok,
      iteStep_ok, Base.requireSameVersions_ok, Bool.not_eq_true', true_implies, false_implies,
      true_and, and_assoc, Bool.false_eq_true]

theorem uri_of_rules (h : r.rules = .ok ()) : r.element.uri = r.version.ddmsUri :=
  Xml.Element.uri_of_isNamed (rules_ok.1 h).1

theorem identifiers_of_rules (h : r.rules = .ok ()) : r.identifiers ≠ [] := by
  obtain ⟨-, -, hidentifiers, -⟩ := rules_ok.1 h
  exact List.isEmpty_eq_false_iff.1 hidentifiers

theorem mem_ddmsComponents {t : TopLevel} (ht : t ∈ r.components) (hx : ∀ x, t ≠ .extensible x) :
    t ∈ r.ddmsComponents := by
  refine List.mem_filter.2 ⟨ht, ?_⟩
  cases t with
  | extensible x => exact absurd rfl (hx x)
  | _ => rfl

/-- The components other than extensible elements have the version of the resource. -/
theorem version_of_rules (h : r.rules = .ok ()) :
    ∀ t ∈ r.ddmsComponents, t.base.version = r.version := by
  obtain ⟨-, -, -, -, -, -, -, -, -, -, hversions⟩ := rules_ok.1 h
  exact List.forall_mem_map.1 hversions

end DiscoveryMetadata.Resource

namespace DiscoveryMetadata.TopLevel

/-- No component stands behind one that ranks higher. -/
def Sorted (ts : List TopLevel) : Prop := ts.Pairwise fun s t => s.rank ≤ t.rank

theorem place_perm (t : TopLevel) (ts : List TopLevel) : (place t ts).Perm (t :: ts) := by
  induction ts with
  | nil => exact .refl _
  | cons s r ih =>
    unfold place
    split
    · exact .refl _
    · exact (ih.cons s).trans (.swap t s r)

theorem inOrder_perm (ts : List TopLevel) : (inOrder ts).Perm ts := by
  induction ts with
  | nil => exact .refl _
  | cons t r ih => exact (place_perm t _).trans (ih.cons t)

theorem mem_inOrder {t : TopLevel} {ts : List TopLevel} : t ∈ inOrder ts ↔ t ∈ ts :=
  (inOrder_perm ts).mem_iff

theorem place_sorted {t : TopLevel} {ts : List TopLevel} (h : Sorted ts) : Sorted (place t ts) := by
  induction ts with
  | nil => exact List.pairwise_singleton _ _
  | cons s r ih =>
    obtain ⟨hs, hr⟩ := List.pairwise_cons.1 h
    unfold place
    split
    · rename_i hts
      refine List.pairwise_cons.2 ⟨?_, h⟩
      rintro u (_ | ⟨_, hu⟩)
      · exact hts
      · exact Nat.le_trans hts (hs u hu)
    · rename_i hts
      refine List.pairwise_cons.2 ⟨?_, ih hr⟩
      intro u hu
      rcases List.mem_cons.1 ((place_perm t r).mem_iff.1 hu) with rfl | hu
      · omega
      · exact hs u hu

theorem inOrder_sorted (ts : List TopLevel) : Sorted (inOrder ts) := by
  induction ts with
  | nil => exact .nil
  | cons t r ih => exact place_sorted ih

/-- A component that ranks no higher than all others goes to the front. -/
theorem place_front {t : TopLevel} {ts : List TopLevel} (h : ∀ s ∈ ts, t.rank ≤ s.rank) :
    place t ts = t :: ts := by
  cases ts with
  | nil => rfl
  | cons s r => exact if_pos (h s List.mem_cons_self)

theorem inOrder_of_sorted {ts : List TopLevel} (h : Sorted ts) : inOrder ts = ts := by
  induction ts with
  | nil => rfl
  | cons t r ih =>
    obtain ⟨ht, hr⟩ := List.pairwise_cons.1 h
    calc inOrder (t :: r) = place t (inOrder r) := rfl
      _ = place t r := by rw [ih hr]
      _ = t :: r := place_front ht

end DiscoveryMetadata.TopLevel
