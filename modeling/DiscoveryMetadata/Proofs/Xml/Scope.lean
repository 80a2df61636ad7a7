import DiscoveryMetadata.Xml.Writer
import Mathlib.Data.List.Induction
/-
  The declarations that are written on an element.

  An element needs some bindings, and the writer declares those that do not hold outside. If no
  prefix is needed for two namespaces, all needs hold in the scope that the declarations lead to
  (`declare_holds`), and no prefix is declared twice (`declare_distinct`). That scope is also the
  one inside a tag with just these declarations (`inner_declared`), which is how a reader finds it.
-/
namespace DiscoveryMetadata.Xml

section Bindings

variable {p q u : String} {b : List (String × String)}

theorem lookup_rebind : (rebind p u b).lookup q = if q = p then some u else b.lookup q := by
  induction b with
  | nil => by_cases h : q = p <;> simp [rebind, List.lookup_cons, h, beq_eq_false_iff_ne.2]
  | cons x r ih =>
    obtain ⟨n, w⟩ := x
    rw [rebind]
    by_cases hn : n = p
    · subst hn
      by_cases h : q = n <;> simp [List.lookup_cons, h, beq_eq_false_iff_ne.2]
    · rw [if_neg hn, List.lookup_cons, List.lookup_cons, ih]
      by_cases h : q = n
      · subst h
        simp [hn]
      · rw [beq_eq_false_iff_ne.2 h]

theorem rebind_of_notMem (h : p ∉ b.map Prod.fst) : rebind p u b = b ++ [(p, u)] := by
  induction b with
  | nil => rfl
  | cons x r ih =>
    obtain ⟨n, w⟩ := x
    simp only [List.map_cons, List.mem_cons, not_or] at h
    rw [rebind, if_neg (Ne.symm h.1), ih h.2]
    rfl

end Bindings

namespace Declaration

variable {d d' : Declaration} {s : Scope}

/-- The declarations do not give one prefix two meanings. -/
def Agrees (d d' : Declaration) : Prop := d.nsPrefix = d'.nsPrefix → d.uri = d'.uri

theorem holdsIn_extend_self (d : Declaration) (s : Scope) : d.holdsIn (d.extend s) = true := by
  obtain ⟨p, u⟩ := d
  cases p with
  | none => simp [holdsIn, extend, Scope.withDefault]
  | some p => by_cases h : p = "xml" <;> simp [holdsIn, extend, Scope.bind, Scope.lookup,
      lookup_rebind, h]

/-- A declaration keeps holding where one is made that agrees with it. -/
theorem holdsIn_extend (h : d.holdsIn s = true) (ha : d.Agrees d') :
    d.holdsIn (d'.extend s) = true := by
  obtain ⟨p, u⟩ := d
  obtain ⟨p', u'⟩ := d'
  cases p with
  | none =>
    cases p' with
    | none =>
      obtain rfl : u = u' := ha rfl
      exact holdsIn_extend_self _ s
    | some p' => exact h
  | some p =>
    cases p' with
    | none => exact h
    | some p' =>
      by_cases hp : p = p'
      · subst hp
        obtain rfl : u = u' := ha rfl
        exact holdsIn_extend_self _ s
      · by_cases hx : p = "xml"
        · simp [holdsIn, hx]
        · simp only [holdsIn, extend, Scope.bind, Scope.lookup, lookup_rebind, hx, hp] at h ⊢
          exact h

end Declaration

section Declaring

variable {d : Declaration} {needs : List Declaration} {s : Scope}

theorem declare_cons : declare s (d :: needs) =
    if d.holdsIn s then declare s needs
    else (d :: (declare (d.extend s) needs).1, (declare (d.extend s) needs).2) := rfl

/-- What is declared leads to the scope inside. -/
theorem declare_scope (s : Scope) (needs : List Declaration) :
    (declare s needs).2 = (declare s needs).1.foldl (fun s d => d.extend s) s := by
  induction needs generalizing s with
  | nil => rfl
  | cons d r ih =>
    rw [declare_cons]
    split
    · exact ih s
    · exact ih (d.extend s)

theorem declare_subset (s : Scope) (needs : List Declaration) :
    (declare s needs).1 ⊆ needs := by
  induction needs generalizing s with
  | nil => exact List.Subset.refl _
  | cons d r ih =>
    rw [declare_cons]
    split
    · exact List.subset_cons_of_subset _ (ih s)
    · exact List.cons_subset_cons _ (ih _)

/-- A declaration that holds outside and agrees with the needs holds inside. -/
theorem declare_keeps (h : d.holdsIn s = true) (ha : ∀ d' ∈ needs, d.Agrees d') :
    d.holdsIn (declare s needs).2 = true := by
  induction needs generalizing s with
  | nil => exact h
  | cons n r ih =>
    obtain ⟨hn, hr⟩ := List.forall_mem_cons.1 ha
    rw [declare_cons]
    split
    · exact ih h hr
    · exact ih (Declaration.holdsIn_extend h hn) hr

theorem declare_holds (ha : ∀ d ∈ needs, ∀ d' ∈ needs, d.Agrees d') :
    ∀ d ∈ needs, d.holdsIn (declare s needs).2 = true := by
  induction needs generalizing s with
  | nil => simp
  | cons n r ih =>
    obtain ⟨hn, hr⟩ := List.forall_mem_cons.1 ha
    obtain ⟨-, hn⟩ := List.forall_mem_cons.1 hn
    have hrest : ∀ d ∈ r, ∀ d' ∈ r, d.Agrees d' := fun d hd d' hd' =>
      hr d hd d' (List.mem_cons_of_mem _ hd')
    rw [declare_cons]
    split
    · rename_i hs
      exact List.forall_mem_cons.2 ⟨declare_keeps hs hn, ih hrest⟩
    · exact List.forall_mem_cons.2
        ⟨declare_keeps (Declaration.holdsIn_extend_self n s) hn, ih hrest⟩

/-- The prefix of a declaration that holds outside is not declared. -/
theorem declare_ne (h : d.holdsIn s = true) (ha : ∀ d' ∈ needs, d.Agrees d') :
    ∀ d' ∈ (declare s needs).1, d.nsPrefix ≠ d'.nsPrefix := by
  induction needs generalizing s with
  | nil => simp [declare]
  | cons n r ih =>
    obtain ⟨hn, hr⟩ := List.forall_mem_cons.1 ha
    rw [declare_cons]
    split
    · exact ih h hr
    · rename_i hs
      refine List.forall_mem_cons.2 ⟨fun hp => hs ?_, ih (Declaration.holdsIn_extend h hn) hr⟩
      have hdn : d = n := by
        cases d
        cases n
        simp only [Declaration.mk.injEq]
        exact ⟨hp, hn hp⟩
      exact hdn ▸ h

theorem declare_distinct (ha : ∀ d ∈ needs, ∀ d' ∈ needs, d.Agrees d') :
    (declare s needs).1.Pairwise fun d d' => d.nsPrefix ≠ d'.nsPrefix := by
  induction needs generalizing s with
  | nil => exact .nil
  | cons n r ih =>
    obtain ⟨hn, hr⟩ := List.forall_mem_cons.1 ha
    obtain ⟨-, hn⟩ := List.forall_mem_cons.1 hn
    have hrest : ∀ d ∈ r, ∀ d' ∈ r, d.Agrees d' := fun d hd d' hd' =>
      hr d hd d' (List.mem_cons_of_mem _ hd')
    rw [declare_cons]
    split
    · exact ih hrest
    · exact List.pairwise_cons.2
        ⟨declare_ne (Declaration.holdsIn_extend_self n s) hn, ih hrest⟩

/-- What is declared does not hold outside. -/
theorem declare_needed (ha : ∀ d ∈ needs, ∀ d' ∈ needs, d.Agrees d') :
    ∀ d ∈ (declare s needs).1, d.holdsIn s = false := by
  induction needs generalizing s with
  | nil => simp [declare]
  | cons n r ih =>
    obtain ⟨-, hr⟩ := List.forall_mem_cons.1 ha
    have hrest : ∀ d ∈ r, ∀ d' ∈ r, d.Agrees d' := fun d hd d' hd' =>
      hr d hd d' (List.mem_cons_of_mem _ hd')
    rw [declare_cons]
    split
    case isTrue => exact ih hrest
    case isFalse hn =>
      refine List.forall_mem_cons.2 ⟨by simpa using hn, fun d hd => ?_⟩
      have hdn : d.Agrees n := hr d (declare_subset _ _ hd) n List.mem_cons_self
      rw [← Bool.not_eq_true]
      intro hs
      exact Bool.false_ne_true ((ih hrest d hd).symm.trans (Declaration.holdsIn_extend hs hdn))

/-- The default namespace is the one that is needed, and else the one outside. -/
theorem defaultUri_declare (ha : ∀ d ∈ needs, ∀ d' ∈ needs, d.Agrees d') :
    (declare s needs).2.defaultUri =
      ((needs.find? (·.nsPrefix.isNone)).map (·.uri)).or s.defaultUri := by
  cases hfind : needs.find? (·.nsPrefix.isNone) with
  | some d =>
    have hholds := declare_holds (s := s) ha d (List.mem_of_find?_eq_some hfind)
    obtain ⟨p, u⟩ := d
    obtain rfl : p = none := by simpa using List.find?_some hfind
    simpa [Declaration.holdsIn] using hholds
  | none =>
    have hnone : ∀ d ∈ needs, d.nsPrefix ≠ none := by simpa using hfind
    clear hfind ha
    induction needs generalizing s with
    | nil => rfl
    | cons n r ih =>
      obtain ⟨hn, hr⟩ := List.forall_mem_cons.1 hnone
      rw [declare_cons]
      split
      case isTrue => exact ih hr
      case isFalse =>
        obtain ⟨p, hp⟩ := Option.ne_none_iff_exists'.1 hn
        simpa [Declaration.extend, hp, Scope.bind] using ih (s := n.extend s) hr

end Declaring

section Inside

/-- The scope that a tag with the declarations declares. -/
def declaredScope (ds : List Declaration) : Scope := ds.foldl (fun s d => d.extend s) .empty

variable {ds : List Declaration} {outer : Scope}

/-- Declarations of different prefixes are kept one by one. -/
theorem bindings_declaredScope (h : ds.Pairwise fun d d' => d.nsPrefix ≠ d'.nsPrefix) :
    (declaredScope ds).bindings = ds.filterMap fun d => d.nsPrefix.map (·, d.uri) := by
  induction ds using List.reverseRecOn with
  | nil => rfl
  | append_singleton ds d ih =>
    obtain ⟨hds, -, hd⟩ := List.pairwise_append.1 h
    have hd : ∀ d' ∈ ds, d'.nsPrefix ≠ d.nsPrefix := fun d' hd' => hd d' hd' d (by simp)
    rw [declaredScope, List.foldl_append, List.filterMap_append, ← ih hds]
    obtain ⟨p, u⟩ := d
    cases p with
    | none => simp [Declaration.extend, Scope.withDefault, declaredScope]
    | some p =>
      refine rebind_of_notMem ?_
      change p ∉ (declaredScope ds).bindings.map Prod.fst
      rw [ih hds]
      intro hmem
      obtain ⟨x, hx, rfl⟩ := List.mem_map.1 hmem
      obtain ⟨d', hd', hx⟩ := List.mem_filterMap.1 hx
      obtain ⟨p, hp, rfl⟩ := Option.map_eq_some_iff.1 hx
      exact hd d' hd' hp

theorem mem_of_defaultUri {u : String} (h : (declaredScope ds).defaultUri = some u) :
    ⟨none, u⟩ ∈ ds := by
  induction ds using List.reverseRecOn with
  | nil => cases h
  | append_singleton ds d ih =>
    rw [declaredScope, List.foldl_append] at h
    obtain ⟨p, w⟩ := d
    cases p with
    | none =>
      obtain rfl : w = u := Option.some.inj h
      simp
    | some p => exact List.mem_append_left _ (ih h)

/-- The scope inside a tag with the declarations is the one that they lead to. -/
theorem inner_declared (h : ds.Pairwise fun d d' => d.nsPrefix ≠ d'.nsPrefix) :
    outer.inner (declaredScope ds) = ds.foldl (fun s d => d.extend s) outer := by
  induction ds using List.reverseRecOn with
  | nil => rfl
  | append_singleton ds d ih =>
    obtain ⟨hds, -, -⟩ := List.pairwise_append.1 h
    have hb := bindings_declaredScope h
    rw [List.filterMap_append, ← bindings_declaredScope hds] at hb
    rw [List.foldl_append, ← ih hds]
    have hd : declaredScope (ds ++ [d]) = d.extend (declaredScope ds) := by
      rw [declaredScope, List.foldl_append]
      rfl
    obtain ⟨p, u⟩ := d
    cases p with
    | none =>
      rw [hd]
      rfl
    | some p =>
      rw [Scope.inner, hb, List.foldl_append, hd]
      rfl

end Inside

end DiscoveryMetadata.Xml
