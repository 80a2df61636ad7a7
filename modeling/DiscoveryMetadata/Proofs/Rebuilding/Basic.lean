import DiscoveryMetadata.Entity
import DiscoveryMetadata.Proofs.Attributes.Security
/-
  Drafts that lead to a component again.

  Every component can be turned into a draft. `Rebuilds` says of a draft that the component it
  leads to is made again, element and warnings included, from the draft that the component is
  turned into. For the parts of a component it follows that the parts are made again, whether one
  may be there (`commitAs_getD`) or several (`commitAll_toDraft`), and that the new draft is empty
  where the old one is (`isEmpty_eq`, `allEmpty_eq`).
-/
namespace DiscoveryMetadata.Buildable

variable {δ α : Type} [Buildable δ α] {ctx : Context} {v : Version} {f : α → δ} {d : δ}
  {ds : List δ}

/-- The component that the draft leads to is made again from its own draft. -/
def Rebuilds (ctx : Context) (v : Version) (f : α → δ) (d : δ) : Prop :=
  ∀ c, commitAs ctx v d = .ok (some c) → commitAs ctx v (f c) = .ok (some c)

/-- A draft is empty if it leads to nothing. -/
theorem isEmpty_eq {o : Option α} (h : commitAs ctx v d = .ok o) : isEmpty d = o.isNone := by
  cases o with
  | none => exact commitAs_none.1 h
  | some c => exact (commitAs_some.1 h).1

theorem allEmpty_eq {cs : List α} (h : commitAll ctx v ds = .ok cs) : allEmpty ds = cs.isEmpty := by
  induction ds generalizing cs with
  | nil =>
    rw [commitAll_nil.1 h]
    rfl
  | cons d ds ih =>
    obtain ⟨o, r, ho, hr, rfl⟩ := commitAll_cons.1 h
    have hd : allEmpty (d :: ds) = (isEmpty d && allEmpty ds) := rfl
    rw [hd, ih hr, isEmpty_eq ho]
    cases o <;> rfl

/-- A part that may be there is made again; `e` stands for one that is not. -/
theorem commitAs_getD {e : δ} (he : isEmpty e = true) (hd : Rebuilds ctx v f d) {o : Option α}
    (h : commitAs ctx v d = .ok o) : commitAs ctx v ((o.map f).getD e) = .ok o := by
  cases o with
  | none => exact commitAs_none.2 he
  | some c => exact hd c h

/-- A part that may be there is made again where the draft is first put right by `g`, which leaves
the draft of the part as it is. -/
theorem commitAs_map_getD {g : δ → δ} {e : δ} (he : isEmpty (g e) = true)
    (hd : Rebuilds ctx v f (g d)) {o : Option α} (h : commitAs ctx v (g d) = .ok o)
    (hg : ∀ c ∈ o, g (f c) = f c) : commitAs ctx v (g ((o.map f).getD e)) = .ok o := by
  cases o with
  | none => exact commitAs_none.2 he
  | some c =>
    rw [Option.map_some, Option.getD_some, hg c rfl]
    exact hd c h

/-- The parts of a list are made again, one after the other. -/
theorem commitAll_toDraft (hds : ∀ d ∈ ds, Rebuilds ctx v f d) {cs : List α}
    (h : commitAll ctx v ds = .ok cs) : commitAll ctx v (cs.map f) = .ok cs := by
  induction ds generalizing cs with
  | nil =>
    obtain rfl := commitAll_nil.1 h
    exact commitAll_nil.2 rfl
  | cons d ds ih =>
    obtain ⟨hd, hrest⟩ := List.forall_mem_cons.1 hds
    obtain ⟨o, r, ho, hr, rfl⟩ := commitAll_cons.1 h
    cases o with
    | none => exact ih hrest hr
    | some c => exact commitAll_cons.2 ⟨some c, r, hd c ho, ih hrest hr, rfl⟩

/-- The parts of a list are made again where each draft is first put right by `g`, which leaves
the drafts of the parts as they are. -/
theorem commitAll_map_toDraft {g : δ → δ} (hds : ∀ d ∈ ds, Rebuilds ctx v f (g d)) {cs : List α}
    (h : commitAll ctx v (ds.map g) = .ok cs) (hg : ∀ c ∈ cs, g (f c) = f c) :
    commitAll ctx v ((cs.map f).map g) = .ok cs := by
  have hmap : (cs.map f).map g = cs.map f := by
    rw [List.map_map]
    exact List.map_congr_left hg
  rw [hmap]
  refine commitAll_toDraft ?_ h
  simpa only [List.forall_mem_map] using hds

/-- Where putting right does not make a draft empty, the drafts of the parts are empty where the
drafts of the list were. -/
theorem allEmpty_map_toDraft {g : δ → δ} (hds : ∀ d ∈ ds, Rebuilds ctx v f (g d)) {cs : List α}
    (h : commitAll ctx v (ds.map g) = .ok cs) (he : ∀ d, isEmpty (g d) = isEmpty d) :
    allEmpty (cs.map f) = allEmpty ds := by
  have hagain : commitAll ctx v (cs.map f) = .ok cs := by
    refine commitAll_toDraft ?_ h
    simpa only [List.forall_mem_map] using hds
  calc allEmpty (cs.map f)
      = cs.isEmpty := allEmpty_eq hagain
    _ = allEmpty (ds.map g) := (allEmpty_eq h).symm
    _ = allEmpty ds := by simp only [allEmpty, List.all_map, Function.comp_def, he]

/-- What holds of every part that is made of a draft put right by `g` holds of all of a list. -/
theorem commitAll_map_all {Q : α → Prop} {g : δ → δ} {cs : List α}
    (hg : ∀ d c, build ctx v (g d) = .ok c → Q c) (h : commitAll ctx v (ds.map g) = .ok cs) :
    ∀ c ∈ cs, Q c := by
  refine commitAll_all ?_ h
  intro d hd c hc
  obtain ⟨d', -, rfl⟩ := List.mem_map.1 hd
  exact hg d' c hc

end DiscoveryMetadata.Buildable

namespace DiscoveryMetadata

section Texts

theorem dropBlank_dropBlank (ts : List String) : dropBlank (dropBlank ts) = dropBlank ts := by
  simp [dropBlank]

theorem allBlank_dropBlank (ts : List String) : allBlank (dropBlank ts) = allBlank ts := by
  induction ts with
  | nil => rfl
  | cons t r ih =>
    have hr : allBlank (t :: r) = (Text.isBlank t && allBlank r) := rfl
    by_cases ht : Text.isBlank t = true
    · have hd : dropBlank (t :: r) = dropBlank r := by simp [dropBlank, ht]
      rw [hr, hd, ih, ht, Bool.true_and]
    · have hd : dropBlank (t :: r) = t :: dropBlank r := by simp [dropBlank, ht]
      rw [hr, hd]
      simp [allBlank, ht]

theorem Contact.clean_clean (c : Contact) : c.clean.clean = c.clean := by
  simp only [clean, dropBlank_dropBlank]

theorem Contact.isEmpty_clean (c : Contact) : c.clean.isEmpty = c.isEmpty := by
  simp only [clean, isEmpty, allBlank_dropBlank]

end Texts

end DiscoveryMetadata
