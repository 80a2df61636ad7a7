import DiscoveryMetadata.Attributes.Security
import DiscoveryMetadata.Component.Basic
/-
  Drafts without their versions.

  A component is made for the version that is asked for where it is made. Which version is the
  current one, and which versions the drafts of its parts name, plays no role in that. Of every kind
  of draft an instance of `Unversioned` says so: `unversioned` takes away the versions of a draft and
  of all drafts in it, and what is made is the same without them, whatever version is current.

  For a kind with parts the instance follows from those of the parts, with `commitAs_unversioned`
  for one part and `commitAll_unversioned` for several. The result for any kind is
  `commit_of_unversioned`.
-/
namespace DiscoveryMetadata

open Buildable

/-- The context with another current version. -/
def Context.assuming (ctx : Context) (current : Version) : Context := { ctx with current }

theorem Context.assuming_assuming (ctx : Context) (c c' : Version) :
    (ctx.assuming c).assuming c' = ctx.assuming c' := rfl

/-- The kinds of drafts whose versions, and the current one, play no role in what is made for a
given version. -/
class Unversioned (δ : Type) {α : outParam Type} [Buildable δ α] where
  /-- The draft without its version and those of the drafts in it. -/
  unversioned : δ → δ
  isEmpty_unversioned : ∀ d, isEmpty (unversioned d) = isEmpty d
  build_unversioned : ∀ (ctx : Context) (c v : Version) (d : δ),
    build (ctx.assuming c) v (unversioned d) = build ctx v d

export Unversioned (unversioned isEmpty_unversioned build_unversioned)

/-- One step after another, each the same. -/
theorem bind_same {α β : Type} {x x' : Outcome α} {k k' : α → Outcome β} (h : x = x')
    (hk : ∀ a, k a = k' a) : (x >>= k) = (x' >>= k') := by
  rw [h]
  exact bind_congr hk

/-- The attributes without their version. -/
def SecurityAttributes.Draft.unversioned (d : Draft) : Draft := { d with version := none }

variable {δ α : Type} [Buildable δ α] [Unversioned δ] (ctx : Context) (c v : Version)

theorem SecurityAttributes.Draft.commitAs_unversioned (d : Draft) :
    d.unversioned.commitAs (ctx.assuming c) v = d.commitAs ctx v := rfl

/-- An empty draft stays empty, and any other leads to the same. -/
theorem commitAs_unversioned (d : δ) :
    commitAs (ctx.assuming c) v (unversioned d) = commitAs ctx v d := by
  unfold commitAs
  rw [isEmpty_unversioned, build_unversioned]

/-- Several drafts, which are first put right by `g`. -/
theorem commitAll_unversioned_map {g : δ → δ} (hg : ∀ d, g (unversioned d) = unversioned (g d))
    (ds : List δ) :
    commitAll (ctx.assuming c) v ((ds.map unversioned).map g) = commitAll ctx v (ds.map g) := by
  have hstep : (commitAs (ctx.assuming c) v ∘ g) ∘ unversioned = commitAs ctx v ∘ g := by
    funext d
    show commitAs (ctx.assuming c) v (g (unversioned d)) = commitAs ctx v (g d)
    rw [hg, commitAs_unversioned]
  unfold commitAll
  rw [List.mapM_map, List.mapM_map, List.mapM_map, hstep]

theorem commitAll_unversioned (ds : List δ) :
    commitAll (ctx.assuming c) v (ds.map unversioned) = commitAll ctx v ds := by
  have h := commitAll_unversioned_map (g := id) ctx c v (fun _ => rfl) ds
  rwa [List.map_id, List.map_id] at h

theorem allEmpty_unversioned (ds : List δ) : allEmpty (ds.map unversioned) = allEmpty ds := by
  simp only [allEmpty, List.all_map, Function.comp_def, isEmpty_unversioned]

/-- A draft with a version of its own leads to the same whatever version is current, and so does any
draft of the version that differs from it in the versions of its parts only. -/
theorem commit_of_unversioned {d d' : δ} (hd : version? d = some v) (hd' : version? d' = some v)
    (h : unversioned d' = unversioned d) : commit (ctx.assuming c) d' = commit ctx d := by
  unfold commit
  rw [hd, hd', Option.getD_some, Option.getD_some]
  calc commitAs (ctx.assuming c) v d'
      = commitAs ((ctx.assuming c).assuming c) v (unversioned d') :=
        (commitAs_unversioned (ctx.assuming c) c v d').symm
    _ = commitAs (ctx.assuming c) v (unversioned d) := by rw [Context.assuming_assuming, h]
    _ = commitAs ctx v d := commitAs_unversioned ctx c v d

end DiscoveryMetadata
