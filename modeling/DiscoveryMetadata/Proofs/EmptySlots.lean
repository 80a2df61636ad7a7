import DiscoveryMetadata.Proofs.OwnVersion.Basic
import DiscoveryMetadata.Proofs.Gates.Resource
import DiscoveryMetadata.Proofs.Rebuilding.Resource
/-
  Empty drafts in the lists of a draft.

  A list of drafts may hold empty ones, as a form does whose lines are not all filled in. Nothing is
  made of these, and they do not count when it is asked whether the whole is empty. For a draft with
  lists in it this goes down to any depth: a list that holds only empty drafts is as good as none,
  so a draft that has nothing but such lists is empty itself.

  Of every kind of draft an instance of `Paddable` says so. `Padded d d'` means that `d'` is `d`
  with any number of empty drafts put anywhere in its lists and in those of the drafts in it. A kind
  whose drafts hold no lists of drafts, at any depth, cannot be padded (`Paddable.flat`); for the
  others what is the same of the lists (`PaddedAll.allEmpty`, `PaddedAll.commitAll`) makes the whole
  the same.

  Main statement: `Resource.empty_slots_invisible`.
-/
namespace DiscoveryMetadata

open Buildable

/-- The kinds of drafts in which empty drafts play no role. -/
class Paddable (δ : Type) {α : outParam Type} [Buildable δ α] where
  /-- The draft as it is before anything is filled in. -/
  unfilled : δ
  /-- The second draft is the first one with empty drafts put in lists, at any depth. -/
  Padded : δ → δ → Prop
  isEmpty_unfilled : isEmpty unfilled = true
  padded_refl : ∀ d, Padded d d
  isEmpty_padded : ∀ {d d'}, Padded d d' → isEmpty d' = isEmpty d
  build_padded : ∀ {d d'}, Padded d d' → ∀ ctx v, build ctx v d' = build ctx v d

export Paddable (unfilled Padded isEmpty_unfilled padded_refl isEmpty_padded build_padded)

/-- A kind whose drafts hold no lists of drafts. -/
@[reducible]
def Paddable.flat {δ α : Type} [Buildable δ α] (unfilled : δ)
    (h : isEmpty unfilled = true) : Paddable δ where
  unfilled := unfilled
  Padded := Eq
  isEmpty_unfilled := h
  padded_refl _ := rfl
  isEmpty_padded h := by rw [h]
  build_padded h _ _ := by rw [h]

section Lists

variable {δ α : Type} [Buildable δ α]

/-- What a list leads to, draft by draft. -/
theorem commitAll_bind (ctx : Context) (v : Version) (d : δ) (ds : List δ) :
    commitAll ctx v (d :: ds) = (do
      let c ← commitAs ctx v d
      return c.toList ++ (← commitAll ctx v ds)) := by
  simp only [commitAll, List.mapM_cons, bind_assoc, pure_bind]
  refine bind_same rfl fun c => bind_same rfl fun cs => ?_
  cases c <;> rfl

/-- Nothing is made of an empty draft. -/
theorem commitAll_slot {e : δ} (he : isEmpty e = true) (ctx : Context) (v : Version)
    (ds : List δ) : commitAll ctx v (e :: ds) = commitAll ctx v ds := by
  have hnone : commitAs ctx v e = .ok none := commitAs_none.2 he
  rw [commitAll_bind, hnone]
  show (do return [] ++ (← commitAll ctx v ds)) = commitAll ctx v ds
  simp

variable [Paddable δ]

/-- The second list is the first one with empty drafts put in, between the drafts that were there
and in these. -/
inductive PaddedAll : List δ → List δ → Prop
  | nil : PaddedAll [] []
  | slot {e : δ} {ds ds' : List δ} (he : isEmpty e = true) (h : PaddedAll ds ds') :
      PaddedAll ds (e :: ds')
  | cons {d d' : δ} {ds ds' : List δ} (hd : Padded d d') (h : PaddedAll ds ds') :
      PaddedAll (d :: ds) (d' :: ds')

variable {d d' : δ} {ds ds' : List δ}

theorem commitAs_padded (h : Padded d d') (ctx : Context) (v : Version) :
    commitAs ctx v d' = commitAs ctx v d := by
  unfold commitAs
  rw [isEmpty_padded h, build_padded h]

namespace PaddedAll

theorem refl (ds : List δ) : PaddedAll ds ds := by
  induction ds with
  | nil => exact .nil
  | cons d ds ih => exact .cons (padded_refl d) ih

/-- A draft that was not filled in can be put in anywhere. -/
theorem insert (ds ds' : List δ) : PaddedAll (ds ++ ds') (ds ++ unfilled :: ds') := by
  induction ds with
  | nil => exact .slot isEmpty_unfilled (refl ds')
  | cons d ds ih => exact .cons (padded_refl d) ih

theorem replicate (n : Nat) : PaddedAll [] (List.replicate n (unfilled : δ)) := by
  induction n with
  | zero => exact .nil
  | succ n ih => exact .slot isEmpty_unfilled ih

/-- Drafts that were not filled in can be put behind a list. -/
theorem ensureLength (ds : List δ) (n : Nat) : PaddedAll ds (ensureLength unfilled n ds) := by
  unfold Buildable.ensureLength
  induction ds generalizing n with
  | nil => exact replicate n
  | cons d ds ih =>
    -- behind the first draft one place less is to be reached
    rw [List.length_cons, ← Nat.sub_sub, Nat.sub_right_comm]
    exact .cons (padded_refl d) (ih (n - 1))

/-- Putting the drafts of a list right by `g` keeps what is empty and what is padded. -/
theorem map {g : δ → δ} (h : PaddedAll ds ds') (he : ∀ d, isEmpty (g d) = isEmpty d)
    (hg : ∀ {d d'}, Padded d d' → Padded (g d) (g d')) : PaddedAll (ds.map g) (ds'.map g) := by
  induction h with
  | nil => exact .nil
  | slot hempty _ ih => exact .slot ((he _).trans hempty) ih
  | cons hd _ ih => exact .cons (hg hd) ih

theorem allEmpty (h : PaddedAll ds ds') : Buildable.allEmpty ds' = Buildable.allEmpty ds := by
  induction h with
  | nil => rfl
  | slot he _ ih =>
    show (isEmpty _ && Buildable.allEmpty _) = _
    rw [he, ih, Bool.true_and]
  | cons hd _ ih =>
    show (isEmpty _ && Buildable.allEmpty _) = (isEmpty _ && Buildable.allEmpty _)
    rw [isEmpty_padded hd, ih]

theorem commitAll (h : PaddedAll ds ds') (ctx : Context) (v : Version) :
    Buildable.commitAll ctx v ds' = Buildable.commitAll ctx v ds := by
  induction h with
  | nil => rfl
  | slot he _ ih => rw [commitAll_slot he, ih]
  | cons hd _ ih => rw [commitAll_bind, commitAll_bind, commitAs_padded hd, ih]

end PaddedAll

end Lists

section Flat

instance : Paddable Identifier.Draft := .flat {} rfl
instance : Paddable Caption.Draft := .flat {} rfl
instance : Paddable Language.Draft := .flat {} rfl
instance : Paddable ApproximableDate.Draft := .flat {} rfl
instance : Paddable Source.Draft := .flat {} rfl
instance : Paddable ResourceType.Draft := .flat {} rfl
instance : Paddable SubOrganization.Draft := .flat {} rfl
instance : Paddable Link.Draft := .flat {} rfl
instance : Paddable Keyword.Draft := .flat {} rfl
instance : Paddable Category.Draft := .flat {} rfl
instance : Paddable ProductionMetric.Draft := .flat {} rfl
instance : Paddable NonStateActor.Draft := .flat {} rfl
instance : Paddable VirtualCoverage.Draft := .flat {} rfl
instance : Paddable TemporalCoverage.Draft := .flat {} rfl
instance : Paddable Position.Draft := .flat {} rfl
instance : Paddable Point.Draft := .flat {} rfl
instance : Paddable ManagedText.Draft := .flat {} rfl
instance : Paddable ProcessingInfo.Draft := .flat {} rfl
instance : Paddable NoticeText.Draft := .flat {} rfl
instance : Paddable AccessText.Draft := .flat {} rfl
instance : Paddable ExtensibleElement.Draft := .flat {} rfl

end Flat

section Records

instance : Paddable Dates.Draft where
  unfilled := {}
  Padded d d' := ∃ as, PaddedAll d.acquiredOns as ∧ d' = { d with acquiredOns := as }
  isEmpty_unfilled := rfl
  padded_refl _ := ⟨_, .refl _, rfl⟩
  isEmpty_padded := by
    rintro d _ ⟨as, ha, rfl⟩
    simp only [isEmpty, ha.allEmpty]
  build_padded := by
    rintro d _ ⟨as, ha, rfl⟩ ctx v
    simp only [build, ha.commitAll]

instance : Paddable RelatedResource.Draft where
  unfilled := {}
  Padded d d' := ∃ ls, PaddedAll d.links ls ∧ d' = { d with links := ls }
  isEmpty_unfilled := rfl
  padded_refl _ := ⟨_, .refl _, rfl⟩
  isEmpty_padded := by
    rintro d _ ⟨ls, hl, rfl⟩
    simp only [isEmpty, hl.allEmpty]
  build_padded := by
    rintro d _ ⟨ls, hl, rfl⟩ ctx v
    simp only [build, hl.commitAll]

end Records

section Roles

instance : Paddable Organization.Draft where
  unfilled := {}
  Padded d d' := ∃ ss, PaddedAll d.subOrganizations ss ∧ d' = { d with subOrganizations := ss }
  isEmpty_unfilled := rfl
  padded_refl _ := ⟨_, .refl _, rfl⟩
  isEmpty_padded := by
    rintro d _ ⟨ss, hs, rfl⟩
    simp only [isEmpty, hs.allEmpty]
  build_padded := by
    rintro d _ ⟨ss, hs, rfl⟩ ctx v
    simp only [build, hs.commitAll]

instance : Paddable ProducerRole.Draft where
  unfilled := {}
  Padded d d' := ∃ o, Padded d.organization o ∧ d' = { d with organization := o }
  isEmpty_unfilled := rfl
  padded_refl _ := ⟨_, padded_refl _, rfl⟩
  isEmpty_padded := by
    rintro d _ ⟨o, ho, rfl⟩
    have hentity : ProducerRole.Draft.entityIsEmpty { d with organization := o } =
        d.entityIsEmpty := by
      unfold ProducerRole.Draft.entityIsEmpty
      rw [isEmpty_padded ho]
    show (ProducerRole.Draft.entityIsEmpty { d with organization := o } && _ && _) = _
    rw [hentity]
    rfl
  build_padded := by
    rintro d _ ⟨o, ho, rfl⟩ ctx v
    simp only [build, ProducerRole.Draft.commitEntity, commitAs_padded ho]

instance : Paddable TaskingRole.Draft where
  unfilled := {}
  Padded d d' := ∃ o, Padded d.organization o ∧ d' = { d with organization := o }
  isEmpty_unfilled := rfl
  padded_refl _ := ⟨_, padded_refl _, rfl⟩
  isEmpty_padded := by
    rintro d _ ⟨o, ho, rfl⟩
    show (isEmpty o && _ && _) = _
    rw [isEmpty_padded ho]
    rfl
  build_padded := by
    rintro d _ ⟨o, ho, rfl⟩ ctx v
    simp only [build, TaskingRole.Draft.commitEntity, commitAs_padded ho]

end Roles

section Coverages

instance : Paddable SubjectCoverage.Draft where
  unfilled := {}
  Padded d d' := ∃ ks cs ms as, PaddedAll d.keywords ks ∧ PaddedAll d.categories cs ∧
    PaddedAll d.productionMetrics ms ∧ PaddedAll d.nonStateActors as ∧
    d' = { d with keywords := ks, categories := cs, productionMetrics := ms, nonStateActors := as }
  isEmpty_unfilled := rfl
  padded_refl _ := ⟨_, _, _, _, .refl _, .refl _, .refl _, .refl _, rfl⟩
  isEmpty_padded := by
    rintro d _ ⟨ks, cs, ms, as, hk, hc, hm, ha, rfl⟩
    simp only [isEmpty, hk.allEmpty, hc.allEmpty, hm.allEmpty, ha.allEmpty]
  build_padded := by
    rintro d _ ⟨ks, cs, ms, as, hk, hc, hm, ha, rfl⟩ ctx v
    simp only [build, hk.commitAll, hc.commitAll, hm.commitAll, ha.commitAll]

instance : Paddable Polygon.Draft where
  unfilled := {}
  Padded d d' := ∃ ps, PaddedAll d.positions ps ∧ d' = { d with positions := ps }
  isEmpty_unfilled := rfl
  padded_refl _ := ⟨_, .refl _, rfl⟩
  isEmpty_padded := by
    rintro d _ ⟨ps, hp, rfl⟩
    simp only [isEmpty, hp.allEmpty]
  build_padded := by
    rintro d _ ⟨ps, hp, rfl⟩ ctx v
    simp only [build, hp.commitAll]

instance : Paddable BoundingGeometry.Draft where
  unfilled := {}
  Padded d d' := ∃ ps qs, PaddedAll d.polygons ps ∧ PaddedAll d.points qs ∧
    d' = { d with polygons := ps, points := qs }
  isEmpty_unfilled := rfl
  padded_refl _ := ⟨_, _, .refl _, .refl _, rfl⟩
  isEmpty_padded := by
    rintro d _ ⟨ps, qs, hp, hq, rfl⟩
    simp only [isEmpty, hp.allEmpty, hq.allEmpty]
  build_padded := by
    rintro d _ ⟨ps, qs, hp, hq, rfl⟩ ctx v
    simp only [build, hp.commitAll, hq.commitAll]

instance : Paddable GeospatialCoverage.Draft where
  unfilled := {}
  Padded d d' := ∃ g, Padded d.boundingGeometry g ∧ d' = { d with boundingGeometry := g }
  isEmpty_unfilled := rfl
  padded_refl _ := ⟨_, padded_refl _, rfl⟩
  isEmpty_padded := by
    rintro d _ ⟨g, hg, rfl⟩
    show (_ && _ && isEmpty g && _ && _ && _ && _ && _) = _
    rw [isEmpty_padded hg]
    rfl
  build_padded := by
    rintro d _ ⟨g, hg, rfl⟩ ctx v
    simp only [build, commitAs_padded hg]

end Coverages

section Management

/-- Roles are put right as those of a kind. -/
theorem TaskingRole.Draft.paddedAll_ofKind {ds ds' : List Draft} (h : PaddedAll ds ds')
    (kind : Kind) :
    PaddedAll (ds.map fun r => { r with kind }) (ds'.map fun r => { r with kind }) := by
  refine h.map (fun _ => rfl) ?_
  rintro d _ ⟨o, ho, rfl⟩
  exact ⟨o, ho, rfl⟩

open TaskingRole.Draft (paddedAll_ofKind)

instance : Paddable TaskingInfo.Draft where
  unfilled := {}
  Padded d d' := ∃ rs as, PaddedAll d.requesters rs ∧ PaddedAll d.addressees as ∧
    d' = { d with requesters := rs, addressees := as }
  isEmpty_unfilled := rfl
  padded_refl _ := ⟨_, _, .refl _, .refl _, rfl⟩
  isEmpty_padded := by
    rintro d _ ⟨rs, as, hr, ha, rfl⟩
    simp only [isEmpty, hr.allEmpty, ha.allEmpty]
  build_padded := by
    rintro d _ ⟨rs, as, hr, ha, rfl⟩ ctx v
    simp only [build, (paddedAll_ofKind hr .requesterInfo).commitAll,
      (paddedAll_ofKind ha .addressee).commitAll]

instance : Paddable RevisionRecall.Draft where
  unfilled := {}
  Padded d d' := ∃ ls ts, PaddedAll d.links ls ∧ PaddedAll d.details ts ∧
    d' = { d with links := ls, details := ts }
  isEmpty_unfilled := rfl
  padded_refl _ := ⟨_, _, .refl _, .refl _, rfl⟩
  isEmpty_padded := by
    rintro d _ ⟨ls, ts, hl, ht, rfl⟩
    simp only [isEmpty, hl.allEmpty, ht.allEmpty, RevisionRecall.Draft.linkIsEmpty]
  build_padded := by
    rintro d _ ⟨ls, ts, hl, ht, rfl⟩ ctx v
    have hkind : PaddedAll (d.details.map fun t => { t with kind := .details })
        (ts.map fun t => { t with kind := .details }) := by
      refine ht.map (fun _ => rfl) ?_
      rintro d _ rfl
      rfl
    have hlink : RevisionRecall.Draft.commitLink v { d with links := ls, details := ts } =
      d.commitLink v := rfl
    simp only [build, hl.commitAll, hkind.commitAll, hlink]

instance : Paddable RecordKeeper.Draft where
  unfilled := {}
  Padded d d' := ∃ o, Padded d.organization o ∧ d' = { d with organization := o }
  isEmpty_unfilled := rfl
  padded_refl _ := ⟨_, padded_refl _, rfl⟩
  isEmpty_padded := by
    rintro d _ ⟨o, ho, rfl⟩
    show (_ && isEmpty o) = _
    rw [isEmpty_padded ho]
    rfl
  build_padded := by
    rintro d _ ⟨o, ho, rfl⟩ ctx v
    simp only [build, commitAs_padded ho]

instance : Paddable RecordsInfo.Draft where
  unfilled := {}
  Padded d d' := ∃ k, Padded d.recordKeeper k ∧ d' = { d with recordKeeper := k }
  isEmpty_unfilled := rfl
  padded_refl _ := ⟨_, padded_refl _, rfl⟩
  isEmpty_padded := by
    rintro d _ ⟨k, hk, rfl⟩
    show (isEmpty k && _ && _) = _
    rw [isEmpty_padded hk]
    rfl
  build_padded := by
    rintro d _ ⟨k, hk, rfl⟩ ctx v
    simp only [build, commitAs_padded hk]

instance : Paddable Management.Draft where
  unfilled := {}
  Padded d d' := ∃ r l ts ps, Padded d.recordsInfo r ∧ Padded d.revisionRecall l ∧
    PaddedAll d.taskingInfos ts ∧ PaddedAll d.processingInfos ps ∧
    d' = { d with recordsInfo := r, revisionRecall := l, taskingInfos := ts, processingInfos := ps }
  isEmpty_unfilled := rfl
  padded_refl _ := ⟨_, _, _, _, padded_refl _, padded_refl _, .refl _, .refl _, rfl⟩
  isEmpty_padded := by
    rintro d _ ⟨r, l, ts, ps, hr, hl, ht, hp, rfl⟩
    show (isEmpty r && isEmpty l && allEmpty ts && allEmpty ps && _) = _
    rw [isEmpty_padded hr, isEmpty_padded hl, ht.allEmpty, hp.allEmpty]
    rfl
  build_padded := by
    rintro d _ ⟨r, l, ts, ps, hr, hl, ht, hp, rfl⟩ ctx v
    simp only [build, commitAs_padded hr, commitAs_padded hl, ht.commitAll, hp.commitAll]

end Management

section Protection

instance : Paddable Notice.Draft where
  unfilled := {}
  Padded d d' := ∃ ts, PaddedAll d.texts ts ∧ d' = { d with texts := ts }
  isEmpty_unfilled := rfl
  padded_refl _ := ⟨_, .refl _, rfl⟩
  isEmpty_padded := by
    rintro d _ ⟨ts, ht, rfl⟩
    simp only [isEmpty, ht.allEmpty]
  build_padded := by
    rintro d _ ⟨ts, ht, rfl⟩ ctx v
    simp only [build, ht.commitAll]

instance : Paddable NoticeList.Draft where
  unfilled := {}
  Padded d d' := ∃ ns, PaddedAll d.notices ns ∧ d' = { d with notices := ns }
  isEmpty_unfilled := rfl
  padded_refl _ := ⟨_, .refl _, rfl⟩
  isEmpty_padded := by
    rintro d _ ⟨ns, hn, rfl⟩
    simp only [isEmpty, hn.allEmpty]
  build_padded := by
    rintro d _ ⟨ns, hn, rfl⟩ ctx v
    simp only [build, hn.commitAll]

instance : Paddable AccessEntity.Draft where
  unfilled := {}
  Padded d d' := ∃ ts, PaddedAll d.values ts ∧ d' = { d with values := ts }
  isEmpty_unfilled := rfl
  padded_refl _ := ⟨_, .refl _, rfl⟩
  isEmpty_padded := by
    rintro d _ ⟨ts, ht, rfl⟩
    simp only [isEmpty, ht.allEmpty]
  build_padded := by
    rintro d _ ⟨ts, ht, rfl⟩ ctx v
    have hkind : PaddedAll (d.values.map fun t => { t with kind := d.kind.valueKind })
        (ts.map fun t => { t with kind := d.kind.valueKind }) := by
      refine ht.map (fun _ => rfl) ?_
      rintro d _ rfl
      rfl
    simp only [build, hkind.commitAll]

/-- Entities are put right as those of their kind. -/
theorem AccessEntity.Draft.paddedAll_allOf {ds ds' : List Draft} (h : PaddedAll ds ds')
    (kind : Kind) : PaddedAll (allOf kind ds) (allOf kind ds') := by
  unfold allOf
  refine h.map (fun _ => rfl) ?_
  rintro d _ ⟨ts, ht, rfl⟩
  exact ⟨ts, ht, rfl⟩

open AccessEntity.Draft (paddedAll_allOf)

instance : Paddable ProfileList.Draft where
  unfilled := {}
  Padded d d' := ∃ ps, PaddedAll d.profiles ps ∧ d' = { d with profiles := ps }
  isEmpty_unfilled := rfl
  padded_refl _ := ⟨_, .refl _, rfl⟩
  isEmpty_padded := by
    rintro d _ ⟨ps, hp, rfl⟩
    simp only [isEmpty, hp.allEmpty]
  build_padded := by
    rintro d _ ⟨ps, hp, rfl⟩ ctx v
    simp only [build, (paddedAll_allOf hp .profile).commitAll]

instance : Paddable Access.Draft where
  unfilled := {}
  Padded d d' := ∃ is gs p, PaddedAll d.individuals is ∧ PaddedAll d.groups gs ∧
    Padded d.profileList p ∧ d' = { d with individuals := is, groups := gs, profileList := p }
  isEmpty_unfilled := rfl
  padded_refl _ := ⟨_, _, _, .refl _, .refl _, padded_refl _, rfl⟩
  isEmpty_padded := by
    rintro d _ ⟨is, gs, p, hi, hg, hp, rfl⟩
    show (allEmpty is && allEmpty gs && isEmpty p && _) = _
    rw [hi.allEmpty, hg.allEmpty, isEmpty_padded hp]
    rfl
  build_padded := by
    rintro d _ ⟨is, gs, p, hi, hg, hp, rfl⟩ ctx v
    simp only [build, (paddedAll_allOf hi .individual).commitAll,
      (paddedAll_allOf hg .group).commitAll, commitAs_padded hp]

instance : Paddable Security.Draft where
  unfilled := {}
  Padded d d' := ∃ n a, Padded d.noticeList n ∧ Padded d.access a ∧
    d' = { d with noticeList := n, access := a }
  isEmpty_unfilled := rfl
  padded_refl _ := ⟨_, _, padded_refl _, padded_refl _, rfl⟩
  isEmpty_padded := by
    rintro d _ ⟨n, a, hn, ha, rfl⟩
    show (isEmpty n && isEmpty a && _) = _
    rw [isEmpty_padded hn, isEmpty_padded ha]
    rfl
  build_padded := by
    rintro d _ ⟨n, a, hn, ha, rfl⟩ ctx v
    simp only [build, commitAs_padded hn, commitAs_padded ha]

end Protection

namespace Resource

namespace Draft

/-- The second draft is the first one with empty drafts put in lists, at any depth. -/
structure Padded (d d' : Draft) : Prop where
  identifiers : PaddedAll d.identifiers d'.identifiers
  titles : PaddedAll d.titles d'.titles
  subtitles : PaddedAll d.subtitles d'.subtitles
  languages : PaddedAll d.languages d'.languages
  dates : DiscoveryMetadata.Padded d.dates d'.dates
  sources : PaddedAll d.sources d'.sources
  types : PaddedAll d.types d'.types
  creators : PaddedAll d.creators d'.creators
  publishers : PaddedAll d.publishers d'.publishers
  contributors : PaddedAll d.contributors d'.contributors
  pointsOfContact : PaddedAll d.pointsOfContact d'.pointsOfContact
  subjectCoverages : PaddedAll d.subjectCoverages d'.subjectCoverages
  virtualCoverages : PaddedAll d.virtualCoverages d'.virtualCoverages
  temporalCoverages : PaddedAll d.temporalCoverages d'.temporalCoverages
  geospatialCoverages : PaddedAll d.geospatialCoverages d'.geospatialCoverages
  relatedResources : PaddedAll d.relatedResources d'.relatedResources
  management : DiscoveryMetadata.Padded d.management d'.management
  securityComponent : DiscoveryMetadata.Padded d.securityComponent d'.securityComponent
  extensibleElements : PaddedAll d.extensibleElements d'.extensibleElements
  /-- All else is as it was. -/
  rest : d' = { d with
    identifiers := d'.identifiers
    titles := d'.titles
    subtitles := d'.subtitles
    languages := d'.languages
    dates := d'.dates
    sources := d'.sources
    types := d'.types
    creators := d'.creators
    publishers := d'.publishers
    contributors := d'.contributors
    pointsOfContact := d'.pointsOfContact
    subjectCoverages := d'.subjectCoverages
    virtualCoverages := d'.virtualCoverages
    temporalCoverages := d'.temporalCoverages
    geospatialCoverages := d'.geospatialCoverages
    relatedResources := d'.relatedResources
    management := d'.management
    securityComponent := d'.securityComponent
    extensibleElements := d'.extensibleElements }

namespace Padded

variable {d d' : Draft}

theorem componentsAreEmpty (h : d.Padded d') : d'.componentsAreEmpty = d.componentsAreEmpty := by
  rw [h.rest]
  simp only [Draft.componentsAreEmpty, h.identifiers.allEmpty, h.titles.allEmpty,
    h.subtitles.allEmpty, h.languages.allEmpty, isEmpty_padded h.dates, h.sources.allEmpty,
    h.types.allEmpty, h.creators.allEmpty, h.publishers.allEmpty, h.contributors.allEmpty,
    h.pointsOfContact.allEmpty, h.subjectCoverages.allEmpty, h.virtualCoverages.allEmpty,
    h.temporalCoverages.allEmpty, h.geospatialCoverages.allEmpty, h.relatedResources.allEmpty,
    isEmpty_padded h.management, isEmpty_padded h.securityComponent,
    h.extensibleElements.allEmpty]

end Padded

section Groups

variable {δ α : Type} [Buildable δ α] [Paddable δ] (ctx : Context) (v : Version)

theorem gather_padded {ds ds' : List δ} (h : PaddedAll ds ds') (wrap : α → TopLevel) :
    gather ctx v wrap ds' = gather ctx v wrap ds := by
  unfold gather
  rw [h.commitAll]

theorem gather_one {d d' : δ} (h : DiscoveryMetadata.Padded d d') (wrap : α → TopLevel) :
    gather ctx v wrap [d'] = gather ctx v wrap [d] :=
  gather_padded ctx v (.cons h .nil) wrap

theorem gatherCaptions_padded {ds ds' : List Caption.Draft} (h : PaddedAll ds ds')
    (kind : Caption.Kind) : gatherCaptions ctx v kind ds' = gatherCaptions ctx v kind ds := by
  have hkind : PaddedAll (ds.map fun d => { d with kind }) (ds'.map fun d => { d with kind }) := by
    refine h.map (fun _ => rfl) ?_
    rintro d _ rfl
    rfl
  exact gather_padded ctx v hkind .caption

theorem gatherProducers_padded {ds ds' : List ProducerRole.Draft} (h : PaddedAll ds ds')
    (kind : ProducerRole.Kind) : gatherProducers ctx v kind ds' = gatherProducers ctx v kind ds := by
  have hkind : PaddedAll (ds.map fun d => { d with kind }) (ds'.map fun d => { d with kind }) := by
    refine h.map (fun _ => rfl) ?_
    rintro d _ ⟨o, ho, rfl⟩
    exact ⟨o, ho, rfl⟩
  exact gather_padded ctx v hkind .producer

end Groups

/-- The components of each kind are made as before, and so are all of them. -/
theorem Padded.commitComponents {d d' : Draft} (h : d.Padded d') (ctx : Context) (v : Version) :
    d'.commitComponents ctx v = d.commitComponents ctx v := by
  rw [h.rest]
  simp only [Draft.commitComponents, gather_padded ctx v h.identifiers,
    gatherCaptions_padded ctx v h.titles, gatherCaptions_padded ctx v h.subtitles,
    gather_padded ctx v h.languages, gather_one ctx v h.dates, gather_padded ctx v h.sources,
    gather_padded ctx v h.types, gatherProducers_padded ctx v h.creators,
    gatherProducers_padded ctx v h.publishers, gatherProducers_padded ctx v h.contributors,
    gatherProducers_padded ctx v h.pointsOfContact, gather_padded ctx v h.subjectCoverages,
    gather_padded ctx v h.virtualCoverages, gather_padded ctx v h.temporalCoverages,
    gather_padded ctx v h.geospatialCoverages, gather_padded ctx v h.relatedResources,
    gather_one ctx v h.management, gather_one ctx v h.securityComponent,
    gather_padded ctx v h.extensibleElements]

end Draft

instance : Paddable Draft where
  unfilled := {}
  Padded := Draft.Padded
  isEmpty_unfilled := rfl
  padded_refl d :=
    ⟨.refl _, .refl _, .refl _, .refl _, padded_refl _, .refl _, .refl _, .refl _, .refl _,
      .refl _, .refl _, .refl _, .refl _, .refl _, .refl _, .refl _, padded_refl _,
      padded_refl _, .refl _, rfl⟩
  isEmpty_padded {d d'} h := by
    show (d'.componentsAreEmpty && _ && _ && _ && _) = _
    rw [h.componentsAreEmpty, h.rest]
    rfl
  build_padded {d d'} h ctx v := by
    simp only [build]
    rw [h.commitComponents, h.rest]

/-- Empty drafts, put in the lists of a resource draft and of the drafts in it at any depth, change
neither whether it is empty nor what it leads to, be it a resource, a fault or nothing. -/
theorem empty_slots_invisible (ctx : Context) (d d' : Draft) (h : Padded d d') :
    isEmpty d' = isEmpty d ∧ commit ctx d' = commit ctx d := by
  have hversion : version? d' = version? d := by
    rw [Draft.Padded.rest h]
    rfl
  refine ⟨isEmpty_padded h, ?_⟩
  unfold commit
  rw [hversion, commitAs_padded h]

/-- The draft `contacted` with empty drafts around its identifier, in its point of contact and in
its coverage, and with a coverage that has nothing but an empty keyword. -/
def gapped : Draft := { contacted with
  identifiers := {} :: contacted.identifiers ++ [{}]
  pointsOfContact := contacted.pointsOfContact.map fun p => { p with
    organization := { p.organization with subOrganizations := [{}, {}] } }
  subjectCoverages := { keywords := [{}] } :: contacted.subjectCoverages.map fun s => { s with
    keywords := s.keywords ++ [{}] } }

theorem padded_gapped : Padded contacted gapped where
  identifiers := .slot rfl (.insert contacted.identifiers [])
  titles := .refl _
  subtitles := .refl _
  languages := .refl _
  dates := padded_refl _
  sources := .refl _
  types := .refl _
  creators := .refl _
  publishers := .refl _
  contributors := .refl _
  pointsOfContact := by
    have hsubs : PaddedAll ([] : List SubOrganization.Draft) [{}, {}] := .slot rfl (.insert [] [])
    exact .cons ⟨_, ⟨_, hsubs, rfl⟩, rfl⟩ .nil
  subjectCoverages := by
    have hkeywords : PaddedAll ([{ value := "word" }] : List Keyword.Draft)
        [{ value := "word" }, {}] := .insert [_] []
    have hempty : isEmpty ({ keywords := [{}] } : SubjectCoverage.Draft) = true := rfl
    exact .slot hempty
      (.cons ⟨_, _, _, _, hkeywords, .refl _, .refl _, .refl _, rfl⟩ .nil)
  virtualCoverages := .refl _
  temporalCoverages := .refl _
  geospatialCoverages := .refl _
  relatedResources := .refl _
  management := padded_refl _
  securityComponent := padded_refl _
  extensibleElements := .refl _
  rest := rfl

theorem empty_slots_invisible_gapped :
    isEmpty gapped = false ∧
      ∃ r, commit {} contacted = .ok (some r) ∧ commit {} gapped = .ok (some r) := by
  have hmade : (commit {} contacted).toOption.map Option.isSome = some true := by decide +kernel
  obtain ⟨o, ho, hr⟩ := Option.map_eq_some_iff.1 hmade
  obtain ⟨r, rfl⟩ := Option.isSome_iff_exists.1 hr
  have hcommit := toOption_ok.1 ho
  obtain ⟨hempty, hsame⟩ := empty_slots_invisible {} contacted gapped padded_gapped
  refine ⟨?_, r, hcommit, hsame.trans hcommit⟩
  rw [hempty]
  rfl

end Resource

end DiscoveryMetadata
