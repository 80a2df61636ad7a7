import DiscoveryMetadata.Proofs.OwnVersion.Components
import DiscoveryMetadata.Proofs.Rebuilding.Resource
/-
  The version of a resource is that of its own draft.

  A resource is made of the components of its draft, one kind after the other, and each of them for
  the version of the whole (`commitComponents_unversioned`). So a resource whose draft gives a
  version depends on nothing else that names one: neither on the current version, nor on the
  versions of the drafts at any depth.

  Main statement: `Resource.own_version`.
-/
namespace DiscoveryMetadata.Resource

open Buildable

namespace Draft

/-- The draft without its version and those of all drafts in it. -/
def unversioned (d : Draft) : Draft := { d with
  version := none
  identifiers := d.identifiers.map Unversioned.unversioned
  titles := d.titles.map Unversioned.unversioned
  subtitles := d.subtitles.map Unversioned.unversioned
  description := Unversioned.unversioned d.description
  languages := d.languages.map Unversioned.unversioned
  dates := Unversioned.unversioned d.dates
  rights := Unversioned.unversioned d.rights
  sources := d.sources.map Unversioned.unversioned
  types := d.types.map Unversioned.unversioned
  creators := d.creators.map Unversioned.unversioned
  publishers := d.publishers.map Unversioned.unversioned
  contributors := d.contributors.map Unversioned.unversioned
  pointsOfContact := d.pointsOfContact.map Unversioned.unversioned
  format := Unversioned.unversioned d.format
  subjectCoverages := d.subjectCoverages.map Unversioned.unversioned
  virtualCoverages := d.virtualCoverages.map Unversioned.unversioned
  temporalCoverages := d.temporalCoverages.map Unversioned.unversioned
  geospatialCoverages := d.geospatialCoverages.map Unversioned.unversioned
  relatedResources := d.relatedResources.map Unversioned.unversioned
  management := Unversioned.unversioned d.management
  securityComponent := Unversioned.unversioned d.securityComponent
  extensibleElements := d.extensibleElements.map Unversioned.unversioned
  security := d.security.unversioned }

theorem componentsAreEmpty_unversioned (d : Draft) :
    d.unversioned.componentsAreEmpty = d.componentsAreEmpty := by
  simp only [componentsAreEmpty, unversioned, allEmpty_unversioned, isEmpty_unversioned]

variable (ctx : Context) (c v : Version)

section Groups

variable {δ α : Type} [Buildable δ α] [Unversioned δ]

theorem gather_unversioned (wrap : α → TopLevel) (ds : List δ) :
    gather (ctx.assuming c) v wrap (ds.map Unversioned.unversioned) = gather ctx v wrap ds := by
  unfold gather
  rw [commitAll_unversioned]

theorem gatherCaptions_unversioned (kind : Caption.Kind) (ds : List Caption.Draft) :
    gatherCaptions (ctx.assuming c) v kind (ds.map Unversioned.unversioned) =
      gatherCaptions ctx v kind ds := by
  unfold gatherCaptions gather
  rw [commitAll_unversioned_map (g := fun d : Caption.Draft => { d with kind }) ctx c v
    fun _ => rfl]

theorem gatherProducers_unversioned (kind : ProducerRole.Kind) (ds : List ProducerRole.Draft) :
    gatherProducers (ctx.assuming c) v kind (ds.map Unversioned.unversioned) =
      gatherProducers ctx v kind ds := by
  unfold gatherProducers gather
  rw [commitAll_unversioned_map (g := fun d : ProducerRole.Draft => { d with kind }) ctx c v
    fun _ => rfl]

end Groups

/-- The components of each kind are made as before, and so are all of them. -/
theorem commitComponents_unversioned (d : Draft) :
    d.unversioned.commitComponents (ctx.assuming c) v = d.commitComponents ctx v := by
  unfold commitComponents
  apply bind_same
  case hk => intro _; rfl
  refine congrArg (List.mapM fun group : Unit → Outcome (List TopLevel) => group ()) ?_
  -- one kind after the other, in the order of `commitComponents`
  simp only [List.cons.injEq, and_true]
  exact ⟨funext fun _ => gather_unversioned ctx c v .identifier d.identifiers,
    funext fun _ => gatherCaptions_unversioned ctx c v .title d.titles,
    funext fun _ => gatherCaptions_unversioned ctx c v .subtitle d.subtitles,
    funext fun _ => gatherCaptions_unversioned ctx c v .description [d.description],
    funext fun _ => gather_unversioned ctx c v .language d.languages,
    funext fun _ => gather_unversioned ctx c v .dates [d.dates],
    funext fun _ => gather_unversioned ctx c v .rights [d.rights],
    funext fun _ => gather_unversioned ctx c v .source d.sources,
    funext fun _ => gather_unversioned ctx c v .resourceType d.types,
    funext fun _ => gatherProducers_unversioned ctx c v .creator d.creators,
    funext fun _ => gatherProducers_unversioned ctx c v .publisher d.publishers,
    funext fun _ => gatherProducers_unversioned ctx c v .contributor d.contributors,
    funext fun _ => gatherProducers_unversioned ctx c v .pointOfContact d.pointsOfContact,
    funext fun _ => gather_unversioned ctx c v .format [d.format],
    funext fun _ => gather_unversioned ctx c v .subject d.subjectCoverages,
    funext fun _ => gather_unversioned ctx c v .virtual d.virtualCoverages,
    funext fun _ => gather_unversioned ctx c v .temporal d.temporalCoverages,
    funext fun _ => gather_unversioned ctx c v .geospatial d.geospatialCoverages,
    funext fun _ => gather_unversioned ctx c v .related d.relatedResources,
    funext fun _ => gather_unversioned ctx c v .management [d.management],
    funext fun _ => gather_unversioned ctx c v .security [d.securityComponent],
    funext fun _ => gather_unversioned ctx c v .extensible d.extensibleElements⟩

end Draft

instance : Unversioned Draft where
  unversioned := Draft.unversioned
  isEmpty_unversioned d := by
    show (d.unversioned.componentsAreEmpty && _ && _ && _ && _) = _
    rw [Draft.componentsAreEmpty_unversioned]
    rfl
  build_unversioned ctx c v d :=
    bind_same (d.commitComponents_unversioned ctx c v) fun _ => rfl

/-- What a resource draft with a version leads to, a resource or a fault, is the same whatever
version is current, and for any draft of the version that differs from it in the versions of the
drafts inside only. -/
theorem own_version (ctx : Context) (current v : Version) (d d' : Draft)
    (hd : d.version = some v) (hd' : d'.version = some v) (h : d'.unversioned = d.unversioned) :
    commit (ctx.assuming current) d' = commit ctx d :=
  commit_of_unversioned ctx current v hd hd' h

/-- The draft `located` at its version, with drafts inside that name others. -/
def misversioned : Draft := { located with
  version := some .v4_1
  titles := located.titles.map fun t => { t with
    version := some .v2_0
    security := { t.security with version := some .v5_0 } }
  publishers := located.publishers.map fun p => { p with
    version := some .v3_1
    person := { p.person with version := some .v3_0 } }
  security := { located.security with version := some .v3_0 } }

theorem own_version_misversioned :
    ∃ r, commit {} { located with version := some .v4_1 } = .ok (some r) ∧
      commit (Context.assuming {} .v2_0) misversioned = .ok (some r) := by
  have hmade : (commit {} { located with version := some .v4_1 }).toOption.map Option.isSome =
      some true := by decide +kernel
  obtain ⟨o, ho, hr⟩ := Option.map_eq_some_iff.1 hmade
  obtain ⟨r, rfl⟩ := Option.isSome_iff_exists.1 hr
  have hcommit := toOption_ok.1 ho
  refine ⟨r, hcommit, ?_⟩
  -- without their versions the two drafts are the same, by computation
  rw [own_version {} .v2_0 .v4_1 { located with version := some .v4_1 } misversioned rfl rfl rfl]
  exact hcommit

end DiscoveryMetadata.Resource
