import DiscoveryMetadata.Proofs.Rules
import DiscoveryMetadata.Proofs.Rebuilding.Management
import DiscoveryMetadata.Proofs.Rebuilding.Protection
import DiscoveryMetadata.Proofs.Rebuilding.Spaces
import DiscoveryMetadata.Proofs.Rebuilding.Subjects
/-
  Resources from their own drafts.

  The drafts of a resource are committed kind by kind; `Parts` holds what that gives, one field for
  each kind, and `Parts.MadeOf` says of which draft. The components of a resource are its parts,
  group by group (`commitComponents_ok`), and the groups are in order already (`Kinded.ranked`). The
  draft of a resource takes them up one after the other, and so it holds the drafts of the parts,
  each in the field of its kind (`Kinded.foldl_adopt`). From these the same parts are made again
  (`MadeOf.again`).

  The main statement is `Resource.rebuilt_equal`: what a draft leads to is made again from its own
  draft, provided that no extensible element is asked for and every number is faithful.
-/
namespace DiscoveryMetadata.Resource

open Buildable
open Xml (Element)

variable {ctx : Context} {v : Version}

/-- The components that a draft leads to, by their kinds. -/
structure Parts where
  identifiers : List Identifier
  titles : List Caption
  subtitles : List Caption
  description : Option Caption
  languages : List Language
  dates : Option Dates
  rights : Option Rights
  sources : List Source
  types : List ResourceType
  creators : List ProducerRole
  publishers : List ProducerRole
  contributors : List ProducerRole
  pointsOfContact : List ProducerRole
  format : Option Format
  subjectCoverages : List SubjectCoverage
  virtualCoverages : List VirtualCoverage
  temporalCoverages : List TemporalCoverage
  geospatialCoverages : List GeospatialCoverage
  relatedResources : List RelatedResource
  management : Option Management
  securityComponent : Option Security
  extensibleElements : List ExtensibleElement

namespace Parts

/-- The parts as components of a resource, in groups of one rank. -/
def groups (p : Parts) : List (List TopLevel) :=
  [p.identifiers.map .identifier, p.titles.map .caption, p.subtitles.map .caption,
   p.description.toList.map .caption, p.languages.map .language, p.dates.toList.map .dates,
   p.rights.toList.map .rights, p.sources.map .source, p.types.map .resourceType,
   p.creators.map .producer, p.publishers.map .producer, p.contributors.map .producer,
   p.pointsOfContact.map .producer, p.format.toList.map .format, p.subjectCoverages.map .subject,
   p.virtualCoverages.map .virtual, p.temporalCoverages.map .temporal,
   p.geospatialCoverages.map .geospatial, p.relatedResources.map .related,
   p.management.toList.map .management, p.securityComponent.toList.map .security,
   p.extensibleElements.map .extensible]

/-- The parts are those that the draft leads to. -/
structure MadeOf (ctx : Context) (v : Version) (d : Draft) (p : Parts) : Prop where
  identifiers : commitAll ctx v d.identifiers = .ok p.identifiers
  titles : commitAll ctx v (d.titles.map fun c => { c with kind := .title }) = .ok p.titles
  subtitles : commitAll ctx v (d.subtitles.map fun c => { c with kind := .subtitle }) =
    .ok p.subtitles
  description : commitAs ctx v { d.description with kind := .description } = .ok p.description
  languages : commitAll ctx v d.languages = .ok p.languages
  dates : commitAs ctx v d.dates = .ok p.dates
  rights : commitAs ctx v d.rights = .ok p.rights
  sources : commitAll ctx v d.sources = .ok p.sources
  types : commitAll ctx v d.types = .ok p.types
  creators : commitAll ctx v (d.creators.map fun c => { c with kind := .creator }) = .ok p.creators
  publishers : commitAll ctx v (d.publishers.map fun c => { c with kind := .publisher }) =
    .ok p.publishers
  contributors : commitAll ctx v (d.contributors.map fun c => { c with kind := .contributor }) =
    .ok p.contributors
  pointsOfContact :
    commitAll ctx v (d.pointsOfContact.map fun c => { c with kind := .pointOfContact }) =
      .ok p.pointsOfContact
  format : commitAs ctx v d.format = .ok p.format
  subjectCoverages : commitAll ctx v d.subjectCoverages = .ok p.subjectCoverages
  virtualCoverages : commitAll ctx v d.virtualCoverages = .ok p.virtualCoverages
  temporalCoverages : commitAll ctx v d.temporalCoverages = .ok p.temporalCoverages
  geospatialCoverages : commitAll ctx v d.geospatialCoverages = .ok p.geospatialCoverages
  relatedResources : commitAll ctx v d.relatedResources = .ok p.relatedResources
  management : commitAs ctx v d.management = .ok p.management
  securityComponent : commitAs ctx v d.securityComponent = .ok p.securityComponent
  extensibleElements : commitAll ctx v d.extensibleElements = .ok p.extensibleElements

end Parts

section Gathering

variable {δ α : Type} [Buildable δ α] {wrap : α → TopLevel}
  {groups : List (Unit → Outcome (List TopLevel))} {gs : List (List TopLevel)}

/-- Groups of components are made group by group. -/
def Gathered (groups : List (Unit → Outcome (List TopLevel))) (gs : List (List TopLevel)) : Prop :=
  List.Forall₂ (fun group g => group () = .ok g) groups gs

theorem gathered {ds : List δ} :
    Gathered ((fun _ => Draft.gather ctx v wrap ds) :: groups) gs ↔
      ∃ cs r, commitAll ctx v ds = .ok cs ∧ Gathered groups r ∧ gs = cs.map wrap :: r := by
  simp only [Gathered, List.forall₂_cons_left_iff, Draft.gather, map_ok]
  constructor
  · rintro ⟨_, r, ⟨cs, hcs, rfl⟩, hr, rfl⟩
    exact ⟨cs, r, hcs, hr, rfl⟩
  · rintro ⟨cs, r, hcs, hr, rfl⟩
    exact ⟨_, r, ⟨cs, hcs, rfl⟩, hr, rfl⟩

theorem gathered_one {d : δ} :
    Gathered ((fun _ => Draft.gather ctx v wrap [d]) :: groups) gs ↔
      ∃ o r, commitAs ctx v d = .ok o ∧ Gathered groups r ∧ gs = o.toList.map wrap :: r := by
  simp only [gathered, commitAll_cons, commitAll_nil]
  constructor
  · rintro ⟨_, r, ⟨o, _, ho, rfl, rfl⟩, hr, rfl⟩
    exact ⟨o, r, ho, hr, by simp⟩
  · rintro ⟨o, r, ho, hr, rfl⟩
    exact ⟨_, r, ⟨o, _, ho, rfl, rfl⟩, hr, by simp⟩

end Gathering

/-- The components of a draft are the parts that it leads to, group by group. -/
theorem commitComponents_ok {d : Draft} {ts : List TopLevel} :
    d.commitComponents ctx v = .ok ts ↔ ∃ p : Parts, p.MadeOf ctx v d ∧ p.groups.flatten = ts := by
  simp only [Draft.commitComponents, bind_ok, pure_ok, mapM_ok]
  constructor
  · rintro ⟨_, r0, rfl⟩
    -- one group after the other, in the order in which they are committed
    obtain ⟨c1, _, h1, r1, rfl⟩ := gathered.1 r0
    obtain ⟨c2, _, h2, r2, rfl⟩ := gathered.1 r1
    obtain ⟨c3, _, h3, r3, rfl⟩ := gathered.1 r2
    obtain ⟨c4, _, h4, r4, rfl⟩ := gathered_one.1 r3
    obtain ⟨c5, _, h5, r5, rfl⟩ := gathered.1 r4
    obtain ⟨c6, _, h6, r6, rfl⟩ := gathered_one.1 r5
    obtain ⟨c7, _, h7, r7, rfl⟩ := gathered_one.1 r6
    obtain ⟨c8, _, h8, r8, rfl⟩ := gathered.1 r7
    obtain ⟨c9, _, h9, r9, rfl⟩ := gathered.1 r8
    obtain ⟨c10, _, h10, r10, rfl⟩ := gathered.1 r9
    obtain ⟨c11, _, h11, r11, rfl⟩ := gathered.1 r10
    obtain ⟨c12, _, h12, r12, rfl⟩ := gathered.1 r11
    obtain ⟨c13, _, h13, r13, rfl⟩ := gathered.1 r12
    obtain ⟨c14, _, h14, r14, rfl⟩ := gathered_one.1 r13
    obtain ⟨c15, _, h15, r15, rfl⟩ := gathered.1 r14
    obtain ⟨c16, _, h16, r16, rfl⟩ := gathered.1 r15
    obtain ⟨c17, _, h17, r17, rfl⟩ := gathered.1 r16
    obtain ⟨c18, _, h18, r18, rfl⟩ := gathered.1 r17
    obtain ⟨c19, _, h19, r19, rfl⟩ := gathered.1 r18
    obtain ⟨c20, _, h20, r20, rfl⟩ := gathered_one.1 r19
    obtain ⟨c21, _, h21, r21, rfl⟩ := gathered_one.1 r20
    obtain ⟨c22, _, h22, r22, rfl⟩ := gathered.1 r21
    obtain rfl := List.forall₂_nil_left_iff.1 r22
    exact ⟨⟨c1, c2, c3, c4, c5, c6, c7, c8, c9, c10, c11, c12, c13, c14, c15, c16, c17, c18, c19, c20,
      c21, c22⟩,
      ⟨h1, h2, h3, h4, h5, h6, h7, h8, h9, h10, h11, h12, h13, h14, h15, h16, h17, h18, h19, h20,
        h21, h22⟩, rfl⟩
  · rintro ⟨p, hp, rfl⟩
    refine ⟨p.groups, ?_, rfl⟩
    refine gathered.2 ⟨_, _, hp.identifiers, ?_, rfl⟩
    refine gathered.2 ⟨_, _, hp.titles, ?_, rfl⟩
    refine gathered.2 ⟨_, _, hp.subtitles, ?_, rfl⟩
    refine gathered_one.2 ⟨_, _, hp.description, ?_, rfl⟩
    refine gathered.2 ⟨_, _, hp.languages, ?_, rfl⟩
    refine gathered_one.2 ⟨_, _, hp.dates, ?_, rfl⟩
    refine gathered_one.2 ⟨_, _, hp.rights, ?_, rfl⟩
    refine gathered.2 ⟨_, _, hp.sources, ?_, rfl⟩
    refine gathered.2 ⟨_, _, hp.types, ?_, rfl⟩
    refine gathered.2 ⟨_, _, hp.creators, ?_, rfl⟩
    refine gathered.2 ⟨_, _, hp.publishers, ?_, rfl⟩
    refine gathered.2 ⟨_, _, hp.contributors, ?_, rfl⟩
    refine gathered.2 ⟨_, _, hp.pointsOfContact, ?_, rfl⟩
    refine gathered_one.2 ⟨_, _, hp.format, ?_, rfl⟩
    refine gathered.2 ⟨_, _, hp.subjectCoverages, ?_, rfl⟩
    refine gathered.2 ⟨_, _, hp.virtualCoverages, ?_, rfl⟩
    refine gathered.2 ⟨_, _, hp.temporalCoverages, ?_, rfl⟩
    refine gathered.2 ⟨_, _, hp.geospatialCoverages, ?_, rfl⟩
    refine gathered.2 ⟨_, _, hp.relatedResources, ?_, rfl⟩
    refine gathered_one.2 ⟨_, _, hp.management, ?_, rfl⟩
    refine gathered_one.2 ⟨_, _, hp.securityComponent, ?_, rfl⟩
    refine gathered.2 ⟨_, _, hp.extensibleElements, ?_, rfl⟩
    exact .nil

section Sorting

/-- The groups hold components of the ranks from `n` on, one group for each rank. -/
def Ranked : Nat → List (List TopLevel) → Prop
  | _, [] => True
  | n, g :: gs => (∀ t ∈ g, t.rank = n) ∧ Ranked (n + 1) gs

variable {n : Nat} {gs : List (List TopLevel)}

theorem Ranked.le (h : Ranked n gs) : ∀ t ∈ gs.flatten, n ≤ t.rank := by
  induction gs generalizing n with
  | nil => simp
  | cons g gs ih =>
    obtain ⟨hg, hgs⟩ := h
    refine List.forall_mem_append.2 ⟨fun t ht => (hg t ht).ge, fun t ht => ?_⟩
    exact Nat.le_of_succ_le (ih hgs t ht)

theorem Ranked.sorted (h : Ranked n gs) : TopLevel.Sorted gs.flatten := by
  induction gs generalizing n with
  | nil => exact .nil
  | cons g gs ih =>
    obtain ⟨hg, hgs⟩ := h
    refine List.pairwise_append.2 ⟨?_, ih hgs, ?_⟩
    · exact List.pairwise_of_forall_mem_list fun s hs t ht => by rw [hg s hs, hg t ht]
    · intro s hs t ht
      rw [hg s hs]
      exact Nat.le_of_succ_le (hgs.le t ht)

end Sorting

namespace Parts

variable {p : Parts}

/-- The captions and the producers are of the kinds of their fields. -/
structure Kinded (p : Parts) : Prop where
  titles : ∀ c ∈ p.titles, c.kind = .title
  subtitles : ∀ c ∈ p.subtitles, c.kind = .subtitle
  description : ∀ c ∈ p.description, c.kind = .description
  creators : ∀ c ∈ p.creators, c.kind = .creator
  publishers : ∀ c ∈ p.publishers, c.kind = .publisher
  contributors : ∀ c ∈ p.contributors, c.kind = .contributor
  pointsOfContact : ∀ c ∈ p.pointsOfContact, c.kind = .pointOfContact

theorem MadeOf.kinded {d : Draft} (h : p.MadeOf ctx v d) : p.Kinded where
  titles := commitAll_map_all (fun _ _ => Caption.build_kind) h.titles
  subtitles := commitAll_map_all (fun _ _ => Caption.build_kind) h.subtitles
  description := commitAs_all (fun _ => Caption.build_kind) h.description
  creators := commitAll_map_all (fun _ _ => ProducerRole.build_kind) h.creators
  publishers := commitAll_map_all (fun _ _ => ProducerRole.build_kind) h.publishers
  contributors := commitAll_map_all (fun _ _ => ProducerRole.build_kind) h.contributors
  pointsOfContact := commitAll_map_all (fun _ _ => ProducerRole.build_kind) h.pointsOfContact

theorem Kinded.ranked (h : p.Kinded) : Ranked 0 p.groups := by
  obtain ⟨ht, hs, hd, hc, hp, hb, hk⟩ := h
  simp +contextual [Ranked, groups, TopLevel.rank, ht, hs, hd, hc, hp, hb, hk]

/-- The draft `d` with the drafts of the parts, after those that are there. -/
def addTo (p : Parts) (d : Draft) : Draft := { d with
  identifiers := d.identifiers ++ p.identifiers.map (·.toDraft)
  titles := d.titles ++ p.titles.map (·.toDraft)
  subtitles := d.subtitles ++ p.subtitles.map (·.toDraft)
  description := (p.description.map (·.toDraft)).getD d.description
  languages := d.languages ++ p.languages.map (·.toDraft)
  dates := (p.dates.map (·.toDraft)).getD d.dates
  rights := (p.rights.map (·.toDraft)).getD d.rights
  sources := d.sources ++ p.sources.map (·.toDraft)
  types := d.types ++ p.types.map (·.toDraft)
  creators := d.creators ++ p.creators.map (·.toDraft)
  publishers := d.publishers ++ p.publishers.map (·.toDraft)
  contributors := d.contributors ++ p.contributors.map (·.toDraft)
  pointsOfContact := d.pointsOfContact ++ p.pointsOfContact.map (·.toDraft)
  format := (p.format.map (·.toDraft)).getD d.format
  subjectCoverages := d.subjectCoverages ++ p.subjectCoverages.map (·.toDraft)
  virtualCoverages := d.virtualCoverages ++ p.virtualCoverages.map (·.toDraft)
  temporalCoverages := d.temporalCoverages ++ p.temporalCoverages.map (·.toDraft)
  geospatialCoverages := d.geospatialCoverages ++ p.geospatialCoverages.map (·.toDraft)
  relatedResources := d.relatedResources ++ p.relatedResources.map (·.toDraft)
  management := (p.management.map (·.toDraft)).getD d.management
  securityComponent := (p.securityComponent.map (·.toDraft)).getD d.securityComponent
  extensibleElements := d.extensibleElements ++ p.extensibleElements.map (·.toDraft) }

section Adopting

variable {δ α : Type} {wrap : α → TopLevel} {f : α → δ} {d d' : Draft} {gs : List (List TopLevel)}

/-- A draft takes up the components of a group in the field `g` of their kind, which `s` sets. -/
theorem adopt_all {s : Draft → List δ → Draft} (g : Draft → List δ) {cs : List α}
    (hs : ∀ c ∈ cs, ∀ d xs, (s d xs).adopt (wrap c) = s d (xs ++ [f c])) (hd : s d (g d) = d)
    (h : gs.flatten.foldl Draft.adopt (s d (g d ++ cs.map f)) = d') :
    (cs.map wrap :: gs).flatten.foldl Draft.adopt d = d' := by
  suffices hcs : ∀ xs, (cs.map wrap).foldl Draft.adopt (s d xs) = s d (xs ++ cs.map f) by
    rw [List.flatten_cons, List.foldl_append, ← h, ← hcs, hd]
  clear h hd
  induction cs with
  | nil => simp
  | cons c r ih =>
    obtain ⟨hc, hr⟩ := List.forall_mem_cons.1 hs
    intro xs
    rw [List.map_cons, List.foldl_cons, hc, ih hr, List.map_cons, List.append_assoc,
      List.singleton_append]

/-- A draft takes up a component that may be there in the field `g` of its kind. -/
theorem adopt_one {s : Draft → δ → Draft} (g : Draft → δ) {o : Option α}
    (hs : ∀ c ∈ o, d.adopt (wrap c) = s d (f c)) (hd : s d (g d) = d)
    (h : gs.flatten.foldl Draft.adopt (s d ((o.map f).getD (g d))) = d') :
    (o.toList.map wrap :: gs).flatten.foldl Draft.adopt d = d' := by
  rw [← h, List.flatten_cons, List.foldl_append]
  cases o with
  | none => exact congrArg (gs.flatten.foldl Draft.adopt) hd.symm
  | some c => exact congrArg (gs.flatten.foldl Draft.adopt) (hs c rfl)

end Adopting

/-- Taking up the components of the parts adds the drafts of the parts. -/
theorem Kinded.foldl_adopt (h : p.Kinded) (d : Draft) :
    p.groups.flatten.foldl Draft.adopt d = p.addTo d := by
  -- group by group: what is of one kind goes to the one list of the draft that holds its kind
  refine adopt_all (s := fun d xs => { d with identifiers := xs })
    (·.identifiers) (fun _ _ _ _ => rfl) rfl ?_
  refine adopt_all (s := fun d xs => { d with titles := xs }) (f := Caption.toDraft)
    (·.titles) (fun c hc => by simp [Draft.adopt, h.titles c hc]) rfl ?_
  refine adopt_all (s := fun d xs => { d with subtitles := xs }) (f := Caption.toDraft)
    (·.subtitles) (fun c hc => by simp [Draft.adopt, h.subtitles c hc]) rfl ?_
  refine adopt_one (s := fun d x => { d with description := x }) (f := Caption.toDraft)
    (·.description) (fun c hc => by simp [Draft.adopt, h.description c hc]) rfl ?_
  refine adopt_all (s := fun d xs => { d with languages := xs })
    (·.languages) (fun _ _ _ _ => rfl) rfl ?_
  refine adopt_one (s := fun d x => { d with dates := x }) (·.dates) (fun _ _ => rfl) rfl ?_
  refine adopt_one (s := fun d x => { d with rights := x }) (·.rights) (fun _ _ => rfl) rfl ?_
  refine adopt_all (s := fun d xs => { d with sources := xs })
    (·.sources) (fun _ _ _ _ => rfl) rfl ?_
  refine adopt_all (s := fun d xs => { d with types := xs }) (·.types) (fun _ _ _ _ => rfl) rfl ?_
  refine adopt_all (s := fun d xs => { d with creators := xs }) (f := ProducerRole.toDraft)
    (·.creators) (fun c hc => by simp [Draft.adopt, h.creators c hc]) rfl ?_
  refine adopt_all (s := fun d xs => { d with publishers := xs }) (f := ProducerRole.toDraft)
    (·.publishers) (fun c hc => by simp [Draft.adopt, h.publishers c hc]) rfl ?_
  refine adopt_all (s := fun d xs => { d with contributors := xs }) (f := ProducerRole.toDraft)
    (·.contributors) (fun c hc => by simp [Draft.adopt, h.contributors c hc]) rfl ?_
  refine adopt_all (s := fun d xs => { d with pointsOfContact := xs }) (f := ProducerRole.toDraft)
    (·.pointsOfContact) (fun c hc => by simp [Draft.adopt, h.pointsOfContact c hc]) rfl ?_
  refine adopt_one (s := fun d x => { d with format := x }) (·.format) (fun _ _ => rfl) rfl ?_
  refine adopt_all (s := fun d xs => { d with subjectCoverages := xs })
    (·.subjectCoverages) (fun _ _ _ _ => rfl) rfl ?_
  refine adopt_all (s := fun d xs => { d with virtualCoverages := xs })
    (·.virtualCoverages) (fun _ _ _ _ => rfl) rfl ?_
  refine adopt_all (s := fun d xs => { d with temporalCoverages := xs })
    (·.temporalCoverages) (fun _ _ _ _ => rfl) rfl ?_
  refine adopt_all (s := fun d xs => { d with geospatialCoverages := xs })
    (·.geospatialCoverages) (fun _ _ _ _ => rfl) rfl ?_
  refine adopt_all (s := fun d xs => { d with relatedResources := xs })
    (·.relatedResources) (fun _ _ _ _ => rfl) rfl ?_
  refine adopt_one (s := fun d x => { d with management := x })
    (·.management) (fun _ _ => rfl) rfl ?_
  refine adopt_one (s := fun d x => { d with securityComponent := x })
    (·.securityComponent) (fun _ _ => rfl) rfl ?_
  refine adopt_all (s := fun d xs => { d with extensibleElements := xs })
    (·.extensibleElements) (fun _ _ _ _ => rfl) rfl ?_
  rfl

end Parts

/-- What the draft of a resource holds before it takes up the components. -/
def header (r : Resource) : Draft :=
  { version := some r.version
    markings := r.markings
    security := r.security.toDraft
    noticeType := r.notice.noticeType
    noticeReason := r.notice.noticeReason
    noticeDate := r.notice.noticeDate
    unregisteredNoticeType := r.notice.unregisteredNoticeType
    externalNotice := r.notice.externalNotice
    extensible := r.extensible.attributes }

theorem toDraft_eq {r : Resource} {p : Parts} (hp : p.Kinded) (h : r.components = p.groups.flatten) :
    r.toDraft = p.addTo r.header := by
  rw [← hp.foldl_adopt, ← h]
  rfl

/-- From the drafts of the parts the same parts are made, unless there are extensible elements. -/
theorem Parts.MadeOf.again {d : Draft} {p : Parts} {r : Resource} (h : p.MadeOf ctx v d)
    (hn : ∀ x ∈ d.numbers, x.Faithful) (hx : p.extensibleElements = []) :
    p.MadeOf ctx v (p.addTo r.header) where
  identifiers := commitAll_toDraft (fun d _ => Identifier.rebuilds d) h.identifiers
  titles := commitAll_map_toDraft (fun _ _ => Caption.rebuilds _) h.titles fun c hc =>
    Caption.toDraft_kind (h.kinded.titles c hc)
  subtitles := commitAll_map_toDraft (fun _ _ => Caption.rebuilds _) h.subtitles fun c hc =>
    Caption.toDraft_kind (h.kinded.subtitles c hc)
  description := commitAs_map_getD (g := fun d : Caption.Draft => { d with kind := .description })
    rfl (Caption.rebuilds _) h.description fun c hc =>
      Caption.toDraft_kind (h.kinded.description c hc)
  languages := commitAll_toDraft (fun d _ => Language.rebuilds d) h.languages
  dates := commitAs_getD rfl (Dates.rebuilds _) h.dates
  rights := commitAs_getD rfl (Rights.rebuilds _) h.rights
  sources := commitAll_toDraft (fun d _ => Source.rebuilds d) h.sources
  types := commitAll_toDraft (fun d _ => ResourceType.rebuilds d) h.types
  creators := commitAll_map_toDraft (fun _ _ => ProducerRole.rebuilds _) h.creators fun c hc =>
    ProducerRole.toDraft_kind (h.kinded.creators c hc)
  publishers := commitAll_map_toDraft (fun _ _ => ProducerRole.rebuilds _) h.publishers fun c hc =>
    ProducerRole.toDraft_kind (h.kinded.publishers c hc)
  contributors := commitAll_map_toDraft (fun _ _ => ProducerRole.rebuilds _) h.contributors
    fun c hc => ProducerRole.toDraft_kind (h.kinded.contributors c hc)
  pointsOfContact := commitAll_map_toDraft (fun _ _ => ProducerRole.rebuilds _) h.pointsOfContact
    fun c hc => ProducerRole.toDraft_kind (h.kinded.pointsOfContact c hc)
  format := commitAs_getD rfl (Format.rebuilds _) h.format
  subjectCoverages := commitAll_toDraft (fun d _ => SubjectCoverage.rebuilds d) h.subjectCoverages
  virtualCoverages := commitAll_toDraft (fun d _ => VirtualCoverage.rebuilds d) h.virtualCoverages
  temporalCoverages := commitAll_toDraft (fun d _ => TemporalCoverage.rebuilds d) h.temporalCoverages
  geospatialCoverages := commitAll_toDraft
    (fun d hd => GeospatialCoverage.rebuilds d (fun x hx => hn x (List.mem_flatMap.2 ⟨d, hd, hx⟩)))
    h.geospatialCoverages
  relatedResources := commitAll_toDraft (fun d _ => RelatedResource.rebuilds d) h.relatedResources
  management := commitAs_getD rfl (Management.rebuilds _) h.management
  securityComponent := commitAs_getD rfl (Security.rebuilds _) h.securityComponent
  extensibleElements := by
    have hd : (p.addTo r.header).extensibleElements = p.extensibleElements.map (·.toDraft) := rfl
    rw [hd, hx]
    exact commitAll_nil.2 rfl

section Making

variable {r : Resource} {components : List TopLevel} {markings : Markings}
  {s : SecurityAttributes} {n : NoticeAttributes} {x : ExtensibleAttributes}

theorem make_keeps (h : make ctx v components markings s n x = .ok r) :
    r.version = v ∧ r.components = TopLevel.inOrder components ∧ r.markings = markings ∧
      r.security = s ∧ r.notice = n ∧ r.extensible = x ∧ r.identifiers ≠ [] := by
  simp only [make, checked, bind_ok, within_ok, check_ok, exists_unit, pure_ok] at h
  obtain ⟨e, -, h, rfl⟩ := h
  exact ⟨rfl, rfl, rfl, rfl, rfl, rfl, identifiers_of_rules h⟩

theorem ofList_toDraft {as : List Xml.Attribute} (h : ExtensibleAttributes.ofList v as = .ok x) :
    ExtensibleAttributes.ofList v x.attributes = .ok x := by
  have hx := h
  simp only [ExtensibleAttributes.ofList, bind_ok, pure_ok] at hx
  obtain ⟨-, -, rfl⟩ := hx
  exact h

theorem Parts.mem_identifiers {p : Parts} {c : Identifier} (h : .identifier c ∈ p.groups.flatten) :
    c ∈ p.identifiers := by
  simpa [groups] using h

theorem Parts.mem_geospatialCoverages {p : Parts} {c : GeospatialCoverage}
    (h : .geospatial c ∈ p.groups.flatten) : c ∈ p.geospatialCoverages := by
  simpa [groups] using h

/-- A draft that leads to an identifier is not empty. -/
theorem Parts.MadeOf.isEmpty_eq_false {d : Draft} {p : Parts} (h : p.MadeOf ctx v d)
    (hi : p.identifiers ≠ []) : isEmpty d = false := by
  have hd : allEmpty d.identifiers = false := by
    rw [allEmpty_eq h.identifiers]
    simpa using hi
  simp [isEmpty, Draft.componentsAreEmpty, hd]

end Making

/-- The parts that a resource is made of, and the resource made of them and of what it holds. -/
theorem build_ok {d : Draft} {r : Resource} (h : build ctx v d = .ok r) :
    ∃ p : Parts, p.MadeOf ctx v d ∧
      NoticeAttributes.ofValues ctx v d.noticeType d.noticeReason d.noticeDate
        d.unregisteredNoticeType d.externalNotice = .ok r.notice ∧
      ExtensibleAttributes.ofList v d.extensible = .ok r.extensible ∧
      d.security.commitAs ctx v = .ok r.security ∧
      make ctx v p.groups.flatten r.markings r.security r.notice r.extensible = .ok r := by
  obtain ⟨ts, hts, h⟩ := bind_ok.1 h
  obtain ⟨n, hn, h⟩ := bind_ok.1 h
  obtain ⟨x, hx, h⟩ := bind_ok.1 h
  obtain ⟨s, hs, h⟩ := bind_ok.1 h
  obtain ⟨p, hp, rfl⟩ := commitComponents_ok.1 hts
  obtain ⟨-, -, hmarkings, rfl, rfl, rfl, -⟩ := make_keeps h
  rw [← hmarkings] at h
  exact ⟨p, hp, hn, hx, hs, h⟩

/-- The components of a resource are the parts that it is made of, and there is an identifier. -/
theorem components_eq {p : Parts} {m : Markings} (hp : p.Kinded)
    (h : make ctx v p.groups.flatten m s n x = .ok r) :
    r.version = v ∧ r.components = p.groups.flatten ∧ p.identifiers ≠ [] := by
  obtain ⟨hversion, hcomponents, -, -, -, -, hi⟩ := make_keeps h
  rw [TopLevel.inOrder_of_sorted hp.ranked.sorted] at hcomponents
  refine ⟨hversion, hcomponents, fun hnil => hi ?_⟩
  rw [identifiers, List.filterMap_eq_nil_iff]
  rintro (c | _) ht
  · rw [hcomponents] at ht
    cases hnil ▸ Parts.mem_identifiers ht
  all_goals rfl

theorem rebuilds (d : Draft) (hx : allEmpty d.extensibleElements = true)
    (hn : ∀ x ∈ d.numbers, x.Faithful) : Rebuilds ctx v toDraft d := by
  intro r h
  obtain ⟨p, hp, hnotice, hextensible, hs, h⟩ := build_ok (commitAs_some.1 h).2
  obtain ⟨-, hcomponents, hi⟩ := components_eq hp.kinded h
  have hnone : p.extensibleElements = [] := by
    rw [allEmpty_eq hp.extensibleElements] at hx
    exact List.isEmpty_iff.1 hx
  have hagain : p.MadeOf ctx v (p.addTo r.header) := hp.again hn hnone
  rw [toDraft_eq hp.kinded hcomponents]
  refine commitAs_some.2 ⟨hagain.isEmpty_eq_false hi, ?_⟩
  exact bind_ok.2 ⟨_, commitComponents_ok.2 ⟨p, hagain, rfl⟩,
    bind_ok.2 ⟨_, NoticeAttributes.ofValues_toDraft hnotice, bind_ok.2 ⟨_, ofList_toDraft hextensible,
      bind_ok.2 ⟨_, SecurityAttributes.commitAs_toDraft hs, h⟩⟩⟩⟩

/-- The numbers of a resource are among those of its draft. -/
theorem numbers_components {d : Draft} {r : Resource} (hn : ∀ x ∈ d.numbers, x.Faithful)
    (h : build ctx v d = .ok r) : ∀ t ∈ r.components, ∀ x ∈ t.numbers, x ∈ d.numbers := by
  obtain ⟨p, hp, -, -, -, h⟩ := build_ok h
  obtain ⟨-, hcomponents, -⟩ := components_eq hp.kinded h
  have hnumbers := numbers_commitAll (n := GeospatialCoverage.Draft.numbers) hp.geospatialCoverages
    fun e he _ hc => GeospatialCoverage.numbers_toDraft
      (fun x hx => hn x (List.mem_flatMap.2 ⟨e, he, hx⟩)) (commitAs_some.1 hc).2
  intro t ht x hx
  rw [hcomponents] at ht
  cases t with
  | geospatial c =>
    have hc := List.mem_map_of_mem (f := GeospatialCoverage.toDraft)
      (Parts.mem_geospatialCoverages ht)
    exact hnumbers (List.mem_flatMap.2 ⟨_, hc, hx⟩)
  | _ => cases hx

/-- The resource that a draft leads to is made again, equal to itself, from its own draft. -/
theorem rebuilt_equal (ctx : Context) (v : Version) (d : Draft) (r : Resource)
    (hx : allEmpty d.extensibleElements = true) (hn : ∀ x ∈ d.numbers, x.Faithful)
    (h : commitAs ctx v d = .ok (some r)) :
    ∃ r', commit ctx r.toDraft = .ok (some r') ∧ (r' == r) = true := by
  have hbuild := (commitAs_some.1 h).2
  refine ⟨r, ?_, beq_self fun t ht x hx => (hn x (numbers_components hn hbuild t ht x hx)).1⟩
  obtain ⟨p, hp, -, -, -, hmake⟩ := build_ok hbuild
  obtain ⟨hversion, hcomponents, -⟩ := components_eq hp.kinded hmake
  have hagain := rebuilds d hx hn r h
  rw [toDraft_eq hp.kinded hcomponents] at hagain ⊢
  have hv : version? (p.addTo r.header) = some v := congrArg some hversion
  rw [commit, hv]
  exact hagain

/-- A resource of version 4.1 about a space of which the bounds and the heights are given. -/
def located : Draft :=
  let marked : SecurityAttributes.Draft :=
    { values := [("classification", "U"), ("ownerProducer", "USA")] }
  { identifiers := [{ qualifier := "urn:isbn", value := "0" }]
    titles := [{ value := "Title", security := marked }]
    publishers :=
      [{ entityType := .person
         person := { contact := { names := ["Given", " "] }, surname := "Surname" }
         security := marked }]
    subjectCoverages := [{ keywords := [{ value := "word" }] }]
    geospatialCoverages :=
      [{ boundingBox :=
           { west := Double.ofContent? "-77.5", east := Double.ofContent? "-76.9"
             south := Double.ofContent? "38.5", north := Double.ofContent? "39" }
         verticalExtent :=
           { minimum := Double.ofContent? "0.1", maximum := Double.ofContent? "12.25"
             unitOfMeasure := "Meter", datum := "HAE" } }]
    securityComponent := { security := marked }
    markings := .ofDate .v4_1 "2012-01-01"
    security := marked }

theorem rebuilt_equal_located :
    ∃ r r', commitAs {} .v4_1 located = .ok (some r) ∧ commit {} r.toDraft = .ok (some r') ∧
      (r' == r) = true := by
  have hmade : (commitAs {} .v4_1 located).toOption.map (Option.isSome) = some true := by
    decide +kernel
  obtain ⟨o, ho, hr⟩ := Option.map_eq_some_iff.1 hmade
  obtain ⟨r, rfl⟩ := Option.isSome_iff_exists.1 hr
  have hcommit := toOption_ok.1 ho
  obtain ⟨r', hagain, heq⟩ := rebuilt_equal {} .v4_1 located r (by decide +kernel)
    (by decide +kernel) hcommit
  exact ⟨r, r', hcommit, hagain, heq⟩

end DiscoveryMetadata.Resource
