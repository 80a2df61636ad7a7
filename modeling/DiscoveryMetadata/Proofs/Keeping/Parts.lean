import DiscoveryMetadata.Proofs.Keeping.TopLevel
import DiscoveryMetadata.Proofs.Rebuilding.Resource
/-
  The components of a resource as the parts of a draft.

  Components that stand in the order of their kinds are parts, group by group, if those that a draft
  holds one of at most are single (`Parts.groups_of`). From the drafts of such parts, if each can be
  made again, parts are made that match them (`Parts.remade`).
-/
namespace DiscoveryMetadata

open Buildable

variable {ctx : Context} {v : Version}

namespace Resource

section Selecting

variable {ts : List TopLevel}

/-- The captions of a kind among the components. -/
def captionsIn (ts : List TopLevel) (kind : Caption.Kind) : List Caption :=
  ts.filterMap fun
    | .caption c => if c.kind = kind then some c else none
    | _ => none

/-- The producers in a role among the components. -/
def producersAmong (ts : List TopLevel) (kind : ProducerRole.Kind) : List ProducerRole :=
  ts.filterMap fun
    | .producer c => if c.kind = kind then some c else none
    | _ => none

/-- The parts that the components are, by their kinds. -/
def Parts.of (ts : List TopLevel) : Parts where
  identifiers := ts.filterMap fun | .identifier c => some c | _ => none
  titles := captionsIn ts .title
  subtitles := captionsIn ts .subtitle
  description := (captionsIn ts .description).head?
  languages := ts.filterMap fun | .language c => some c | _ => none
  dates := (ts.filterMap fun | .dates c => some c | _ => none).head?
  rights := (ts.filterMap fun | .rights c => some c | _ => none).head?
  sources := ts.filterMap fun | .source c => some c | _ => none
  types := ts.filterMap fun | .resourceType c => some c | _ => none
  creators := producersAmong ts .creator
  publishers := producersAmong ts .publisher
  contributors := producersAmong ts .contributor
  pointsOfContact := producersAmong ts .pointOfContact
  format := (ts.filterMap fun | .format c => some c | _ => none).head?
  subjectCoverages := ts.filterMap fun | .subject c => some c | _ => none
  virtualCoverages := ts.filterMap fun | .virtual c => some c | _ => none
  temporalCoverages := ts.filterMap fun | .temporal c => some c | _ => none
  geospatialCoverages := ts.filterMap fun | .geospatial c => some c | _ => none
  relatedResources := ts.filterMap fun | .related c => some c | _ => none
  management := (ts.filterMap fun | .management c => some c | _ => none).head?
  securityComponent := (ts.filterMap fun | .security c => some c | _ => none).head?
  extensibleElements := ts.filterMap fun | .extensible c => some c | _ => none

theorem kind_of_mem_captionsIn {kind : Caption.Kind} {c : Caption} (h : c ∈ captionsIn ts kind) :
    c.kind = kind := by
  obtain ⟨t, -, ht⟩ := List.mem_filterMap.1 h
  cases t <;> simp at ht
  exact ht.2 ▸ ht.1

theorem kind_of_mem_producersAmong {kind : ProducerRole.Kind} {c : ProducerRole}
    (h : c ∈ producersAmong ts kind) : c.kind = kind := by
  obtain ⟨t, -, ht⟩ := List.mem_filterMap.1 h
  cases t <;> simp at ht
  exact ht.2 ▸ ht.1

theorem Parts.kinded_of : (Parts.of ts).Kinded where
  titles _ := kind_of_mem_captionsIn
  subtitles _ := kind_of_mem_captionsIn
  description _ h := kind_of_mem_captionsIn (List.mem_of_head? h)
  creators _ := kind_of_mem_producersAmong
  publishers _ := kind_of_mem_producersAmong
  contributors _ := kind_of_mem_producersAmong
  pointsOfContact _ := kind_of_mem_producersAmong

/-- The components of one rank. -/
def ofRank (ts : List TopLevel) (n : Nat) : List TopLevel := ts.filter fun t => t.rank = n

/-- In a list in order, the components of a rank stand before those that rank higher. -/
theorem ofRank_append (h : TopLevel.Sorted ts) (n : Nat) :
    ofRank ts n ++ ts.filter (fun t => n + 1 ≤ t.rank) = ts.filter fun t => n ≤ t.rank := by
  induction ts with
  | nil => rfl
  | cons t r ih =>
    obtain ⟨ht, hr⟩ := List.pairwise_cons.1 h
    have ih := ih hr
    unfold ofRank at ih ⊢
    simp only [List.filter_cons, decide_eq_true_eq]
    rcases Nat.lt_trichotomy t.rank n with hn | hn | hn
    · rw [if_neg hn.ne, if_neg (by omega), if_neg (by omega), ih]
    · rw [if_pos hn, if_neg (by omega), if_pos hn.ge, List.cons_append, ih]
    · have hnone : r.filter (fun s => s.rank = n) = [] := by
        refine List.filter_eq_nil_iff.2 fun s hs => ?_
        have hle := ht s hs
        simp only [decide_eq_true_eq]
        omega
      rw [hnone, List.nil_append] at ih
      rw [if_neg hn.ne', if_pos (Nat.succ_le_of_lt hn), if_pos hn.le, hnone, List.nil_append, ih]

theorem flatten_ofRank (h : TopLevel.Sorted ts) (k n : Nat) :
    ((List.range' n k).map (ofRank ts)).flatten ++ ts.filter (fun t => n + k ≤ t.rank) =
      ts.filter fun t => n ≤ t.rank := by
  induction k generalizing n with
  | zero => rfl
  | succ k ih =>
    rw [List.range'_succ, List.map_cons, List.flatten_cons, List.append_assoc,
      show n + (k + 1) = n + 1 + k by omega, ih, ofRank_append h]

theorem rank_lt (t : TopLevel) : t.rank < 22 := by
  unfold TopLevel.rank
  split <;> try omega
  all_goals split <;> omega

/-- Components in order are those of each rank, one rank after the other. -/
theorem ranks_flatten (h : TopLevel.Sorted ts) :
    ((List.range' 0 22).map (ofRank ts)).flatten = ts := by
  have hall := flatten_ofRank h 22 0
  have hnone : ts.filter (fun t => 0 + 22 ≤ t.rank) = [] :=
    List.filter_eq_nil_iff.2 fun t _ => by
      have := rank_lt t
      simp only [decide_eq_true_eq]
      omega
  rw [hnone, List.append_nil] at hall
  exact hall.trans (List.filter_eq_self.2 fun t _ => by simp)

section Fields

variable {α : Type} {f : TopLevel → Option α} {w : α → TopLevel} {n : Nat}

/-- What is selected is all of one rank. -/
def Selects (f : TopLevel → Option α) (w : α → TopLevel) (n : Nat) : Prop :=
  ∀ t, (f t).map w = if t.rank = n then some t else none

theorem map_all (h : Selects f w n) : (ts.filterMap f).map w = ofRank ts n := by
  rw [List.map_filterMap, ofRank, ← List.filterMap_eq_filter]
  congr 1
  funext t
  rw [h t]
  simp [Option.guard]

theorem map_one (h : Selects f w n) (hn : (ofRank ts n).length ≤ 1) :
    (ts.filterMap f).head?.toList.map w = ofRank ts n := by
  rw [← map_all h]
  rw [← map_all h, List.length_map] at hn
  cases hf : ts.filterMap f with
  | nil => rfl
  | cons c r =>
    rw [hf, List.length_cons] at hn
    obtain rfl := List.length_eq_zero_iff.1 (show r.length = 0 by omega)
    rfl

end Fields

/-- The ranks of those components that can stand in a resource once at most, with their names. -/
def singles : List (Nat × String) :=
  [(3, "description"), (5, "dates"), (6, "rights"), (13, "format"), (19, "resourceManagement"),
   (20, "security")]

/-- Components in order, of which those of some kinds are single, are parts. -/
theorem Parts.groups_of (h : TopLevel.Sorted ts)
    (hone : ∀ s ∈ singles, (ofRank ts s.1).length ≤ 1) : (Parts.of ts).groups.flatten = ts := by
  simp only [singles, List.forall_mem_cons] at hone
  obtain ⟨h3, h5, h6, h13, h19, h20, -⟩ := hone
  suffices hgroups : (Parts.of ts).groups = (List.range' 0 22).map (ofRank ts) by
    rw [hgroups, ranks_flatten h]
  simp only [Parts.groups, Parts.of, captionsIn, producersAmong, List.range', List.map_cons,
    List.map_nil, List.cons.injEq, and_true]
  refine ⟨map_all ?_, map_all ?_, map_all ?_, map_one ?_ h3, map_all ?_, map_one ?_ h5,
    map_one ?_ h6, map_all ?_, map_all ?_, map_all ?_, map_all ?_, map_all ?_, map_all ?_,
    map_one ?_ h13, map_all ?_, map_all ?_, map_all ?_, map_all ?_, map_all ?_, map_one ?_ h19,
    map_one ?_ h20, map_all ?_⟩
  -- each field takes the components of its kind, for captions and producers by their own kinds
  all_goals
    rintro (_ | ⟨_, _ | _ | _, _, _⟩ | _ | _ | _ | _ | _ | ⟨_, _ | _ | _ | _, _, _, _⟩ | _)
    all_goals rfl

end Selecting

section Remaking

open TopLevel (Matches)

section Fields

variable {δ α : Type} [BEq α] [Component α] [Buildable δ α] {f : α → δ} {w : α → TopLevel}
  {cs : List α} {o : Option α}

/-- The components of one field are made again from their drafts. -/
theorem remade_all (hb : ∀ c, (w c).base = Component.base c)
    (hw : ∀ c' c, (w c' == w c) = (c' == c))
    (hr : ∀ c ∈ cs, TopLevel.Remakes ctx v (f c) c) :
    ∃ cs', commitAll ctx v (cs.map f) = .ok cs' ∧
      List.Forall₂ (Matches v) (cs'.map w) (cs.map w) := by
  induction cs with
  | nil => exact ⟨[], commitAll_nil.2 rfl, .nil⟩
  | cons c r ih =>
    obtain ⟨⟨he, n, c', hc', hlike⟩, hrest⟩ := List.forall_mem_cons.1 hr
    obtain ⟨cs', hcs', hmatches⟩ := ih hrest
    exact ⟨c' :: cs', commitAll_cons.2 ⟨some c', cs', commitAs_some.2 ⟨he, hc'⟩, hcs', rfl⟩,
      .cons ⟨(hw c' c).trans hlike.same, hb c' ▸ hlike.version⟩ hmatches⟩

/-- So they are where their kind is put into the drafts first. -/
theorem remade_map {g : δ → δ} (hb : ∀ c, (w c).base = Component.base c)
    (hw : ∀ c' c, (w c' == w c) = (c' == c)) (hg : ∀ c ∈ cs, g (f c) = f c)
    (hr : ∀ c ∈ cs, TopLevel.Remakes ctx v (f c) c) :
    ∃ cs', commitAll ctx v ((cs.map f).map g) = .ok cs' ∧
      List.Forall₂ (Matches v) (cs'.map w) (cs.map w) := by
  have hsame : (cs.map f).map g = cs.map f := by
    rw [List.map_map]
    exact List.map_congr_left hg
  rw [hsame]
  exact remade_all hb hw hr

/-- A component that may be there is made again; `d` stands for one that is not. -/
theorem remade_one {d : δ} (hd : isEmpty d = true) (hb : ∀ c, (w c).base = Component.base c)
    (hw : ∀ c' c, (w c' == w c) = (c' == c))
    (hr : ∀ c ∈ o.toList, TopLevel.Remakes ctx v (f c) c) :
    ∃ o', commitAs ctx v ((o.map f).getD d) = .ok o' ∧
      List.Forall₂ (Matches v) (o'.toList.map w) (o.toList.map w) := by
  cases o with
  | none => exact ⟨none, commitAs_none.2 hd, .nil⟩
  | some c =>
    obtain ⟨he, n, c', hc', hlike⟩ := hr c (List.mem_singleton.2 rfl)
    exact ⟨some c', commitAs_some.2 ⟨he, hc'⟩,
      .cons ⟨(hw c' c).trans hlike.same, hb c' ▸ hlike.version⟩ .nil⟩

theorem remade_captions {kind : Caption.Kind} {cs : List Caption} (hk : ∀ c ∈ cs, c.kind = kind)
    (hr : ∀ c ∈ cs, (TopLevel.caption c).Remade ctx v) :
    ∃ cs', commitAll ctx v ((cs.map (·.toDraft)).map fun d => { d with kind }) = .ok cs' ∧
      List.Forall₂ (Matches v) (cs'.map .caption) (cs.map .caption) :=
  remade_map (fun _ => rfl) (fun _ _ => rfl) (fun c hc => Caption.toDraft_kind (hk c hc)) hr

theorem remade_producers {kind : ProducerRole.Kind} {cs : List ProducerRole}
    (hk : ∀ c ∈ cs, c.kind = kind) (hr : ∀ c ∈ cs, (TopLevel.producer c).Remade ctx v) :
    ∃ cs', commitAll ctx v ((cs.map (·.toDraft)).map fun d => { d with kind }) = .ok cs' ∧
      List.Forall₂ (Matches v) (cs'.map .producer) (cs.map .producer) :=
  remade_map (fun _ => rfl) (fun _ _ => rfl) (fun c hc => ProducerRole.toDraft_kind (hk c hc)) hr

theorem remade_description {o : Option Caption} {d : Caption.Draft}
    (hd : isEmpty { d with kind := .description } = true) (hk : ∀ c ∈ o, c.kind = .description)
    (hr : ∀ c ∈ o.toList, (TopLevel.caption c).Remade ctx v) :
    ∃ o', commitAs ctx v { (o.map (·.toDraft)).getD d with kind := .description } = .ok o' ∧
      List.Forall₂ (Matches v) (o'.toList.map .caption) (o.toList.map .caption) := by
  obtain ⟨o', ho', hmatches⟩ := remade_one (w := .caption) hd (fun _ => rfl) (fun _ _ => rfl) hr
  refine ⟨o', ?_, hmatches⟩
  cases o with
  | none => exact ho'
  | some c => rwa [Option.map_some, Option.getD_some, Caption.toDraft_kind (hk c rfl)]

end Fields

/-- From the drafts of parts that can be made again, parts are made that match them. -/
theorem Parts.remade {p : Parts} {r : Resource} (hp : p.Kinded)
    (hr : ∀ t ∈ p.groups.flatten, t.Remade ctx v) :
    ∃ p' : Parts, p'.MadeOf ctx v (p.addTo r.header) ∧
      List.Forall₂ (Matches v) p'.groups.flatten p.groups.flatten := by
  simp only [groups, List.flatten_cons, List.flatten_nil, List.append_nil,
    List.forall_mem_append, List.forall_mem_map] at hr
  obtain ⟨r1, r2, r3, r4, r5, r6, r7, r8, r9, r10, r11, r12, r13, r14, r15, r16, r17, r18, r19, r20,
    r21, r22⟩ := hr
  -- group by group, as the draft is committed
  obtain ⟨c1, h1, m1⟩ := remade_all (w := .identifier) (fun _ => rfl) (fun _ _ => rfl) r1
  obtain ⟨c2, h2, m2⟩ := remade_captions hp.titles r2
  obtain ⟨c3, h3, m3⟩ := remade_captions hp.subtitles r3
  obtain ⟨c4, h4, m4⟩ := remade_description (d := {}) rfl hp.description r4
  obtain ⟨c5, h5, m5⟩ := remade_all (w := .language) (fun _ => rfl) (fun _ _ => rfl) r5
  obtain ⟨c6, h6, m6⟩ := remade_one (w := .dates) (d := ({} : Dates.Draft)) rfl (fun _ => rfl)
    (fun _ _ => rfl) r6
  obtain ⟨c7, h7, m7⟩ := remade_one (w := .rights) (d := ({} : Rights.Draft)) rfl (fun _ => rfl)
    (fun _ _ => rfl) r7
  obtain ⟨c8, h8, m8⟩ := remade_all (w := .source) (fun _ => rfl) (fun _ _ => rfl) r8
  obtain ⟨c9, h9, m9⟩ := remade_all (w := .resourceType) (fun _ => rfl) (fun _ _ => rfl) r9
  obtain ⟨c10, h10, m10⟩ := remade_producers hp.creators r10
  obtain ⟨c11, h11, m11⟩ := remade_producers hp.publishers r11
  obtain ⟨c12, h12, m12⟩ := remade_producers hp.contributors r12
  obtain ⟨c13, h13, m13⟩ := remade_producers hp.pointsOfContact r13
  obtain ⟨c14, h14, m14⟩ := remade_one (w := .format) (d := ({} : Format.Draft)) rfl (fun _ => rfl)
    (fun _ _ => rfl) r14
  obtain ⟨c15, h15, m15⟩ := remade_all (w := .subject) (fun _ => rfl) (fun _ _ => rfl) r15
  obtain ⟨c16, h16, m16⟩ := remade_all (w := .virtual) (fun _ => rfl) (fun _ _ => rfl) r16
  obtain ⟨c17, h17, m17⟩ := remade_all (w := .temporal) (fun _ => rfl) (fun _ _ => rfl) r17
  obtain ⟨c18, h18, m18⟩ := remade_all (w := .geospatial) (fun _ => rfl) (fun _ _ => rfl) r18
  obtain ⟨c19, h19, m19⟩ := remade_all (w := .related) (fun _ => rfl) (fun _ _ => rfl) r19
  obtain ⟨c20, h20, m20⟩ := remade_one (w := .management) (d := ({} : Management.Draft)) rfl
    (fun _ => rfl) (fun _ _ => rfl) r20
  obtain ⟨c21, h21, m21⟩ := remade_one (w := .security) (d := ({} : Security.Draft)) rfl
    (fun _ => rfl) (fun _ _ => rfl) r21
  obtain ⟨c22, h22, m22⟩ := remade_all (w := .extensible) (fun _ => rfl) (fun _ _ => rfl) r22
  refine ⟨⟨c1, c2, c3, c4, c5, c6, c7, c8, c9, c10, c11, c12, c13, c14, c15, c16, c17, c18, c19,
    c20, c21, c22⟩, ⟨h1, h2, h3, h4, h5, h6, h7, h8, h9, h10, h11, h12, h13, h14, h15, h16, h17,
    h18, h19, h20, h21, h22⟩, List.rel_flatten ?_⟩
  exact .cons m1 (.cons m2 (.cons m3 (.cons m4 (.cons m5 (.cons m6 (.cons m7 (.cons m8 (.cons m9
    (.cons m10 (.cons m11 (.cons m12 (.cons m13 (.cons m14 (.cons m15 (.cons m16 (.cons m17
    (.cons m18 (.cons m19 (.cons m20 (.cons m21 (.cons m22 .nil)))))))))))))))))))))

end Remaking

end Resource

end DiscoveryMetadata
