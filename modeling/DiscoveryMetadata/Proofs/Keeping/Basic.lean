import DiscoveryMetadata.Proofs.Equality
import DiscoveryMetadata.Proofs.Reading.Alike
import DiscoveryMetadata.Proofs.Rebuilding.Protection
import DiscoveryMetadata.Proofs.Returning.Basic
import DiscoveryMetadata.Proofs.Text.Words
/-
  Components that are read, and made again from their drafts.

  A draft does not hold all that can be read: a part whose draft counts as empty is left out, and
  so are blank texts in lists, attributes without a value and a few more. For each kind of
  component `Kept` says that there is nothing of that sort in it. A component that is kept is made
  again from its draft (`Renews`): the element is a new one, so that the rules are checked anew,
  but the component is the same, of the same version and name (`Like`). The parts of a component
  are made again one by one (`readOption_renews`, `readAll_renews`).
-/
namespace DiscoveryMetadata

open Buildable
open Xml (Element QName)

section Lists

/-- None of the words of a text is blank. -/
theorem dropBlank_words (t : String) : dropBlank (Text.words t) = Text.words t := by
  refine List.filter_eq_self.2 fun w hw => ?_
  obtain ⟨hne, hspace⟩ := Text.isWord_of_mem_words hw
  obtain ⟨c, r, hcs⟩ := List.exists_cons_of_ne_nil (show w.toList ≠ [] by simpa using hne)
  simp [Text.isBlank, hcs, hspace c (by simp [hcs])]

end Lists

section Groups

variable {ctx : Context} {v : Version} {e : Element}

namespace SecurityAttributes

variable {a : SecurityAttributes}

/-- No attribute is there without a value. -/
def Filled (a : SecurityAttributes) : Prop := ∀ p ∈ a.values, p.2 ≠ ""

instance (a : SecurityAttributes) : Decidable a.Filled := inferInstanceAs (Decidable (∀ p ∈ _, _))

theorem isEmpty_of_beq {a b : SecurityAttributes} (h : (a == b) = true) :
    a.isEmpty = b.isEmpty := by
  have hvalues : a.values = b.values := eq_of_beq h
  rw [isEmpty, hvalues, isEmpty]

theorem requireClassification_of_beq {a b : SecurityAttributes} (h : (a == b) = true) :
    a.requireClassification = b.requireClassification := by
  have hget : a.get = b.get := by
    funext name
    have hvalues : a.values = b.values := eq_of_beq h
    rw [get, hvalues, get]
  simp only [requireClassification, classification, owners, hget]

/-- A group that was read can be put on elements, and it is made again from its own draft if all its
attributes have values. -/
theorem commitAs_read (h : ofElement ctx v e = .ok a) (hf : a.Filled) :
    (∀ e', a.addTo ctx v e' = .ok (mark ctx v a.values e')) ∧ a.toDraft.commitAs ctx v = .ok a := by
  let find := fun name => if name ∈ names then e.attribute? (some v.ismUri) name else none
  have hread : collect (fun name => e.attribute? (some v.ismUri) name) = collect find := by
    simp only [collect_eq]
    exact List.filterMap_congr fun name hn => by simp only [find, if_pos hn]
  rw [ofElement, hread] at h
  obtain ⟨ws, hws, rfl⟩ := checked_ok.1 h
  have hfind : ∀ {n x}, find n = some x → x ≠ "" := fun {n x} hx => by
    have hn : n ∈ names := by
      by_contra hn
      simp [find, hn] at hx
    exact hf (n, x) (by rw [collect_eq, mem_pairsOf]; exact ⟨hn, hx⟩)
  have hagain : collect (lastValue (collect find)) = collect find := by
    simp only [collect_eq]
    exact List.filterMap_congr fun name hn => by rw [lastValue_pairsOf names_nodup hfind, if_pos hn]
  refine ⟨fun _ => addTo_ok.2 ⟨rfl, rfl⟩, commitAs_ok.2 ⟨?_, ?_⟩⟩
  · rintro ⟨name, value⟩ hp
    rw [toDraft, collect_eq, mem_pairsOf] at hp
    exact hp.1
  · rw [toDraft, hagain]
    exact h

end SecurityAttributes

/-- Notice attributes that were read are made again of their own values. -/
theorem NoticeAttributes.ofValues_read {a : NoticeAttributes} (h : ofElement ctx v e = .ok a) :
    a.version = v ∧ ofValues ctx v a.noticeType a.noticeReason a.noticeDate a.unregisteredNoticeType
      a.externalNotice = .ok a := by
  obtain ⟨external, -, h⟩ := bind_ok.1 h
  refine ⟨?_, ofValues_toDraft h⟩
  simp only [ofValues, checked, bind_ok, pure_ok] at h
  obtain ⟨ws, -, rfl⟩ := h
  rfl

end Groups

section Names

variable {ctx : Context} {v : Version} {l : String}

@[simp]
theorem Base.beq_mk {e e' : Element} {v' : Version} {w w' : List Finding} :
    ((⟨e', v', w'⟩ : Base) == ⟨e, v, w⟩) = e'.name.sameExpanded e.name := rfl

/-- An element is of the name in a schema of the version. -/
theorem requireIn_ok {e : Element} {s : Schema} {u : String} {x : Unit} (hu : v.uriOf s = .ok u) :
    requireIn e v s l = .ok x ↔ e.name.isNamed u l = true := by
  simp only [requireIn, hu, bind_ok, demand_ok, Except.ok.injEq, exists_eq_left']

theorem Xml.QName.sameExpanded_prefixed (p u : String) (q : QName) :
    (prefixed p u l).sameExpanded q = q.isNamed u l := by
  rw [sameExpanded, isNamed, uri_prefixed, localName_prefixed, Bool.and_comm, BEq.comm (a := l),
    BEq.comm (a := q.uri)]

@[simp]
theorem Context.sameExpanded_ddmsName (q : QName) :
    (ctx.ddmsName v l).sameExpanded q = q.isNamed v.ddmsUri l :=
  QName.sameExpanded_prefixed ..

theorem isNamed_of_requireDdmsUri {e : Element} {x : Unit} (hl : e.localName = l)
    (hu : requireDdmsUri e v = .ok x) : e.name.isNamed v.ddmsUri l = true := by
  rw [requireDdmsUri, demand_ok] at hu
  rw [QName.isNamed, hu, Bool.and_true, beq_iff_eq]
  exact hl

section Children

variable {e c : Element} {u : String}

theorem Xml.Element.localName_of_mem_childrenNamed (h : c ∈ e.childrenNamed u l) :
    c.localName = l :=
  localName_of_isNamed (List.mem_filter.1 h).2

theorem Xml.Element.localName_of_child? (h : c ∈ e.child? u l) : c.localName = l := by
  rw [child?_eq] at h
  exact localName_of_mem_childrenNamed (List.mem_of_head? h)

theorem Xml.Element.localName_of_mem_ownChildren (h : c ∈ e.ownChildren l) : c.localName = l :=
  localName_of_mem_childrenNamed h

theorem Xml.Element.localName_of_ownChild? (h : c ∈ e.ownChild? l) : c.localName = l := by
  rw [ownChild?_eq] at h
  exact localName_of_mem_ownChildren (List.mem_of_head? h)

/-- An element of the DDMS namespace that has children of a name has a first one. -/
theorem Xml.Element.child?_of_ownChildren {v : Version} {l' : String}
    (hn : e.name.isNamed v.ddmsUri l' = true) (h : 1 ≤ (e.ownChildren l).length) :
    ∃ c, e.child? v.ddmsUri l = some c := by
  rw [ownChildren, uri_of_isNamed hn] at h
  rw [child?_eq]
  exact ⟨_, List.head?_eq_some_head (List.length_pos_iff.1 h)⟩

end Children

theorem length_textElements (t : String) :
    (ctx.textElements v l t).length = if t = "" then 0 else 1 := by
  unfold Context.textElements
  by_cases ht : t = "" <;> simp [ht]

@[simp]
theorem length_textElements_le (t : String) : (ctx.textElements v l t).length ≤ 1 := by
  rw [length_textElements]
  split <;> simp

end Names

@[simp]
theorem length_toList_le {α : Type} (o : Option α) : o.toList.length ≤ 1 := by cases o <;> simp

/-- The components are equal, and the first has the version and the name. -/
structure Like {α : Type} [BEq α] [Component α] (v : Version) (n : QName) (c' c : α) : Prop where
  same : (c' == c) = true
  version : (Component.base c').version = v
  name : (Component.base c').element.name = n

/-- The draft leads to a component that is like the given one. -/
def Renews {δ α : Type} [BEq α] [Component α] [Buildable δ α] (ctx : Context) (v : Version)
    (n : QName) (d : δ) (c : α) : Prop := ∃ c', build ctx v d = .ok c' ∧ Like v n c' c

/-- The drafts of the components do not count as empty, and what is said of each holds. -/
def AllKept {δ α : Type} [Buildable δ α] (f : α → δ) (kept : α → Prop) (cs : List α) : Prop :=
  ∀ c ∈ cs, isEmpty (f c) = false ∧ kept c

instance {δ α : Type} [Buildable δ α] (f : α → δ) (kept : α → Prop) (cs : List α)
    [DecidablePred kept] : Decidable (AllKept f kept cs) :=
  inferInstanceAs (Decidable (∀ c ∈ cs, _))

section Parts

variable {δ α : Type} [BEq α] [Component α] [Buildable δ α] {ctx : Context} {v : Version}
  {n : QName} {f : α → δ} {kept : α → Prop} {read : Context → Version → Element → Outcome α}

/-- The parts of a list that was read are made again, each like the one that was there. -/
theorem readAll_renews {es : List Element} {cs : List α}
    (hr : ∀ e ∈ es, ∀ c, read ctx v e = .ok c → kept c → Renews ctx v n (f c) c)
    (h : readAll read ctx v es = .ok cs) (hk : AllKept f kept cs) :
    ∃ cs', commitAll ctx v (cs.map f) = .ok cs' ∧ List.Forall₂ (Like v n) cs' cs := by
  have hrenews : ∀ c ∈ cs, kept c → Renews ctx v n (f c) c := mapM_all hr h
  clear h
  induction cs with
  | nil => exact ⟨[], commitAll_nil.2 rfl, .nil⟩
  | cons c r ih =>
    obtain ⟨⟨he, hc⟩, hkr⟩ := List.forall_mem_cons.1 hk
    obtain ⟨hd, hrest⟩ := List.forall_mem_cons.1 hrenews
    obtain ⟨c', hc', hlike⟩ := hd hc
    obtain ⟨cs', hcs', hlikes⟩ := ih hkr hrest
    exact ⟨c' :: cs', commitAll_cons.2 ⟨some c', cs', commitAs_some.2 ⟨he, hc'⟩, hcs', rfl⟩,
      .cons hlike hlikes⟩

/-- So is a part that may be there; `d` stands for one that is not. -/
theorem readOption_renews {o : Option Element} {p : Option α} {d : δ} (hd : isEmpty d = true)
    (hr : ∀ e ∈ o, ∀ c, read ctx v e = .ok c → kept c → Renews ctx v n (f c) c)
    (h : readOption read ctx v o = .ok p) (hk : AllKept f kept p.toList) :
    ∃ p', commitAs ctx v ((p.map f).getD d) = .ok p' ∧ Option.Rel (Like v n) p' p := by
  cases readOption_ok.1 h with
  | none => exact ⟨none, commitAs_none.2 hd, .none⟩
  | some hc =>
    obtain ⟨he, hkept⟩ := hk _ (List.mem_singleton.2 rfl)
    obtain ⟨c', hc', hlike⟩ := hr _ rfl _ hc hkept
    exact ⟨some c', commitAs_some.2 ⟨he, hc'⟩, .some hlike⟩

/-- The parts of a list are made again where the drafts are first put right by `g`, which leaves the
drafts of the parts as they are. -/
theorem readAll_renews_map {g : δ → δ} {es : List Element} {cs : List α}
    (hr : ∀ e ∈ es, ∀ c, read ctx v e = .ok c → kept c → Renews ctx v n (f c) c)
    (hg : ∀ e ∈ es, ∀ c, read ctx v e = .ok c → g (f c) = f c)
    (h : readAll read ctx v es = .ok cs) (hk : AllKept f kept cs) :
    ∃ cs', commitAll ctx v ((cs.map f).map g) = .ok cs' ∧ List.Forall₂ (Like v n) cs' cs := by
  have hsame : (cs.map f).map g = cs.map f := by
    rw [List.map_map]
    exact List.map_congr_left (mapM_all hg h)
  rw [hsame]
  exact readAll_renews hr h hk

/-- So is a part that may be there. -/
theorem readOption_renews_map {g : δ → δ} {o : Option Element} {p : Option α} {d : δ}
    (hd : isEmpty (g d) = true)
    (hr : ∀ e ∈ o, ∀ c, read ctx v e = .ok c → kept c → Renews ctx v n (f c) c)
    (hg : ∀ e ∈ o, ∀ c, read ctx v e = .ok c → g (f c) = f c)
    (h : readOption read ctx v o = .ok p) (hk : AllKept f kept p.toList) :
    ∃ p', commitAs ctx v (g ((p.map f).getD d)) = .ok p' ∧ Option.Rel (Like v n) p' p := by
  obtain ⟨p', hagain, hlike⟩ := readOption_renews hd hr h hk
  refine ⟨p', ?_, hlike⟩
  cases readOption_ok.1 h with
  | none => exact hagain
  | some hc => simpa only [Option.map_some, Option.getD_some, hg _ rfl _ hc] using hagain

end Parts

section Pairs

variable {α : Type} {R : α → α → Prop} {as' as : List α}

/-- What carries over from each of a list to its counterpart carries over to all. -/
theorem forall_mem_of_forall₂ {P Q : α → Prop} (hq : ∀ a' a, R a' a → P a → Q a')
    (h : List.Forall₂ R as' as) (hp : ∀ a ∈ as, P a) : ∀ a ∈ as', Q a := by
  induction h with
  | nil => simp
  | cons h _ ih =>
    obtain ⟨ha, hr⟩ := List.forall_mem_cons.1 hp
    exact List.forall_mem_cons.2 ⟨hq _ _ h ha, ih hr⟩

theorem head?_of_forall₂ (h : List.Forall₂ R as' as) : Option.Rel R as'.head? as.head? := by
  cases h with
  | nil => exact .none
  | cons h _ => exact .some h

theorem getLast?_of_forall₂ (h : List.Forall₂ R as' as) :
    Option.Rel R as'.getLast? as.getLast? := by
  rw [List.getLast?_eq_head?_reverse, List.getLast?_eq_head?_reverse]
  exact head?_of_forall₂ (List.forall₂_reverse_iff.2 h)

end Pairs

section Likeness

variable {α : Type} [BEq α] [Component α] {v : Version} {n : QName} {cs' cs : List α}
  {p' p : Option α}

theorem Like.beq_list (h : List.Forall₂ (Like v n) cs' cs) : (cs' == cs) = true := by
  induction h with
  | nil => rfl
  | cons h _ ih => rw [List.cons_beq_cons, h.same, ih, Bool.and_self]

theorem Like.beq_option (h : Option.Rel (Like v n) p' p) : (p' == p) = true := by
  cases h with
  | none => rfl
  | some h => exact h.same

theorem Like.isEmpty_eq (h : List.Forall₂ (Like v n) cs' cs) : cs'.isEmpty = cs.isEmpty := by
  cases h <;> rfl

/-- Parts that are like others have the version, each of them. -/
theorem Like.version_of_mem (h : List.Forall₂ (Like v n) cs' cs) :
    ∀ c ∈ cs', (Component.base c).version = v := by
  induction h with
  | nil => simp
  | cons h _ ih => exact List.forall_mem_cons.2 ⟨h.version, ih⟩

theorem Like.versions (h : List.Forall₂ (Like v n) cs' cs) :
    ∀ b ∈ cs'.map Component.base, b.version = v :=
  List.forall_mem_map.2 (Like.version_of_mem h)

theorem Like.names (h : List.Forall₂ (Like v n) cs' cs) :
    ∀ e ∈ cs'.map (fun c => (Component.base c).element), e.name = n := by
  induction h with
  | nil => simp
  | cons h _ ih => exact List.forall_mem_cons.2 ⟨h.name, ih⟩

theorem Like.versions_option (h : Option.Rel (Like v n) p' p) :
    ∀ b ∈ (p'.map Component.base).toList, b.version = v := by
  cases h with
  | none => simp
  | some h => simpa using h.version

theorem Like.names_option (h : Option.Rel (Like v n) p' p) :
    ∀ e ∈ (p'.map fun c => (Component.base c).element).toList, e.name = n := by
  cases h with
  | none => simp
  | some h => simpa using h.name

end Likeness

end DiscoveryMetadata
