import DiscoveryMetadata.Proofs.Elements
import DiscoveryMetadata.Proofs.Xml.Written
import Mathlib.Data.List.Nodup
/-
  Trees in which every prefix has one meaning.

  A tree is regular for a table of prefixes if all names in it are taken from the table, no element
  has two attributes of one name, and its texts are fit, whatever is asked of them. The steps that
  components make their elements with keep trees regular. Where the prefixes of the table differ, a
  regular tree can be written and read back, its texts aside (`Regular.framed`), and as a whole if
  no text begins or ends with white space (`Regular.writable`).
-/
namespace DiscoveryMetadata.Xml

theorem isName_iff {s : String} : IsName s ↔ Plain s.toList ∧ ':' ∉ s.toList ∧ s ≠ "xmlns" :=
  ⟨fun h => ⟨h.plain, h.noColon, h.notDeclaring⟩, fun h => ⟨h.1, h.2.1, h.2.2⟩⟩

instance (cs : List Char) : Decidable (Plain cs) :=
  decidable_of_iff (cs ≠ [] ∧ cs.all isPlain = true) (and_congr_right fun _ => List.all_eq_true)

instance (s : String) : Decidable (IsName s) := decidable_of_iff _ isName_iff.symm

/-- The name is written with a prefix of the table, and in its namespace. -/
inductive QName.Listed (table : List (String × String)) : QName → Prop
  | intro {p u l : String} (hb : (p, u) ∈ table) (hl : IsName l) : Listed table (.prefixed p u l)

/-- The name has a prefix of the table, or is in no namespace. -/
inductive QName.Usable (table : List (String × String)) : QName → Prop
  | listed {q : QName} (h : q.Listed table) : Usable table q
  | bare {l : String} (hl : IsName l) : Usable table (.unqualified l)

/-- The prefixes are names, and differ from one another and from the reserved one. -/
structure Distinct (table : List (String × String)) : Prop where
  names : ∀ b ∈ table, IsName b.1
  free : ∀ b ∈ table, b.1 ≠ "xml"
  nodup : (table.map Prod.fst).Nodup

/-- The text can stand in a document as it is. -/
def Tidy (text : String) : Prop := Text.trim text = text

instance (text : String) : Decidable (Tidy text) := inferInstanceAs (Decidable (_ = _))

/-- All names in the tree are taken from the table, attributes differ in their names, and texts
are fit to stand in it. -/
inductive Element.Regular (fit : String → Prop) (table : List (String × String)) : Element → Prop
  | intro {e : Element} (name : e.name.Listed table)
      (attributes : ∀ a ∈ e.attributes, a.name.Usable table)
      (distinct : e.attributes.Pairwise fun a b => a.name.sameExpanded b.name = false)
      (text : ∀ t ∈ e.text, t ≠ "" ∧ fit t) (declared : e.declared = .empty)
      (children : ∀ c ∈ e.children, Element.Regular fit table c) : Element.Regular fit table e

namespace Element.Regular

variable {fit : String → Prop} {table : List (String × String)} {e : Element} {n : QName}
  {x : String} {cs : List Element}

theorem bare (hn : n.Listed table) : Regular fit table { name := n } :=
  .intro hn (by simp) .nil (by simp) rfl (by simp)

theorem names_assign (n : QName) (x : String) (as : List Attribute) :
    (assign n x as).map (·.name) =
      if as.any (·.name.sameExpanded n) then as.map (·.name) else as.map (·.name) ++ [n] := by
  induction as with
  | nil => rfl
  | cons a r ih =>
    unfold assign
    by_cases hs : a.name.sameExpanded n = true
    · simp [hs]
    · rw [if_neg hs, List.map_cons, ih]
      simp only [List.any_cons, hs, Bool.false_or, List.map_cons, List.cons_append]
      split <;> rfl

theorem setAttribute (h : e.Regular fit table) (hn : n.Usable table) :
    (e.setAttribute n x).Regular fit table := by
  obtain ⟨name, attributes, distinct, text, declared, children⟩ := h
  refine .intro name (forall_name_setAttribute attributes hn) ?_ text declared children
  let Differ := fun q r : QName => q.sameExpanded r = false
  have hmap : (e.attributes.map (·.name)).Pairwise Differ := List.pairwise_map.2 distinct
  suffices hnew : ((assign n x e.attributes).map (·.name)).Pairwise Differ from
    List.pairwise_map.1 hnew
  rw [names_assign]
  split
  case isTrue => exact hmap
  case isFalse hnew =>
    refine List.pairwise_append.2 ⟨hmap, List.pairwise_singleton _ _, ?_⟩
    simp only [List.any_eq_true, not_exists, not_and, Bool.not_eq_true] at hnew
    intro q hq r hr
    obtain ⟨a, ha, rfl⟩ := List.mem_map.1 hq
    obtain rfl := List.mem_singleton.1 hr
    exact hnew a ha

theorem put (h : e.Regular fit table) (hn : n.Usable table) : (e.put n x).Regular fit table := by
  unfold Element.put
  split
  · exact h
  · exact h.setAttribute hn

theorem withText (h : e.Regular fit table) (hne : x ≠ "") (hx : fit x) :
    (e.withText x).Regular fit table := by
  obtain ⟨name, attributes, distinct, -, declared, children⟩ := h
  refine .intro name attributes distinct ?_ declared children
  rintro t ht
  obtain rfl := Option.some.inj ht
  exact ⟨hne, hx⟩

theorem putText (h : e.Regular fit table) (hx : fit x) : (e.putText x).Regular fit table := by
  unfold Element.putText
  split
  case isTrue => exact h
  case isFalse hne => exact h.withText (by simpa using hne) hx

theorem add (h : e.Regular fit table) (hc : ∀ c ∈ cs, c.Regular fit table) :
    (e.add cs).Regular fit table := by
  obtain ⟨name, attributes, distinct, text, declared, children⟩ := h
  exact .intro name attributes distinct text declared (List.forall_mem_append.2 ⟨children, hc⟩)

end Element.Regular

section Writing

variable {table : List (String × String)} (ht : Distinct table) {q r : QName} {e : Element}
  {outer : Scope}

theorem IsName.ne_empty {s : String} (h : IsName s) : s ≠ "" := by
  rintro rfl
  exact h.plain.ne_nil rfl

include ht

/-- A listed name has its prefix and its namespace from the table. -/
theorem QName.Listed.mem (h : q.Listed table) :
    IsName q.localName ∧ ∃ b ∈ table, q.nsPrefix = some b.1 ∧ q.uri = some b.2 := by
  obtain ⟨hb, hl⟩ := h
  have hp : ∀ {p : String}, IsName p → p.isEmpty = false := fun hp => by simpa using hp.ne_empty
  exact ⟨hl, _, hb, by simp [prefixed, hp (ht.names _ hb)], rfl⟩

theorem QName.Listed.writable (h : q.Listed table) : q.Writable := by
  obtain ⟨hl, b, hb, hp, hu⟩ := h.mem ht
  refine ⟨hl, ?_, fun _ => by simp [hu]⟩
  rintro p hq
  obtain rfl : b.1 = p := Option.some.inj (hp.symm.trans hq)
  exact ht.names b hb

theorem QName.Usable.writable (h : q.Usable table) :
    q.Writable ∧ (q.uri.isSome → q.nsPrefix.isSome) := by
  cases h with
  | listed h =>
    obtain ⟨-, b, -, hp, -⟩ := h.mem ht
    exact ⟨h.writable ht, fun _ => by simp [hp]⟩
  | bare hl => exact ⟨⟨hl, by simp [unqualified], by simp [unqualified]⟩, by simp⟩

/-- Among names of the table the prefix tells the namespace. -/
theorem QName.Usable.uri_eq (hq : q.Usable table) (hr : r.Usable table)
    (hp : q.nsPrefix = r.nsPrefix) : q.uri = r.uri := by
  cases hq with
  | listed hq =>
    obtain ⟨-, b, hb, hbp, hbu⟩ := hq.mem ht
    cases hr with
    | listed hr =>
      obtain ⟨-, c, hc, hcp, hcu⟩ := hr.mem ht
      have hbc : b.1 = c.1 := Option.some.inj (hbp.symm.trans (hp.trans hcp))
      rw [hbu, hcu, List.inj_on_of_nodup_map ht.nodup hb hc hbc]
    | bare hl => cases hbp.symm.trans hp
  | bare hl =>
    cases hr with
    | listed hr =>
      obtain ⟨-, c, -, hcp, -⟩ := hr.mem ht
      cases hp.trans hcp
    | bare hl => rfl

/-- Names of the table that are written alike mean the same. -/
theorem QName.Usable.sameExpanded (hq : q.Usable table) (hr : r.Usable table)
    (hw : q.written = r.written) : q.sameExpanded r = true := by
  obtain ⟨hqn, -⟩ := hq.writable ht
  obtain ⟨hrn, -⟩ := hr.writable ht
  have hboth : q.nsPrefix = r.nsPrefix ∧ q.localName = r.localName := by
    have hsplit := hqn.clear.splitAt?_written.symm.trans (hw ▸ hrn.clear.splitAt?_written)
    cases hp : q.nsPrefix with
    | none =>
      rw [hp, Option.map_none, eq_comm, Option.map_eq_none_iff] at hsplit
      rw [QName.written, QName.written, hp, hsplit] at hw
      exact ⟨hsplit.symm, hw⟩
    | some p =>
      rw [hp, Option.map_some, eq_comm, Option.map_eq_some_iff] at hsplit
      obtain ⟨p', hp', heq⟩ := hsplit
      obtain ⟨hpp, hl⟩ := Prod.mk.inj heq
      exact ⟨by rw [hp', String.toList_inj.1 hpp], (String.toList_inj.1 hl).symm⟩
  simp [QName.sameExpanded, hq.uri_eq ht hr hboth.1, hboth.2]

/-- What an element of names of the table needs are bindings of the table. -/
theorem Element.Regular.mem_needs {fit : String → Prop} (h : e.Regular fit table)
    {d : Declaration} (hd : d ∈ e.needs) : ∃ b ∈ table, d = ⟨some b.1, b.2⟩ := by
  obtain ⟨name, attributes, -, -, declared, -⟩ := h
  simp only [needs, declared, Scope.empty, List.map_nil, Option.map_none, Option.toList_none,
    List.append_nil, List.mem_append, Option.mem_toList, Option.map_eq_some_iff,
    List.mem_filterMap] at hd
  obtain ⟨u, hu, rfl⟩ | ⟨a, ha, hd⟩ := hd
  · obtain ⟨-, b, hb, hp, hbu⟩ := name.mem ht
    obtain rfl : b.2 = u := Option.some.inj (hbu.symm.trans hu)
    exact ⟨b, hb, by rw [hp]⟩
  · have hname := attributes a ha
    generalize a.name = q at hname hd
    cases hname with
    | listed hl =>
      obtain ⟨-, b, hb, hp, hbu⟩ := hl.mem ht
      simp only [hp, hbu, Option.some.injEq] at hd
      exact ⟨b, hb, hd.symm⟩
    | bare hl => cases hd

theorem Element.Regular.presentable {fit : String → Prop} (h : e.Regular fit table)
    (htext : ∀ t ∈ e.text, t ≠ "" ∧ Text.trim t = t) : e.Presentable outer := by
  have hneeds := fun {d} hd => h.mem_needs ht (d := d) hd
  obtain ⟨name, attributes, distinct, -, -, -⟩ := h
  constructor
  case name => exact name.writable ht
  case attributes => exact fun a ha => (attributes a ha).writable ht
  case distinct =>
    refine distinct.imp_of_mem fun {a b} ha hb hab hw => ?_
    rw [(attributes a ha).sameExpanded ht (attributes b hb) hw] at hab
    cases hab
  case declared =>
    intro d hd p hp
    obtain ⟨b, hb, rfl⟩ := hneeds hd
    obtain rfl := Option.some.inj hp
    exact ht.names b hb
  case agree =>
    intro d hd d' hd' hp
    obtain ⟨b, hb, rfl⟩ := hneeds hd
    obtain ⟨c, hc, rfl⟩ := hneeds hd'
    rw [List.inj_on_of_nodup_map ht.nodup hb hc (Option.some.inj hp)]
  case reserved =>
    intro d hd hp
    obtain ⟨b, hb, rfl⟩ := hneeds hd
    exact absurd (Option.some.inj hp) (ht.free b hb)
  case text => exact htext
  case free =>
    intro hnone
    obtain ⟨-, b, -, -, hu⟩ := name.mem ht
    cases hnone.symm.trans hu

/-- A regular element can be written without its text, whatever that is. -/
theorem Element.Regular.presentable_bare {fit : String → Prop} (h : e.Regular fit table) :
    Presentable outer { e with text := none } := by
  obtain ⟨name, attributes, distinct, -, declared, children⟩ := h
  have hbare : Regular fit table { e with text := none } :=
    .intro name attributes distinct (by simp) declared children
  exact hbare.presentable ht (by simp)

/-- A regular tree can be written but for its texts, wherever it stands. -/
theorem Element.Regular.framed {fit : String → Prop} (h : e.Regular fit table) :
    e.Framed outer := by
  induction h generalizing outer with
  | intro name attributes distinct text declared children ih =>
    exact .intro
      (Regular.presentable_bare ht (.intro name attributes distinct text declared children))
      fun c hc => ih c hc

/-- A regular tree can be written, wherever it stands. -/
theorem Element.Regular.writable (h : e.Regular Tidy table) : Element.Writable outer e := by
  induction h generalizing outer with
  | intro name attributes distinct text declared children ih =>
    exact .intro
      (Regular.presentable ht (.intro name attributes distinct text declared children) text)
      fun c hc => ih c hc

end Writing

end DiscoveryMetadata.Xml
