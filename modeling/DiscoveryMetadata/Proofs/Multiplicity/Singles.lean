import DiscoveryMetadata.Proofs.Gates.Part
import DiscoveryMetadata.Proofs.Keeping.Basic
import DiscoveryMetadata.Proofs.Returning.Protection
/-
  Children of which a component shows one.

  Where a component has room for one value of a kind, its reader takes the first child that stands
  for it. What there is of further children is not seen in the component, although its element
  keeps them. Each such room is a `Place` here. `Part.singles` lists the places of thirteen kinds of
  components; for some of them the rules count the children and refuse a second one, and for the
  others they do not. So a component shows all children of this sort exactly if there is at most one
  in each of the places that are not counted (`Part.singles_shown`).
-/
namespace DiscoveryMetadata

open Xml (Element)

/-- A place of a component with room for one: whether the rules count the children that stand for
it, these children, and what it means that the component shows a child there, or none. -/
structure Place where
  counted : Bool
  found : List Element
  Shows : Option Element → Prop

namespace Place

/-- The component shows the first child, and where the children are counted there is no other. -/
structure Kept (p : Place) : Prop where
  first : p.Shows p.found.head?
  once : p.counted = true → p.found.length ≤ 1

/-- There is one child at most, and the component shows it. -/
def Whole (p : Place) : Prop := ∃ o : Option Element, p.found = o.toList ∧ p.Shows o

theorem Kept.whole_iff {p : Place} (h : p.Kept) : p.Whole ↔ p.found.length ≤ 1 := by
  constructor
  · rintro ⟨o, ho, -⟩
    rw [ho]
    cases o <;> simp
  · intro hlength
    -- the first child is the only one, so showing it is showing all
    refine ⟨p.found.head?, ?_, h.first⟩
    match hfound : p.found, hlength with
    | [], _ => rfl
    | [_], _ => rfl

variable {α : Type} {ctx : Context} {v : Version} {e w : Element} {name uri l : String}
  {counted : Bool}

/-- A place for a text. -/
def text (counted : Bool) (value : String) (found : List Element) : Place :=
  ⟨counted, found, fun o => value = (o.map (·.content)).getD ""⟩

/-- A place for a part. -/
def part (counted : Bool) (read : Element → Outcome α) (c : Option α) (found : List Element) :
    Place :=
  ⟨counted, found, fun o => Option.Rel (fun e c => read e = .ok c) o c⟩

/-- Before version 4.0.1, the place of the wrapper, whose own content the component shows. -/
def wrapper (e : Element) (v : Version) (name : String) (Shows : Element → Prop) : List Place :=
  if v.atLeast .v4_0_1 then []
  else [⟨false, e.ownChildren name, fun o => ∃ w, o = some w ∧ Shows w⟩]

/-- The places of an element whose content may stand in a wrapper: that of the wrapper, and those in
the element that holds the content. -/
def held (e : Element) (v : Version) (name : String) (content : Element → List Place) :
    List Place :=
  wrapper e v name (fun w => ∀ p ∈ content w, p.Kept) ++
    (e.holder? v name).toList.flatMap content

/-- Where nothing is counted, nothing is asked. -/
theorem uncounted {n : Nat} (h : false = true) : n ≤ 1 := absurd h Bool.false_ne_true

theorem text_kept (h : counted = true → (e.ownChildren l).length ≤ 1) :
    (text counted (e.ownText l) (e.ownChildren l)).Kept := by
  refine ⟨?_, h⟩
  show e.ownText l = ((e.ownChildren l).head?.map (·.content)).getD ""
  rw [Element.ownText, Element.ownChild?_eq]

theorem part_kept {read : Context → Version → Element → Outcome α} {c : Option α}
    (hread : readOption read ctx v (e.child? uri l) = .ok c)
    (h : counted = true → (e.childrenNamed uri l).length ≤ 1) :
    (part counted (read ctx v) c (e.childrenNamed uri l)).Kept := by
  refine ⟨?_, h⟩
  show Option.Rel _ (e.childrenNamed uri l).head? c
  rw [← Element.child?_eq]
  exact readOption_ok.1 hread

/-- The element that holds the content is the first wrapper. -/
theorem wrapper_kept {Shows : Element → Prop} (hw : e.holder? v name = some w) (hs : Shows w) :
    ∀ p ∈ wrapper e v name Shows, p.Kept := by
  unfold wrapper
  split
  · simp
  · rename_i hv
    rw [Element.holder?, if_neg hv, Element.wrapper?, if_neg hv, Element.ownChild?_eq] at hw
    rw [List.forall_mem_singleton]
    exact ⟨⟨w, hw, hs⟩, uncounted⟩

theorem held_kept {content : Element → List Place} (hw : e.holder? v name = some w)
    (hc : ∀ p ∈ content w, p.Kept) : ∀ p ∈ held e v name content, p.Kept := by
  rw [held, hw, Option.toList_some, List.flatMap_singleton, List.forall_mem_append]
  exact ⟨wrapper_kept hw hc, hc⟩

end Place

theorem le_of_requireChildren {e : Element} {l : String} {low high : Nat}
    (h : requireChildren e l low high = .ok ()) : (e.ownChildren l).length ≤ high := by
  rw [requireChildren_ok, Bool.and_eq_true, decide_eq_true_eq, decide_eq_true_eq] at h
  exact h.2

variable {ctx : Context} {v : Version} {e : Element}

section Records

namespace Format

/-- The places in the element that holds the content. -/
def content (ctx : Context) (v : Version) (c : Format) (media : Element) : List Place :=
  [.text true c.mimeType (media.ownChildren "mimeType"),
   .part true (Extent.ofElement ctx v) c.extent (media.ownChildren "extent"),
   .text true c.medium (media.ownChildren "medium")]

/-- The places of a format. -/
def singles (ctx : Context) (v : Version) (e : Element) (c : Format) : List Place :=
  Place.held e v wrapper (c.content ctx v)

theorem singles_kept {c : Format} (h : ofElement ctx v e = .ok c) :
    ∀ p ∈ c.singles ctx v e, p.Kept := by
  simp only [ofElement, checked, bind_ok, within_ok, withinHolder_ok, check_ok, pure_ok,
    exists_unit, rules] at h
  obtain ⟨x, hx, ⟨-, hrules⟩, rfl⟩ := h
  cases hm : e.holder? v wrapper with
  | none =>
    rw [hm] at hrules
    exact (throw_ok.1 hrules).elim
  | some media =>
    have hmedia : holder ⟨e, v, []⟩ = media := by rw [holder, hm, Option.getD_some]
    simp only [hm, hmedia, bind_ok, exists_unit] at hrules hx
    obtain ⟨-, hmime, hextent, hmedium, -⟩ := hrules
    apply Place.held_kept hm
    simp only [content, hmedia, List.forall_mem_cons]
    exact ⟨Place.text_kept fun _ => le_of_requireChildren hmime,
      Place.part_kept hx fun _ => le_of_requireChildren hextent,
      Place.text_kept fun _ => le_of_requireChildren hmedium, by simp⟩

end Format

namespace ApproximableDate

/-- The places in the range to search in. -/
def windowPlaces (c : ApproximableDate) (window : Element) : List Place :=
  [.text false c.searchableStart (window.ownChildren "start"),
   .text false c.searchableEnd (window.ownChildren "end")]

/-- The places of an approximable date; the range to search in has places of its own. -/
def singles (e : Element) (c : ApproximableDate) : List Place :=
  [⟨false, e.ownChildren "description", fun o => c.described = o.map (·.content)⟩,
   ⟨false, e.ownChildren "approximableDate", fun o =>
     c.date = (o.map (·.content)).getD "" ∧
       c.approximation = (o.map (·.own "approximation")).getD ""⟩,
   ⟨false, e.ownChildren "searchableDate", fun o =>
     c.searchableStart = (o.map (·.ownText "start")).getD "" ∧
       c.searchableEnd = (o.map (·.ownText "end")).getD ""⟩] ++
    (e.ownChild? "searchableDate").toList.flatMap c.windowPlaces

theorem singles_kept {c : ApproximableDate} (h : ofElement ctx v e = .ok c) :
    ∀ p ∈ c.singles e, p.Kept := by
  simp only [ofElement, checked, bind_ok, check_ok, pure_ok, exists_unit] at h
  obtain ⟨-, rfl⟩ := h
  simp only [singles, List.cons_append, List.nil_append, List.forall_mem_cons,
    Element.ownChild?_eq]
  refine ⟨⟨rfl, Place.uncounted⟩, ⟨⟨rfl, rfl⟩, Place.uncounted⟩, ⟨⟨rfl, rfl⟩, Place.uncounted⟩, ?_⟩
  cases (e.ownChildren "searchableDate").head? with
  | none => simp
  | some window =>
    simp only [Option.toList_some, List.flatMap_singleton, windowPlaces, List.forall_mem_cons]
    exact ⟨Place.text_kept Place.uncounted, Place.text_kept Place.uncounted, by simp⟩

end ApproximableDate

namespace Person

/-- The places of a person. -/
def singles (e : Element) (c : Person) : List Place :=
  [.text true c.surname (e.ownChildren "surname"), .text true c.userId (e.ownChildren "userID"),
   .text true c.affiliation (e.ownChildren "affiliation")]

theorem singles_kept {c : Person} (h : ofElement ctx v e = .ok c) :
    ∀ p ∈ c.singles e, p.Kept := by
  simp only [ofElement, checked, bind_ok, check_ok, pure_ok, exists_unit, rules] at h
  obtain ⟨⟨-, -, -, hsurname, huser, haffiliation⟩, rfl⟩ := h
  simp only [singles, List.forall_mem_cons]
  exact ⟨Place.text_kept fun _ => le_of_requireChildren hsurname,
    Place.text_kept fun _ => le_of_requireChildren huser,
    Place.text_kept fun _ => le_of_requireChildren haffiliation, by simp⟩

end Person

end Records

section Roles

/-- The reader of a role takes the first child if that is an entity. -/
theorem Place.entity_kept {α : Type} {read : Element → Outcome α} {entity : Option α}
    (h : (match e.children with
      | child :: _ => if Entity.isElement child v then (read child).map some else .ok none
      | [] => .ok none) = .ok entity) (hsome : entity.isSome = true) :
    (part false read entity (e.children.filter (Entity.isElement · v))).Kept := by
  refine ⟨?_, Place.uncounted⟩
  show Option.Rel _ (e.children.filter (Entity.isElement · v)).head? entity
  split at h
  · rename_i child children hchildren
    split at h
    · -- the first child is an entity, so it is also the first entity among the children
      rename_i hentity
      obtain ⟨x, hx, rfl⟩ := map_ok.1 h
      rw [hchildren, List.filter_cons, if_pos hentity, List.head?_cons]
      exact .some hx
    · rw [← Except.ok.inj h] at hsome
      cases hsome
  · rw [← Except.ok.inj h] at hsome
    cases hsome

namespace ProducerRole

/-- The place of a producer role. -/
def singles (ctx : Context) (v : Version) (e : Element) (c : ProducerRole) : List Place :=
  [.part false (Producer.ofElement ctx v) c.entity (e.children.filter (Entity.isElement · v))]

theorem singles_kept {c : ProducerRole} (h : ofElement ctx v e = .ok c) :
    ∀ p ∈ c.singles ctx v e, p.Kept := by
  unfold ofElement at h
  split at h
  · exact (error_ok.1 (within_ok.1 h)).elim
  · simp only [checked, bind_ok, within_ok, check_ok, pure_ok, rules] at h
    obtain ⟨entity, hentity, s, -, remarks, ⟨-, -, hrules⟩, rfl⟩ := h
    rw [singles, List.forall_mem_singleton]
    apply Place.entity_kept hentity
    cases entity with
    | none => simp at hrules
    | some x => rfl

end ProducerRole

namespace TaskingRole

/-- The place of a role in a tasking. -/
def singles (ctx : Context) (v : Version) (e : Element) (c : TaskingRole) : List Place :=
  [.part false (TaskingEntity.ofElement ctx v) c.entity
    (e.children.filter (Entity.isElement · v))]

theorem singles_kept {c : TaskingRole} (h : ofElement ctx v e = .ok c) :
    ∀ p ∈ c.singles ctx v e, p.Kept := by
  unfold ofElement at h
  split at h
  · exact (error_ok.1 (within_ok.1 h)).elim
  · simp only [checked, bind_ok, within_ok, check_ok, pure_ok, exists_unit, rules] at h
    obtain ⟨entity, hentity, s, -, ⟨-, hrules⟩, rfl⟩ := h
    rw [singles, List.forall_mem_singleton]
    apply Place.entity_kept hentity
    cases entity with
    | none => simp at hrules
    | some x => rfl

end TaskingRole

end Roles

section Management

namespace RecordKeeper

/-- The places of a record keeper. -/
def singles (ctx : Context) (v : Version) (e : Element) (c : RecordKeeper) : List Place :=
  [.text false c.recordKeeperId (e.ownChildren "recordKeeperID"),
   .part false (Organization.ofElement ctx v) c.organization
     (e.childrenNamed v.ddmsUri (Entity.name v "organization"))]

theorem singles_kept {c : RecordKeeper} (h : ofElement ctx v e = .ok c) :
    ∀ p ∈ c.singles ctx v e, p.Kept := by
  simp only [ofElement, checked, bind_ok, within_ok, check_ok, pure_ok, exists_unit] at h
  obtain ⟨organization, horganization, -, rfl⟩ := h
  simp only [singles, List.forall_mem_cons]
  exact ⟨Place.text_kept Place.uncounted, Place.part_kept horganization Place.uncounted, by simp⟩

end RecordKeeper

namespace TaskingInfo

/-- The places of a tasking. -/
def singles (ctx : Context) (v : Version) (e : Element) (c : TaskingInfo) : List Place :=
  [.part true (Caption.ofElement ctx v) c.description (e.childrenNamed v.ddmsUri "description"),
   .part true (TaskId.ofElement ctx v) c.taskId (e.childrenNamed v.ddmsUri "taskID")]

theorem singles_kept {c : TaskingInfo} (h : ofElement ctx v e = .ok c) :
    ∀ p ∈ c.singles ctx v e, p.Kept := by
  simp only [ofElement, checked, bind_ok, within_ok, check_ok, pure_ok, exists_unit, rules,
    requireDdms_ok] at h
  obtain ⟨rs, -, as, -, description, hdescription, task, htask, s, -,
    ⟨hname, hdescriptions, htasks, -⟩, rfl⟩ := h
  have hcount : ∀ l n, requireChildren e l n 1 = .ok () →
      (e.childrenNamed v.ddmsUri l).length ≤ 1 := by
    intro l n hl
    rw [← Element.uri_of_isNamed hname]
    exact le_of_requireChildren hl
  simp only [singles, List.forall_mem_cons]
  exact ⟨Place.part_kept hdescription fun _ => hcount _ _ hdescriptions,
    Place.part_kept htask fun _ => hcount _ _ htasks, by simp⟩

end TaskingInfo

namespace AccessEntity

/-- The place of an individual, a group or a profile. -/
def singles (ctx : Context) (v : Version) (e : Element) (c : AccessEntity) : List Place :=
  [.part false (AccessText.ofElement ctx v) c.systemName
    (e.childrenNamed Version.ntkUri AccessText.Kind.systemName.name)]

theorem singles_kept {c : AccessEntity} (h : ofElement ctx v e = .ok c) :
    ∀ p ∈ c.singles ctx v e, p.Kept := by
  unfold ofElement at h
  split at h
  · exact (error_ok.1 (within_ok.1 h)).elim
  · simp only [checked, bind_ok, within_ok, check_ok, pure_ok, exists_unit] at h
    obtain ⟨u, hu, system, hsystem, ts, -, s, -, -, rfl⟩ := h
    obtain rfl := Ntk.uriFor_eq hu
    rw [singles, List.forall_mem_singleton]
    exact Place.part_kept hsystem Place.uncounted

end AccessEntity

end Management

section Coverages

/-- One of the two forms of a bound is read from a child. -/
inductive TimeBound.Of (ctx : Context) (v : Version) (exactName approximateName : String) :
    Element → TimeBound → Prop
  | exact {x : Element} (hx : x.localName = exactName) :
      Of ctx v exactName approximateName x (.exact x.content)
  | approximate {x : Element} {d : ApproximableDate} (hx : x.localName = approximateName)
      (hd : ApproximableDate.ofElement ctx v x = .ok d) :
      Of ctx v exactName approximateName x (.approximate d)

namespace TemporalCoverage

/-- The place of a bound, for which children of two names stand. Since version 4.1 they are counted
together. -/
def boundPlace (ctx : Context) (v : Version) (exact approximate : String)
    (bound : Option TimeBound) (holder : Element) : Place :=
  ⟨v.atLeast .v4_1, holder.ownChildren exact ++ holder.ownChildren approximate,
    fun o => Option.Rel (TimeBound.Of ctx v exact approximate) o bound⟩

/-- The places in the element that holds the content. -/
def content (ctx : Context) (v : Version) (c : TemporalCoverage) (holder : Element) : List Place :=
  [⟨true, holder.ownChildren "name", fun o => c.given = o.map (·.content)⟩,
   boundPlace ctx v "start" "approximableStart" c.start holder,
   boundPlace ctx v "end" "approximableEnd" c.finish holder]

/-- The places of a temporal coverage. -/
def singles (ctx : Context) (v : Version) (e : Element) (c : TemporalCoverage) : List Place :=
  Place.held e v wrapper (c.content ctx v)

/-- The exact form is preferred. -/
theorem readBound_ok {holder : Element} {exact approximate : String} {bound : Option TimeBound}
    (h : readBound ctx v holder exact approximate = .ok bound) :
    Option.Rel (TimeBound.Of ctx v exact approximate)
      (holder.ownChildren exact ++ holder.ownChildren approximate).head? bound := by
  rw [List.head?_append, ← Element.ownChild?_eq, ← Element.ownChild?_eq]
  unfold readBound at h
  split at h
  · -- an exact child comes first in the list, wherever it stands in the document
    rename_i child hchild
    rw [hchild, Option.some_or, ← Except.ok.inj h]
    exact .some (.exact (Element.localName_of_ownChild? hchild))
  · rename_i hchild
    rw [hchild, Option.none_or]
    simp only [bind_ok, pure_ok] at h
    obtain ⟨date, hdate, rfl⟩ := h
    cases hother : holder.ownChild? approximate with
    | none =>
      rw [hother] at hdate
      cases readOption_ok.1 hdate
      exact .none
    | some x =>
      rw [hother] at hdate
      cases readOption_ok.1 hdate with
      | some hd => exact .some (.approximate (Element.localName_of_ownChild? hother) hd)

/-- What the rules ask of the numbers of children. -/
theorem counts_of_rules {c : TemporalCoverage} {holder : Element}
    (h : c.contentRules holder = .ok ()) :
    (holder.ownChildren "name").length ≤ 1 ∧
    (c.version.atLeast .v4_1 = true →
      (holder.ownChildren "start").length + (holder.ownChildren "approximableStart").length = 1 ∧
      (holder.ownChildren "end").length + (holder.ownChildren "approximableEnd").length = 1) ∧
    (c.version.atLeast .v4_1 = false →
      (holder.ownChildren "start").length = 1 ∧ (holder.ownChildren "end").length = 1) := by
  unfold contentRules at h
  by_cases hv : c.version.atLeast .v4_1 = true
  · simp only [hv, if_true, bind_ok, exists_unit, requireCount, demand_ok, Bool.and_eq_true,
      decide_eq_true_eq] at h
    obtain ⟨hname, hstart, hend, -⟩ := h
    refine ⟨hname.2, fun _ => ⟨by omega, by omega⟩, fun hnot => ?_⟩
    rw [hv] at hnot
    cases hnot
  · simp only [if_neg hv, bind_ok, exists_unit, requireCount, demand_ok, Bool.and_eq_true,
      decide_eq_true_eq] at h
    obtain ⟨hname, hstart, hend, -⟩ := h
    exact ⟨hname.2, fun hyes => absurd hyes hv, fun _ => ⟨by omega, by omega⟩⟩

/-- What is read of a coverage is read in the element that holds the content, which keeps the
rules. -/
structure ReadIn (ctx : Context) (v : Version) (c : TemporalCoverage) (holder : Element) :
    Prop where
  version : c.version = v
  given : c.given = (holder.ownChildren "name").head?.map (·.content)
  start : readBound ctx v holder "start" "approximableStart" = .ok c.start
  finish : readBound ctx v holder "end" "approximableEnd" = .ok c.finish
  rules : c.contentRules holder = .ok ()

theorem ofElement_content {c : TemporalCoverage} (h : ofElement ctx v e = .ok c) :
    e.name.isNamed v.ddmsUri "temporalCoverage" = true ∧
      ∃ holder, e.holder? v wrapper = some holder ∧ c.ReadIn ctx v holder := by
  simp only [ofElement, checked, bind_ok, within_ok, check_ok, pure_ok, exists_unit, rules,
    requireDdms_ok] at h
  obtain ⟨start, hstart, finish, hfinish, s, -, ⟨hname, hrules⟩, rfl⟩ := h
  refine ⟨hname, ?_⟩
  cases hm : e.holder? v wrapper with
  | none =>
    rw [hm] at hrules
    exact (throw_ok.1 hrules).elim
  | some holder =>
    simp only [hm, readBoundIn, withinHolder_ok, bind_ok, exists_unit] at hstart hfinish hrules
    refine ⟨holder, rfl, rfl, ?_, hstart, hfinish, hrules.1⟩
    show (holder.ownChild? "name").map (·.content) = _
    rw [Element.ownChild?_eq]

theorem singles_kept {c : TemporalCoverage} (h : ofElement ctx v e = .ok c) :
    ∀ p ∈ c.singles ctx v e, p.Kept := by
  obtain ⟨-, holder, hm, hread⟩ := ofElement_content h
  obtain ⟨hname, hboth, -⟩ := counts_of_rules hread.rules
  rw [hread.version] at hboth
  apply Place.held_kept hm
  simp only [content, List.forall_mem_cons]
  refine ⟨⟨hread.given, fun _ => hname⟩, ⟨readBound_ok hread.start, fun hv => ?_⟩,
    ⟨readBound_ok hread.finish, fun hv => ?_⟩, by simp⟩
  · exact (List.length_append.trans (hboth hv).1).le
  · exact (List.length_append.trans (hboth hv).2).le

end TemporalCoverage

namespace SubjectCoverage

/-- The parts of the coverage are read from the children of an element. -/
structure ReadIn (ctx : Context) (v : Version) (c : SubjectCoverage) (holder : Element) : Prop where
  keywords : readAll Keyword.ofElement ctx v (holder.ownChildren "keyword") = .ok c.keywords
  categories : readAll Category.ofElement ctx v (holder.ownChildren "category") = .ok c.categories
  metrics : readAll ProductionMetric.ofElement ctx v (holder.ownChildren "productionMetric") =
    .ok c.productionMetrics
  actors : readAll NonStateActor.ofElement ctx v (holder.ownChildren "nonStateActor") =
    .ok c.nonStateActors

/-- The place of a subject coverage is that of the wrapper. -/
def singles (ctx : Context) (v : Version) (e : Element) (c : SubjectCoverage) : List Place :=
  Place.wrapper e v wrapper (c.ReadIn ctx v)

theorem singles_kept {c : SubjectCoverage} (h : ofElement ctx v e = .ok c) :
    ∀ p ∈ c.singles ctx v e, p.Kept := by
  simp only [ofElement, checked, bind_ok, within_ok, withinHolder_ok, check_ok, pure_ok,
    exists_unit, rules, demand_ok] at h
  obtain ⟨ks, hks, cs, hcs, ms, hms, as, has, s, -, ⟨-, hm, -⟩, rfl⟩ := h
  obtain ⟨holder, hm⟩ := Option.isSome_iff_exists.1 hm
  rw [hm, Option.getD_some] at hks hcs hms has
  exact Place.wrapper_kept hm ⟨hks, hcs, hms, has⟩

end SubjectCoverage

namespace GeographicIdentifier

/-- The places of a geographic identifier. -/
def singles (ctx : Context) (v : Version) (e : Element) (c : GeographicIdentifier) : List Place :=
  [.part true (AreaCode.ofElement .country ctx v) c.countryCode (e.ownChildren "countryCode"),
   .part true (AreaCode.ofElement .subDivision ctx v) c.subDivisionCode
     (e.ownChildren "subDivisionCode"),
   .part true (FacilityIdentifier.ofElement ctx v) c.facilityIdentifier
     (e.ownChildren "facilityIdentifier")]

theorem singles_kept {c : GeographicIdentifier} (h : ofElement ctx v e = .ok c) :
    ∀ p ∈ c.singles ctx v e, p.Kept := by
  simp only [ofElement, checked, bind_ok, within_ok, check_ok, pure_ok, exists_unit, rules, forM_ok,
    List.forall_mem_cons] at h
  obtain ⟨country, hcountry, division, hdivision, facility, hfacility,
    ⟨-, -, ⟨hcountries, hdivisions, hfacilities, -⟩, -⟩, rfl⟩ := h
  simp only [singles, List.forall_mem_cons]
  exact ⟨Place.part_kept hcountry fun _ => le_of_requireChildren hcountries,
    Place.part_kept hdivision fun _ => le_of_requireChildren hdivisions,
    Place.part_kept hfacility fun _ => le_of_requireChildren hfacilities, by simp⟩

end GeographicIdentifier

namespace GeospatialCoverage

/-- The places in the element that holds the content. -/
def content (ctx : Context) (v : Version) (c : GeospatialCoverage) (holder : Element) :
    List Place :=
  [.part true (GeographicIdentifier.ofElement ctx v) c.extents.geographicIdentifier
     (holder.ownChildren "geographicIdentifier"),
   .part true (BoundingBox.ofElement ctx v) c.extents.boundingBox
     (holder.ownChildren "boundingBox"),
   .part true (BoundingGeometry.ofElement ctx v) c.extents.boundingGeometry
     (holder.ownChildren "boundingGeometry"),
   .part true (PostalAddress.ofElement ctx v) c.extents.postalAddress
     (holder.ownChildren "postalAddress"),
   .part true (VerticalExtent.ofElement ctx v) c.extents.verticalExtent
     (holder.ownChildren "verticalExtent")]

/-- The places of a geospatial coverage. -/
def singles (ctx : Context) (v : Version) (e : Element) (c : GeospatialCoverage) : List Place :=
  Place.held e v wrapper (c.content ctx v)

theorem singles_kept {c : GeospatialCoverage} (h : ofElement ctx v e = .ok c) :
    ∀ p ∈ c.singles ctx v e, p.Kept := by
  simp only [ofElement, checked, bind_ok, within_ok, check_ok, pure_ok, exists_unit, rules] at h
  obtain ⟨extents, hextents, order, -, s, -, ⟨-, hrules⟩, rfl⟩ := h
  cases hm : e.holder? v wrapper with
  | none =>
    rw [hm] at hrules
    exact (throw_ok.1 hrules).elim
  | some holder =>
    simp only [hm, withinHolder_ok, GeospatialExtents.ofElement, bind_ok, pure_ok, exists_unit,
      GeospatialExtents.names, forM_ok, List.forall_mem_cons] at hextents hrules
    obtain ⟨identifier, hidentifier, box, hbox, geometry, hgeometry, address, haddress, vertical,
      hvertical, rfl⟩ := hextents
    obtain ⟨⟨hidentifiers, hboxes, hgeometries, haddresses, hverticals, -⟩, -⟩ := hrules
    apply Place.held_kept hm
    simp only [content, List.forall_mem_cons]
    exact ⟨Place.part_kept hidentifier fun _ => le_of_requireChildren hidentifiers,
      Place.part_kept hbox fun _ => le_of_requireChildren hboxes,
      Place.part_kept hgeometry fun _ => le_of_requireChildren hgeometries,
      Place.part_kept haddress fun _ => le_of_requireChildren haddresses,
      Place.part_kept hvertical fun _ => le_of_requireChildren hverticals, by simp⟩

end GeospatialCoverage

namespace Point

/-- The place of a point. -/
def singles (ctx : Context) (v : Version) (e : Element) (c : Point) : List Place :=
  [.part false (Position.ofElement ctx v) c.position (e.ownChildren "pos")]

theorem singles_kept {c : Point} (h : ofElement ctx v e = .ok c) :
    ∀ p ∈ c.singles ctx v e, p.Kept := by
  simp only [ofElement, checked, bind_ok, within_ok, check_ok, pure_ok, exists_unit] at h
  obtain ⟨position, hposition, srs, -, -, rfl⟩ := h
  rw [singles, List.forall_mem_singleton]
  exact Place.part_kept hposition Place.uncounted

end Point

end Coverages

namespace Part

/-- The part is read from the element; for those kinds whose places are listed here. -/
def ReadFrom (ctx : Context) (v : Version) (e : Element) : Part → Prop
  | format c => Format.ofElement ctx v e = .ok c
  | person c => Person.ofElement ctx v e = .ok c
  | recordKeeper c => RecordKeeper.ofElement ctx v e = .ok c
  | taskingInfo c => TaskingInfo.ofElement ctx v e = .ok c
  | producerRole c => ProducerRole.ofElement ctx v e = .ok c
  | taskingRole c => TaskingRole.ofElement ctx v e = .ok c
  | accessEntity c => AccessEntity.ofElement ctx v e = .ok c
  | approximableDate c => ApproximableDate.ofElement ctx v e = .ok c
  | temporalCoverage c => TemporalCoverage.ofElement ctx v e = .ok c
  | subjectCoverage c => SubjectCoverage.ofElement ctx v e = .ok c
  | geographicIdentifier c => GeographicIdentifier.ofElement ctx v e = .ok c
  | geospatialCoverage c => GeospatialCoverage.ofElement ctx v e = .ok c
  | point c => Point.ofElement ctx v e = .ok c
  | _ => False

/-- The places of a part with room for one, when it is read from the element. -/
def singles (ctx : Context) (v : Version) (e : Element) : Part → List Place
  | format c => c.singles ctx v e
  | person c => c.singles e
  | recordKeeper c => c.singles ctx v e
  | taskingInfo c => c.singles ctx v e
  | producerRole c => c.singles ctx v e
  | taskingRole c => c.singles ctx v e
  | accessEntity c => c.singles ctx v e
  | approximableDate c => c.singles e
  | temporalCoverage c => c.singles ctx v e
  | subjectCoverage c => c.singles ctx v e
  | geographicIdentifier c => c.singles ctx v e
  | geospatialCoverage c => c.singles ctx v e
  | point c => c.singles ctx v e
  | _ => []

/-- Every place shows the first of its children. -/
theorem places_kept {p : Part} (h : p.ReadFrom ctx v e) : ∀ s ∈ p.singles ctx v e, s.Kept := by
  cases p with
  | format c => exact Format.singles_kept h
  | person c => exact Person.singles_kept h
  | recordKeeper c => exact RecordKeeper.singles_kept h
  | taskingInfo c => exact TaskingInfo.singles_kept h
  | producerRole c => exact ProducerRole.singles_kept h
  | taskingRole c => exact TaskingRole.singles_kept h
  | accessEntity c => exact AccessEntity.singles_kept h
  | approximableDate c => exact ApproximableDate.singles_kept h
  | temporalCoverage c => exact TemporalCoverage.singles_kept h
  | subjectCoverage c => exact SubjectCoverage.singles_kept h
  | geographicIdentifier c => exact GeographicIdentifier.singles_kept h
  | geospatialCoverage c => exact GeospatialCoverage.singles_kept h
  | point c => exact Point.singles_kept h
  | _ => exact h.elim

/-- A part that is read shows the first child of each place, and has no other one in a place that
the rules count. It shows all children of all places exactly if there is at most one in each of the
others. -/
theorem singles_shown {p : Part} (h : p.ReadFrom ctx v e) :
    (∀ s ∈ p.singles ctx v e, s.Shows s.found.head? ∧
      (s.counted = true → s.Whole ∧ s.found.length ≤ 1)) ∧
    ((∀ s ∈ p.singles ctx v e, s.Whole) ↔
      ∀ s ∈ p.singles ctx v e, s.counted = false → s.found.length ≤ 1) := by
  have hkept := places_kept h
  refine ⟨?_, ?_, ?_⟩
  · intro s hs
    have hone := (hkept s hs).once
    exact ⟨(hkept s hs).first, fun hc => ⟨(hkept s hs).whole_iff.2 (hone hc), hone hc⟩⟩
  · intro hwhole s hs _
    exact (hkept s hs).whole_iff.1 (hwhole s hs)
  · intro hothers s hs
    apply (hkept s hs).whole_iff.2
    cases hc : s.counted with
    | true => exact (hkept s hs).once hc
    | false => exact hothers s hs hc

/-- The element of a record keeper with some identifiers. -/
def keeping (ids : List String) : Element :=
  let ctx : Context := {}
  (ctx.ddmsElement .v5_0 "recordKeeper").add (ids.map (ctx.textElement .v5_0 "recordKeeperID") ++
    [(ctx.ddmsElement .v5_0 "organization").add [ctx.textElement .v5_0 "name" "Office"]])

/-- Of two identifiers the first is shown. -/
theorem keeping_read : ∃ c, RecordKeeper.ofElement {} .v5_0 (keeping ["#1", "#2"]) = .ok c ∧
    c.recordKeeperId = "#1" := by
  have hread : (RecordKeeper.ofElement {} .v5_0 (keeping ["#1", "#2"])).toOption.map
      (·.recordKeeperId) = some "#1" := by decide +kernel
  obtain ⟨c, hc, hid⟩ := Option.map_eq_some_iff.1 hread
  exact ⟨c, toOption_ok.1 hc, hid⟩

theorem singles_shown_keeping :
    ∃ c, (recordKeeper c).ReadFrom {} .v5_0 (keeping ["#1", "#2"]) ∧
      ((∀ s ∈ (recordKeeper c).singles {} .v5_0 (keeping ["#1", "#2"]), s.Whole) ↔
        ∀ s ∈ (recordKeeper c).singles {} .v5_0 (keeping ["#1", "#2"]),
          s.counted = false → s.found.length ≤ 1) := by
  obtain ⟨c, hc, -⟩ := keeping_read
  have hread : (recordKeeper c).ReadFrom {} .v5_0 (keeping ["#1", "#2"]) := hc
  exact ⟨c, hread, (singles_shown hread).2⟩

/-- The second identifier is dropped. -/
theorem identifier_dropped :
    ∃ c, (recordKeeper c).ReadFrom {} .v5_0 (keeping ["#1", "#2"]) ∧ c.recordKeeperId = "#1" ∧
      ∃ s ∈ (recordKeeper c).singles {} .v5_0 (keeping ["#1", "#2"]),
        s.found.map (·.content) = ["#1", "#2"] ∧ ¬s.Whole := by
  obtain ⟨c, hc, hid⟩ := keeping_read
  have htwo : ((keeping ["#1", "#2"]).ownChildren "recordKeeperID").map (·.content) =
      ["#1", "#2"] := by decide +kernel
  refine ⟨c, hc, hid, _, List.mem_cons_self, htwo, ?_⟩
  rintro ⟨o, ho, -⟩
  have hlength : o.toList.length = 2 := by
    have := congrArg List.length htwo
    rw [List.length_map] at this
    rw [← ho]
    exact this
  cases o <;> simp at hlength

end Part

end DiscoveryMetadata
