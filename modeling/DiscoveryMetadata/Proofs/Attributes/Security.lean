import DiscoveryMetadata.Proofs.Elements
import DiscoveryMetadata.Proofs.Outcome
/-
  Security attributes from a draft, on an element, and as a draft again.

  A group holds the values that were found under the names of the definitions. Looking up a name in
  the group finds again what was found for it (`lookup_collect`), whether the group is looked at
  itself, as a draft (`lastValue_collect`) or on the element that it was put on. So a group that
  was made is made again from its own draft (`commitAs_toDraft`), and read again from its element
  (`ofElement_addTo`).

  The attributes of any element can also be set, as names and values (`marks`). That is the same as
  reading them unless one of them is empty or stands there twice (`ofElement_ofValues`).
-/
namespace DiscoveryMetadata.SecurityAttributes

open Xml (Element)

/-- The names of the definitions, each with the value found for it. -/
def pairsOf (find : String → Option String) (names : List String) : List (String × String) :=
  names.filterMap fun name => (find name).map fun value => (name, value)

section Pairs

variable {find : String → Option String} {names : List String} {name value : String}

theorem collect_eq (find : String → Option String) :
    collect find = pairsOf find SecurityAttributes.names := by
  rw [pairsOf, SecurityAttributes.names, List.filterMap_map]
  rfl

theorem mem_pairsOf :
    (name, value) ∈ pairsOf find names ↔ name ∈ names ∧ find name = some value := by
  simp only [pairsOf, List.mem_filterMap, Option.map_eq_some_iff, Prod.mk.injEq]
  constructor
  · rintro ⟨n, hn, x, hx, rfl, rfl⟩
    exact ⟨hn, hx⟩
  · rintro ⟨hn, hx⟩
    exact ⟨name, hn, value, hx, rfl, rfl⟩

theorem pairsOf_cons : pairsOf find (name :: names) =
    ((find name).map fun value => (name, value)).toList ++ pairsOf find names := by
  rw [pairsOf, List.filterMap_cons]
  cases find name <;> rfl

theorem lookup_pairsOf : (pairsOf find names).lookup name =
    if name ∈ names then find name else none := by
  induction names with
  | nil => rfl
  | cons n r ih =>
    rw [pairsOf_cons]
    by_cases hn : name = n
    · subst hn
      cases hf : find name with
      | none => simp [ih, hf]
      | some value => simp
    · have hb : (name == n) = false := by simpa using hn
      cases find n <;> simp [List.lookup_cons, hb, hn, ih]

/-- The values that count under a name, of pairs that hold no empty value. -/
theorem filter_pairsOf (hn : names.Nodup) (hf : ∀ {n x}, find n = some x → x ≠ "") :
    (pairsOf find names).filter (fun (n, value) => n == name && !value.isEmpty) =
      if name ∈ names then ((find name).map fun value => (name, value)).toList else [] := by
  induction names with
  | nil => rfl
  | cons n r ih =>
    obtain ⟨hnr, hr⟩ := List.nodup_cons.1 hn
    rw [pairsOf_cons, List.filter_append, ih hr]
    by_cases hname : n = name
    · subst hname
      cases hx : find n with
      | none => simp
      | some x => simp [hnr, hf hx]
    · have hb : (n == name) = false := by simpa using hname
      cases find n <;> simp [hb, Ne.symm hname]

theorem lastValue_pairsOf (hn : names.Nodup) (hf : ∀ {n x}, find n = some x → x ≠ "") :
    lastValue (pairsOf find names) name = if name ∈ names then find name else none := by
  rw [lastValue, filter_pairsOf hn hf]
  split
  · cases find name <;> rfl
  · rfl

end Pairs

section Groups

variable {find : String → Option String} {name value : String} {ctx : Context} {v : Version}
  {a : SecurityAttributes} {d : Draft} {e : Element}

theorem names_nodup : names.Nodup := by decide

theorem lookup_collect (hn : name ∈ names) : (collect find).lookup name = find name := by
  rw [collect_eq, lookup_pairsOf, if_pos hn]

/-- A value that counts is not empty. -/
theorem lastValue_ne {given : List (String × String)} (h : lastValue given name = some value) :
    value ≠ "" := by
  obtain ⟨p, hp, rfl⟩ := Option.map_eq_some_iff.1 h
  have hp := (List.mem_filter.1 (List.mem_of_getLast? hp)).2
  rintro he
  simp [he] at hp

/-- The group of a draft: the values that count, in the order of the definitions. -/
theorem commitAs_ok : d.commitAs ctx v = .ok a ↔
    (∀ p ∈ d.values, p.1 ∈ names) ∧ checked ctx v (collect (lastValue d.values)) = .ok a := by
  simp only [Draft.commitAs, ofValues, bind_ok, exists_unit, forM_ok, requireKnown, demand_ok,
    List.contains_eq_mem, decide_eq_true_eq]

theorem checked_ok {values : List (String × String)} :
    checked ctx v values = .ok a ↔ ∃ ws, check ctx v values = .ok ws ∧ a = ⟨v, values, ws⟩ := by
  simp only [checked, bind_ok, pure_ok]
  exact exists_congr fun _ => and_congr_right fun _ => eq_comm

/-- The version and the values of a group that was made. -/
theorem commitAs_eq (h : d.commitAs ctx v = .ok a) :
    a.version = v ∧ a.values = collect (lastValue d.values) := by
  obtain ⟨ws, -, rfl⟩ := checked_ok.1 (commitAs_ok.1 h).2
  exact ⟨rfl, rfl⟩

/-- The group was had from values that were found for the names, by reading or by setting them. -/
def Accepted (ctx : Context) (v : Version) (a : SecurityAttributes) : Prop :=
  ∃ find, checked ctx v (collect find) = .ok a

theorem accepted_of_commitAs (h : d.commitAs ctx v = .ok a) : a.Accepted ctx v :=
  ⟨_, (commitAs_ok.1 h).2⟩

theorem accepted_of_read (h : ofElement ctx v e = .ok a) : a.Accepted ctx v := ⟨_, h⟩

theorem Accepted.version_eq (h : a.Accepted ctx v) : a.version = v := by
  obtain ⟨find, hfind⟩ := h
  obtain ⟨ws, -, rfl⟩ := checked_ok.1 hfind
  rfl

theorem accepted_of_commit (h : d.commitAs ctx v = .ok a) : a.Accepted ctx a.version := by
  have haccepted := accepted_of_commitAs h
  rwa [haccepted.version_eq]

theorem collect_lastValue (given : List (String × String)) :
    collect (lastValue (collect (lastValue given))) = collect (lastValue given) := by
  simp only [collect_eq]
  refine List.filterMap_congr fun name hn => ?_
  rw [lastValue_pairsOf names_nodup lastValue_ne, if_pos hn]

/-- A group that was made is made again from its own draft. -/
theorem commitAs_toDraft (h : d.commitAs ctx v = .ok a) : a.toDraft.commitAs ctx v = .ok a := by
  obtain ⟨hv, hval⟩ := commitAs_eq h
  refine commitAs_ok.2 ⟨?_, ?_⟩
  · rintro ⟨name, value⟩ hp
    rw [toDraft, hval, collect_eq, mem_pairsOf] at hp
    exact hp.1
  · rw [toDraft, hval, collect_lastValue]
    exact (commitAs_ok.1 h).2

theorem toDraft_isEmpty (h : d.commitAs ctx v = .ok a) : a.toDraft.isEmpty = d.isEmpty := by
  obtain ⟨hv, hval⟩ := commitAs_eq h
  have hlast : ∀ name ∈ names, lastValue a.values name = lastValue d.values name := by
    intro name hn
    rw [hval, collect_eq, lastValue_pairsOf names_nodup lastValue_ne, if_pos hn]
  rw [Bool.eq_iff_iff]
  simp only [Draft.isEmpty, toDraft, List.all_eq_true, Prod.forall]
  constructor
  · intro ha name value hp
    have hn : name ∈ names := (commitAs_ok.1 h).1 _ hp
    cases hl : lastValue d.values name with
    | none => rfl
    | some x =>
      have hx : (name, x) ∈ a.values := by
        rw [hval, collect_eq, mem_pairsOf]
        exact ⟨hn, hl⟩
      simpa [hlast name hn, hl] using ha name x hx
  · intro hd name value hp
    rw [hval, collect_eq, mem_pairsOf] at hp
    rw [hlast name hp.1]
    obtain ⟨q, hq, -⟩ := Option.map_eq_some_iff.1 hp.2
    have hq := List.mem_filter.1 (List.mem_of_getLast? hq)
    obtain ⟨n, y⟩ := q
    have hn : n = name := by
      have := hq.2
      simp only [Bool.and_eq_true, beq_iff_eq] at this
      exact this.1
    exact hn ▸ hd n y hq.1

end Groups

section Elements

variable {ctx : Context} {v : Version} {a : SecurityAttributes} {d : Draft} {e e' : Element}

/-- An element with values set as attributes of the security markings. -/
def mark (ctx : Context) (v : Version) (values : List (String × String)) (e : Element) : Element :=
  values.foldl (fun e (name, value) => e.setAttribute (ctx.ismName v name) value) e

theorem addTo_ok : a.addTo ctx v e = .ok e' ↔ a.version = v ∧ e' = mark ctx v a.values e := by
  simp only [addTo, bind_ok, exists_unit, demand_ok, beq_iff_eq, pure_ok]
  exact and_congr_right fun _ => eq_comm

theorem mark_pairsOf {find : String → Option String} {name : String} {r : List String} :
    mark ctx v (pairsOf find (name :: r)) e = mark ctx v (pairsOf find r)
      ((find name).elim e fun value => e.setAttribute (ctx.ismName v name) value) := by
  rw [pairsOf_cons]
  cases find name <;> rfl

@[simp]
theorem name_mark (values : List (String × String)) : (mark ctx v values e).name = e.name := by
  induction values generalizing e with
  | nil => rfl
  | cons p r ih => exact ih

@[simp]
theorem children_mark (values : List (String × String)) :
    (mark ctx v values e).children = e.children := by
  induction values generalizing e with
  | nil => rfl
  | cons p r ih => exact ih

@[simp]
theorem text_mark (values : List (String × String)) : (mark ctx v values e).text = e.text := by
  induction values generalizing e with
  | nil => rfl
  | cons p r ih => exact ih

/-- Security attributes are not in the way of those of other namespaces. -/
theorem attribute?_mark {values : List (String × String)} {u : Option String} {l : String}
    (hu : u ≠ some v.ismUri) : (mark ctx v values e).attribute? u l = e.attribute? u l := by
  induction values generalizing e with
  | nil => rfl
  | cons p r ih =>
    calc (mark ctx v (p :: r) e).attribute? u l
        = (e.setAttribute (ctx.ismName v p.1) p.2).attribute? u l := ih
      _ = e.attribute? u l := by
        rw [Element.attribute?_setAttribute, if_neg fun h => hu h.2.symm]

@[simp]
theorem uri_mark (values : List (String × String)) : (mark ctx v values e).uri = e.uri := by
  simp [Element.uri]

@[simp]
theorem content_mark (values : List (String × String)) :
    (mark ctx v values e).content = e.content := by
  simp [Element.content]

theorem attributeText_mark {values : List (String × String)} {u l : String} (hu : u ≠ v.ismUri) :
    (mark ctx v values e).attributeText u l = e.attributeText u l := by
  unfold Element.attributeText
  rw [attribute?_mark fun h => hu (Option.some.inj h)]

theorem forall_name_mark {P : Xml.QName → Prop} {values : List (String × String)}
    (h : ∀ a ∈ e.attributes, P a.name) (hv : ∀ p ∈ values, P (ctx.ismName v p.1)) :
    ∀ a ∈ (mark ctx v values e).attributes, P a.name := by
  induction values generalizing e with
  | nil => exact h
  | cons p r ih =>
    obtain ⟨hp, hr⟩ := List.forall_mem_cons.1 hv
    exact ih (Element.forall_name_setAttribute h hp) hr

/-- The names of the values of a group are those of security attributes. -/
theorem Accepted.name_of_mem (h : a.Accepted ctx v) : ∀ p ∈ a.values, p.1 ∈ names := by
  obtain ⟨find, hfind⟩ := h
  obtain ⟨ws, -, rfl⟩ := checked_ok.1 hfind
  rintro ⟨name, value⟩ hp
  rw [collect_eq, mem_pairsOf] at hp
  exact hp.1

theorem name_of_mem_values (h : d.commitAs ctx v = .ok a) : ∀ p ∈ a.values, p.1 ∈ names :=
  (accepted_of_commitAs h).name_of_mem

theorem own_mark {values : List (String × String)} {l : String} (hu : e.uri = v.ddmsUri) :
    (mark ctx v values e).own l = e.own l := by
  rw [Element.own, uri_mark, Element.own, attributeText_mark (hu ▸ v.ddmsUri_ne_ismUri)]

theorem attribute?_mark_pairsOf {find : String → Option String} {names : List String}
    (hn : names.Nodup) {name : String} :
    (mark ctx v (pairsOf find names) e).attribute? (some v.ismUri) name =
      if name ∈ names then find name <|> e.attribute? (some v.ismUri) name
      else e.attribute? (some v.ismUri) name := by
  induction names generalizing e with
  | nil => rfl
  | cons n r ih =>
    obtain ⟨hnr, hr⟩ := List.nodup_cons.1 hn
    rw [mark_pairsOf, ih hr]
    by_cases hname : name = n
    · subst hname
      cases find name <;>
        simp [hnr, Element.attribute?_setAttribute, Context.ismName, Xml.QName.prefixed]
    · have hset : ∀ x, (e.setAttribute (ctx.ismName v n) x).attribute? (some v.ismUri) name =
          e.attribute? (some v.ismUri) name := by
        intro x
        rw [Element.attribute?_setAttribute, if_neg fun h => hname h.1.symm]
      cases find n <;> simp [hname, hset]

/-- A group is not in the way of other attributes of its namespace. -/
theorem Accepted.attribute?_mark (h : a.Accepted ctx v) {l : String} (hl : l ∉ names) :
    (mark ctx v a.values e).attribute? (some v.ismUri) l = e.attribute? (some v.ismUri) l := by
  obtain ⟨find, hfind⟩ := h
  obtain ⟨ws, -, rfl⟩ := checked_ok.1 hfind
  rw [collect_eq, attribute?_mark_pairsOf names_nodup, if_neg hl]

theorem attribute?_mark_other (h : d.commitAs ctx v = .ok a) {l : String} (hl : l ∉ names) :
    (mark ctx v a.values e).attribute? (some v.ismUri) l = e.attribute? (some v.ismUri) l :=
  (accepted_of_commitAs h).attribute?_mark hl

/-- A group that was put on an element without security attributes is read from it again. -/
theorem Accepted.ofElement_mark (h : a.Accepted ctx v)
    (hno : ∀ name ∈ names, e.attribute? (some v.ismUri) name = none) :
    ofElement ctx v (mark ctx v a.values e) = .ok a := by
  obtain ⟨find, hfind⟩ := h
  obtain ⟨ws, -, rfl⟩ := checked_ok.1 hfind
  have hread : collect (fun name =>
      (mark ctx v (collect find) e).attribute? (some v.ismUri) name) = collect find := by
    simp only [collect_eq]
    refine List.filterMap_congr fun name hn => ?_
    simp only [attribute?_mark_pairsOf names_nodup, if_pos hn, hno name hn]
    cases find name <;> rfl
  rw [ofElement, hread]
  exact hfind

theorem Accepted.ofElement_addTo (h : a.Accepted ctx a.version) (he : a.addTo ctx v e = .ok e')
    (hno : ∀ name ∈ names, e.attribute? (some v.ismUri) name = none) :
    ofElement ctx v e' = .ok a := by
  obtain ⟨rfl, rfl⟩ := addTo_ok.1 he
  exact h.ofElement_mark hno

theorem ofElement_addTo (h : d.commitAs ctx v = .ok a) (he : a.addTo ctx v e = .ok e')
    (hno : ∀ name ∈ names, e.attribute? (some v.ismUri) name = none) :
    ofElement ctx v e' = .ok a :=
  (accepted_of_commit h).ofElement_addTo he hno

end Elements

section Setting

/-- The security attributes of an element as names and values, such as a group is made of. -/
def marks (v : Version) (e : Element) : List (String × String) :=
  (e.attributes.filter fun a => a.name.uri == some v.ismUri && names.contains a.name.localName).map
    fun a => (a.name.localName, a.value)

variable {ctx : Context} {v : Version} {e : Element} {a b : SecurityAttributes}
  {given : List (String × String)} {find : String → Option String} {name : String}

theorem name_of_mem_marks {p : String × String} (h : p ∈ marks v e) : p.1 ∈ names := by
  obtain ⟨a, ha, rfl⟩ := List.mem_map.1 h
  have ha := (List.mem_filter.1 ha).2
  simp only [List.contains_eq_mem, Bool.and_eq_true, decide_eq_true_eq] at ha
  exact ha.2

/-- Reading takes the first attribute of a name. -/
theorem lookup_marks (hn : name ∈ names) :
    (marks v e).lookup name = e.attribute? (some v.ismUri) name := by
  unfold marks Element.attribute?
  induction e.attributes with
  | nil => rfl
  | cons a r ih =>
    by_cases ha : a.name.localName = name ∧ a.name.uri = some v.ismUri
    · obtain ⟨hl, hu⟩ := ha
      subst hl
      simp [hu, hn]
    · have hfind : (a.name.localName == name && a.name.uri == some v.ismUri) = false := by
        rw [← Bool.not_eq_true, Bool.and_eq_true, beq_iff_eq, beq_iff_eq]
        exact ha
      rw [List.find?_cons_of_neg (by simp [hfind]), ← ih, List.filter_cons]
      split
      · rename_i hmark
        have hne : name ≠ a.name.localName := by
          rintro rfl
          simp only [Bool.and_eq_true, beq_iff_eq] at hmark
          exact ha ⟨rfl, hmark.1⟩
        rw [List.map_cons, List.lookup_cons, beq_eq_false_iff_ne.2 hne]
      · rfl

/-- Of the values of a name the last counts that is not empty; if there is but one, that one. -/
theorem lastValue_of_nodup (h : (given.map (·.1)).Nodup) :
    lastValue given name = (given.lookup name).filter (· ≠ "") := by
  induction given with
  | nil => rfl
  | cons p r ih =>
    obtain ⟨n, x⟩ := p
    obtain ⟨hn, hr⟩ := List.nodup_cons.1 h
    by_cases hname : name = n
    · subst hname
      -- none of the others has the name
      have hnone : r.filter (fun (n, value) => n == name && !value.isEmpty) = [] := by
        rw [List.filter_eq_nil_iff]
        rintro ⟨m, y⟩ hy hm
        simp only [Bool.and_eq_true, beq_iff_eq] at hm
        exact hn (List.mem_map.2 ⟨_, hy, hm.1⟩)
      rw [lastValue, List.filter_cons, hnone]
      by_cases hx : x = "" <;> simp [hx, Option.filter_some]
    · have hb : (n == name) = false := beq_eq_false_iff_ne.2 (Ne.symm hname)
      have hb' : (name == n) = false := beq_eq_false_iff_ne.2 hname
      rw [List.lookup_cons, hb', ← ih hr, lastValue, lastValue, List.filter_cons]
      simp [hb]

theorem ofValues_marks :
    ofValues ctx v (marks v e) = checked ctx v (collect (lastValue (marks v e))) := by
  have hknown : (marks v e).forM (fun (name, _) => requireKnown name) = (.ok () : Outcome PUnit) := by
    rw [forM_ok]
    intro p hp
    simp [requireKnown, demand_ok, name_of_mem_marks hp]
  rw [ofValues, hknown]
  rfl

theorem ofElement_marks :
    ofElement ctx v e = checked ctx v (collect fun name => (marks v e).lookup name) := by
  have hread : collect (fun name => e.attribute? (some v.ismUri) name) =
      collect fun name => (marks v e).lookup name := by
    simp only [collect_eq]
    exact List.filterMap_congr fun name hn => congrArg _ (lookup_marks hn).symm
  rw [ofElement, hread]

/-- A group can be had if each value that was found passes the check of its definition. -/
theorem checked_succeeds : (∃ a, checked ctx v (collect find) = .ok a) ↔
    ∀ d ∈ definitions, ∀ x, find d.name = some x → ∃ ws, d.check ctx v x = .ok ws := by
  rw [checked, bind_succeeds, check, bind_succeeds, mapM_succeeds]
  refine forall₂_congr fun d hd => ?_
  rw [lookup_collect (List.mem_map_of_mem hd)]
  cases find d.name with
  | none => simp
  | some x => simp

theorem values_of_checked (h : checked ctx v (collect find) = .ok a) : a.values = collect find := by
  obtain ⟨ws, -, rfl⟩ := checked_ok.1 h
  rfl

theorem collect_inj {find' : String → Option String} :
    collect find = collect find' ↔ ∀ name ∈ names, find name = find' name := by
  constructor
  · intro h name hn
    have hlookup : (collect find).lookup name = (collect find').lookup name := by rw [h]
    rwa [lookup_collect hn, lookup_collect hn] at hlookup
  · intro h
    simp only [collect_eq]
    exact List.filterMap_congr fun name hn => congrArg _ (h name hn)

theorem collect_filter :
    collect (fun name => (find name).filter (· ≠ "")) = (collect find).filter (·.2 ≠ "") := by
  rw [collect, collect, List.filter_filterMap]
  congr
  funext d
  cases find d.name with
  | none => rfl
  | some x => by_cases hx : x = "" <;> simp [hx, Option.filter_some]

/-- Reading the attributes of an element and setting their values are the same if no attribute is
there twice and none is empty. Empty ones are read, and checked, but not set. Of two attributes with
one name the first is read and the last that is not empty is set. -/
theorem ofElement_ofValues (ctx : Context) (v : Version) (e : Element) :
    (((marks v e).map (·.1)).Nodup →
      ((∀ p ∈ marks v e, p.2 ≠ "") → ofElement ctx v e = ofValues ctx v (marks v e)) ∧
      ((∃ a, ofElement ctx v e = .ok a) ↔ (∃ b, ofValues ctx v (marks v e) = .ok b) ∧
        ∀ d ∈ definitions, (marks v e).lookup d.name = some "" →
          ∃ ws, d.check ctx v "" = .ok ws) ∧
      ∀ a b, ofElement ctx v e = .ok a → ofValues ctx v (marks v e) = .ok b →
        b.values = a.values.filter (·.2 ≠ "")) ∧
    ∀ a b, ofElement ctx v e = .ok a → ofValues ctx v (marks v e) = .ok b →
      ((a == b) = true ↔
        ∀ name ∈ names, e.attribute? (some v.ismUri) name = lastValue (marks v e) name) := by
  rw [ofElement_marks, ofValues_marks]
  refine ⟨fun hdistinct => ?_, fun a b ha hb => ?_⟩
  · have hlast : lastValue (marks v e) =
        fun name => ((marks v e).lookup name).filter (· ≠ "") :=
      funext fun name => lastValue_of_nodup hdistinct
    rw [hlast]
    refine ⟨fun hfull => ?_, ?_, fun a b ha hb => ?_⟩
    · -- there is nothing to leave out
      congr 1
      rw [collect_inj]
      intro name hn
      cases hx : (marks v e).lookup name with
      | none => rfl
      | some x =>
        obtain ⟨before, after, hmarks, -⟩ := List.lookup_eq_some_iff.1 hx
        have hmem : (name, x) ∈ marks v e := by simp [hmarks]
        rw [Option.filter_some, if_pos (by simpa using hfull _ hmem)]
    · -- a value is either set as well, or empty
      rw [checked_succeeds, checked_succeeds, ← forall₂_and]
      refine forall₂_congr fun d hd => ?_
      cases (marks v e).lookup d.name with
      | none => simp
      | some x => by_cases hx : x = "" <;> simp [hx, Option.filter_some]
    · rw [values_of_checked ha, values_of_checked hb, collect_filter]
  · show (a.values == b.values) = true ↔ _
    rw [beq_iff_eq, values_of_checked ha, values_of_checked hb, collect_inj]
    exact forall₂_congr fun name hn => by rw [lookup_marks hn]

/-- A title with attributes of the security markings under two prefixes. -/
def titled (values again : List (String × String)) : Element :=
  let ctx : Context := {}
  { ctx.textElement .v5_0 "title" "Title" with
    attributes := values.map (fun (n, x) => ⟨ctx.ismName .v5_0 n, x⟩) ++
      again.map fun (n, x) => ⟨.prefixed "i" Version.v5_0.ismUri n, x⟩ }

theorem ofElement_ofValues_classified :
    ofElement {} .v5_0 (titled [("classification", "U"), ("ownerProducer", "USA")] []) =
      ofValues {} .v5_0 [("classification", "U"), ("ownerProducer", "USA")] := by
  have hmarks : marks .v5_0 (titled [("classification", "U"), ("ownerProducer", "USA")] []) =
      [("classification", "U"), ("ownerProducer", "USA")] := by decide +kernel
  have h := (ofElement_ofValues {} .v5_0
    (titled [("classification", "U"), ("ownerProducer", "USA")] [])).1 (by rw [hmarks]; decide)
  rw [h.1 (by rw [hmarks]; simp), hmarks]

/-- An empty author is read and not set, an empty classification is refused and not set, and of two
classifications the first is read and the second is set. -/
theorem read_not_set :
    ((ofElement {} .v5_0 (titled [("classifiedBy", "")] [])).toOption.map (·.isEmpty) = some false ∧
      (ofValues {} .v5_0 (marks .v5_0 (titled [("classifiedBy", "")] []))).toOption.map (·.isEmpty) =
        some true) ∧
    ((ofElement {} .v5_0 (titled [("classification", "")] [])).toOption.isSome = false ∧
      (ofValues {} .v5_0 (marks .v5_0 (titled [("classification", "")] []))).toOption.isSome =
        true) ∧
    (ofElement {} .v5_0 (titled [("classification", "U")] [("classification", "S")])).toOption.map
        (·.values) = some [("classification", "U")] ∧
      (ofValues {} .v5_0 (marks .v5_0
        (titled [("classification", "U")] [("classification", "S")]))).toOption.map (·.values) =
          some [("classification", "S")] := by
  decide +kernel

end Setting
end DiscoveryMetadata.SecurityAttributes
