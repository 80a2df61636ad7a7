import DiscoveryMetadata.Proofs.Returning.Protection
/-
  Which entries of need-to-know rules are kept.

  The individuals, the groups and the profiles stand in lists inside the element of the rules. Of
  the lists of one kind the first is read and each of its entries kept, in order
  (`entities_kept`). Nothing asks how many lists there are, so the entries of further lists are
  not among those of the component.
-/
namespace DiscoveryMetadata

open Xml (Element)

variable {ctx : Context} {v : Version} {e : Element}

namespace AccessEntity

/-- An entity keeps its element, which has the name of its kind. -/
theorem ofElement_element {c : AccessEntity} (h : ofElement ctx v e = .ok c) :
    c.element = e ∧ e.name.isNamed Version.ntkUri c.kind.name = true := by
  unfold ofElement at h
  split at h
  · exact (error_ok.1 (within_ok.1 h)).elim
  · simp only [checked, bind_ok, within_ok, check_ok, pure_ok, exists_unit, rules, requireIn,
      demand_ok] at h
    obtain ⟨u, hu, s, hs, ts, hts, a, ha, ⟨⟨w, hw, hname⟩, -⟩, rfl⟩ := h
    rw [Version.uriOf] at hw
    split at hw
    · rw [← Except.ok.inj hw] at hname
      exact ⟨rfl, hname⟩
    · cases hw

theorem element_of_readAll {es : List Element} {cs : List AccessEntity}
    (h : List.Forall₂ (fun e c => ofElement ctx v e = .ok c) es cs) : cs.map (·.element) = es := by
  induction h with
  | nil => rfl
  | cons hc _ ih => rw [List.map_cons, ih, (ofElement_element hc).1]

/-- If all entities that were read have one kind, then all elements have its name. -/
theorem named_of_readAll {k : Kind} {es : List Element} {cs : List AccessEntity}
    (h : List.Forall₂ (fun e c => ofElement ctx v e = .ok c) es cs) (hk : ∀ c ∈ cs, c.kind = k) :
    ∀ e ∈ es, e.name.isNamed Version.ntkUri k.name = true := by
  induction h with
  | nil => simp
  | cons hc _ ih =>
    rw [List.forall_mem_cons] at hk
    rw [List.forall_mem_cons]
    refine ⟨?_, ih hk.2⟩
    rw [← hk.1]
    exact (ofElement_element hc).2

end AccessEntity

namespace Access

open AccessEntity (Kind)

/-- The local name of the lists of a kind. -/
def listName : Kind → String
  | .individual => individualList
  | .group => groupList
  | .profile => ProfileList.name

/-- The entities of a kind that the rules hold. -/
def entities (c : Access) : Kind → List AccessEntity
  | .individual => c.individuals
  | .group => c.groups
  | .profile => (c.profileList.map (·.profiles)).getD []

/-- The lists of a kind inside an element. -/
def lists (e : Element) (k : Kind) : List Element := e.childrenNamed Version.ntkUri (listName k)

/-- The entries of a kind in some lists, in document order. -/
def entriesIn (lists : List Element) (k : Kind) : List Element :=
  lists.flatMap (·.childrenNamed Version.ntkUri k.name)

theorem take_lists (e : Element) (k : Kind) :
    (lists e k).take 1 = (e.child? Version.ntkUri (listName k)).toList := by
  rw [Element.child?_eq, List.take_one]
  rfl

theorem entriesOf_ok {list : Option Element} {cs : List AccessEntity} :
    entriesOf ctx v list = .ok cs ↔
      List.Forall₂ (fun e c => AccessEntity.ofElement ctx v e = .ok c)
        (list.toList.flatMap (·.children)) cs := by
  cases list with
  | none => simp [entriesOf, eq_comm]
  | some list => simp [entriesOf, readAll_ok]

/-- In a list whose entities all have one kind, every child is an entry of that kind. -/
theorem entriesIn_eq_children {k : Kind} {list : Option Element} {cs : List AccessEntity}
    (h : entriesOf ctx v list = .ok cs) (hk : ∀ c ∈ cs, c.kind = k) :
    entriesIn list.toList k = list.toList.flatMap (·.children) := by
  have hnamed := AccessEntity.named_of_readAll (entriesOf_ok.1 h) hk
  cases list with
  | none => rfl
  | some list =>
    rw [Option.toList_some, List.flatMap_singleton] at hnamed
    rw [entriesIn, Option.toList_some, List.flatMap_singleton, List.flatMap_singleton]
    exact List.filter_eq_self.2 hnamed

/-- The profiles of the list are its entries. -/
theorem profiles_ok {list : Option Element} {o : Option ProfileList}
    (h : readOption ProfileList.ofElement ctx v list = .ok o) :
    List.Forall₂ (fun e c => AccessEntity.ofElement ctx v e = .ok c)
      (entriesIn list.toList .profile) ((o.map (·.profiles)).getD []) := by
  cases readOption_ok.1 h with
  | none => exact .nil
  | some hc =>
    simp only [ProfileList.ofElement, ProfileList.checked, bind_ok, within_ok, check_ok, pure_ok,
      exists_unit] at hc
    obtain ⟨u, hu, ps, hps, a, -, -, rfl⟩ := hc
    obtain rfl := Ntk.uriFor_eq hu
    rw [entriesIn, Option.toList_some, List.flatMap_singleton]
    exact readAll_ok.1 hps

/-- The entities of each kind are read from the entries of the first list of that kind. -/
theorem entities_ok {c : Access} (h : ofElement ctx v e = .ok c) (k : Kind) :
    List.Forall₂ (fun e a => AccessEntity.ofElement ctx v e = .ok a)
      (entriesIn ((lists e k).take 1) k) (c.entities k) := by
  simp only [ofElement, checked, bind_ok, within_ok, check_ok, pure_ok, exists_unit, rules, forM_ok,
    checkEntry, demand_ok, decide_eq_true_eq] at h
  obtain ⟨u, hu, is, his, gs, hgs, ps, hps, a, -, ⟨-, hik, hgk, -⟩, rfl⟩ := h
  obtain rfl := Ntk.uriFor_eq hu
  rw [take_lists]
  cases k with
  | individual =>
    show List.Forall₂ _ (entriesIn (e.child? Version.ntkUri individualList).toList _) is
    rw [entriesIn_eq_children his fun c hc => (hik c hc).1]
    exact entriesOf_ok.1 his
  | group =>
    show List.Forall₂ _ (entriesIn (e.child? Version.ntkUri groupList).toList _) gs
    rw [entriesIn_eq_children hgs fun c hc => (hgk c hc).1]
    exact entriesOf_ok.1 hgs
  | profile => exact profiles_ok hps

theorem entriesIn_append (ls ms : List Element) (k : Kind) :
    entriesIn (ls ++ ms) k = entriesIn ls k ++ entriesIn ms k :=
  List.flatMap_append

/-- Need-to-know rules hold the entries of the first list of each kind, all of them and in order.
They hold all entries of all lists exactly if the further lists have none. -/
theorem entities_kept {c : Access} (h : ofElement ctx v e = .ok c) (k : Kind) :
    List.Forall₂ (fun e a => AccessEntity.ofElement ctx v e = .ok a)
      (entriesIn ((lists e k).take 1) k) (c.entities k) ∧
    (c.entities k).map (·.element) = entriesIn ((lists e k).take 1) k ∧
    ((c.entities k).map (·.element) = entriesIn (lists e k) k ↔
      entriesIn ((lists e k).drop 1) k = []) := by
  have hread := entities_ok h k
  have hkept := AccessEntity.element_of_readAll hread
  refine ⟨hread, hkept, ?_⟩
  have hall : entriesIn (lists e k) k =
      entriesIn ((lists e k).take 1) k ++ entriesIn ((lists e k).drop 1) k := by
    rw [← entriesIn_append, List.take_append_drop]
  rw [hkept, hall]
  exact List.self_eq_append_right

/-- The element of need-to-know rules, with a list for each of some individuals. -/
def listing (values : List String) : Element :=
  let ctx : Context := {}
  let ntk : String → Element := fun name => { name := ctx.ntkName name }
  let marked := fun (e : Element) => (e.put (ctx.ismName .v5_0 "classification") "U").put
    (ctx.ismName .v5_0 "ownerProducer") "USA"
  let individual := fun value => marked ((ntk "AccessIndividual").add
    [marked ((ntk "AccessSystemName").withText "DIAS"),
     marked ((ntk "AccessIndividualValue").withText value)])
  marked ((ntk "Access").add
    (values.map fun value => (ntk individualList).add [individual value]))

/-- The values by which the individual of an element is known. -/
def valuesIn (e : Element) : List String := e.childTexts Version.ntkUri "AccessIndividualValue"

/-- Of two lists with an individual each, the first individual is held. -/
theorem listing_read : ∃ c, ofElement {} .v5_0 (listing ["doe", "roe"]) = .ok c ∧
    c.individuals.map (fun a => valuesIn a.element) = [["doe"]] := by
  have hread : (ofElement {} .v5_0 (listing ["doe", "roe"])).toOption.map
      (fun c => c.individuals.map fun a => valuesIn a.element) = some [["doe"]] := by
    decide +kernel
  obtain ⟨c, hc, hvalues⟩ := Option.map_eq_some_iff.1 hread
  exact ⟨c, toOption_ok.1 hc, hvalues⟩

theorem entities_kept_listed :
    ∃ c, ofElement {} .v5_0 (listing ["doe", "roe"]) = .ok c ∧
      (c.entities .individual).map (·.element) =
        entriesIn ((lists (listing ["doe", "roe"]) .individual).take 1) .individual := by
  obtain ⟨c, hc, -⟩ := listing_read
  exact ⟨c, hc, (entities_kept hc .individual).2.1⟩

/-- The individual of the second list is not held. -/
theorem individual_dropped :
    ∃ c, ofElement {} .v5_0 (listing ["doe", "roe"]) = .ok c ∧
      ∃ entry ∈ entriesIn (lists (listing ["doe", "roe"]) .individual) .individual,
        ∀ a ∈ c.individuals, a.element ≠ entry := by
  obtain ⟨c, hc, hvalues⟩ := listing_read
  have hentries : (entriesIn (lists (listing ["doe", "roe"]) .individual) .individual).map valuesIn =
      [["doe"], ["roe"]] := by decide +kernel
  have hroe : ["roe"] ∈
      (entriesIn (lists (listing ["doe", "roe"]) .individual) .individual).map valuesIn := by
    rw [hentries]
    decide
  obtain ⟨entry, hentry, hvalue⟩ := List.mem_map.1 hroe
  refine ⟨c, hc, entry, hentry, ?_⟩
  rintro a ha rfl
  have hmem : valuesIn a.element ∈ [["doe"]] := by
    rw [← hvalues]
    exact List.mem_map_of_mem ha
  rw [hvalue] at hmem
  exact absurd hmem (by decide)

end Access

end DiscoveryMetadata
