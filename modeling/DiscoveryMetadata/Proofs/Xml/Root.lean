import DiscoveryMetadata.Proofs.Xml.Resolution
/-
  The root of a document, and what stands around it.

  The loop over the events of a document is a step for each event (`step`, `run_cons`). What is
  found before an element does not change how it is read (`run_root`), and what is accepted leaves
  no element open, so that reading goes on behind it from nothing (`run_append`).

  An element that stands in no other one is the root until another such element is found, and
  character data in no element is passed over. So the root is the last element that stands in none
  (`root_is_last_element`), which need not be the only one (`root_not_single`). A lone `<` at the
  end of a document is no event, and comments and the like are none.
-/
namespace DiscoveryMetadata.Xml

section Steps

variable {stack : List OpenElement} {root r : Option Element} {events a b : List Event} {x : Event}

namespace Reader

/-- What one event makes of the open elements and of the root found so far. -/
def step (stack : List OpenElement) (root : Option Element) :
    Event → Outcome (List OpenElement × Option Element)
  | .malformed => .error malformed
  | .opening name attributes closed => do
    let (e, scope) ← Element.ofTag (scopeOf stack) name attributes
    return if closed then place e root stack else (⟨e, name, scope⟩ :: stack, root)
  | .closing name =>
    match stack with
    | [] => .error malformed
    | o :: os => if o.written = name then .ok (place o.element root os) else .error malformed
  | .text raw =>
    match stack with
    | [] => .ok ([], root)
    | o :: os =>
      match Text.unescape raw with
      | none => .error unreadable
      | some cs => .ok ({ o with element := appendText cs o.element } :: os, root)
  | .verbatim cs =>
    match stack with
    | [] => .ok ([], root)
    | o :: os => .ok ({ o with element := appendText cs o.element } :: os, root)

theorem run_cons : run stack root (x :: events) =
    step stack root x >>= fun s => run s.1 s.2 events := by
  cases x with
  | malformed => cases stack <;> rfl
  | opening name attributes closed =>
    cases htag : Element.ofTag (scopeOf stack) name attributes with
    | error f =>
      rw [run_refused htag]
      simp only [step, htag]
      rfl
    | ok t =>
      cases closed with
      | true =>
        rw [run_closed htag]
        simp only [step, htag]
        rfl
      | false =>
        rw [run_open htag]
        simp only [step, htag]
        rfl
  | closing name =>
    cases stack with
    | nil => rfl
    | cons o os =>
      rw [run, step]
      split <;> rfl
  | text raw =>
    cases stack with
    | nil => rfl
    | cons o os => cases hcs : Text.unescape raw <;> simp only [run, step, hcs] <;> rfl
  | verbatim cs => cases stack <;> rfl

theorem run_cons_ok : run stack root (x :: events) = .ok r ↔
    ∃ s, step stack root x = .ok s ∧ run s.1 s.2 events = .ok r := by
  rw [run_cons, bind_ok]

/-- The root found so far is replaced, or plays no role. -/
theorem step_root : step stack root x = (step stack none x).map fun s => (s.1, s.2.or root) := by
  cases x with
  | malformed => rfl
  | opening name attributes closed =>
    cases htag : Element.ofTag (scopeOf stack) name attributes with
    | error f =>
      simp only [step, htag]
      rfl
    | ok t => cases closed <;> cases stack <;> simp only [step, htag] <;> rfl
  | closing name =>
    cases stack with
    | nil => rfl
    | cons o os =>
      simp only [step]
      split
      case isTrue => cases os <;> rfl
      case isFalse => rfl
  | text raw =>
    cases stack with
    | nil => rfl
    | cons o os => cases hcs : Text.unescape raw <;> simp only [step, hcs] <;> rfl
  | verbatim cs => cases stack <;> rfl

theorem run_root : run stack root events = (run stack none events).map (·.or root) := by
  induction events generalizing stack root with
  | nil => cases stack <;> rfl
  | cons x events ih =>
    rw [run_cons, run_cons, step_root]
    cases step stack none x with
    | error f => rfl
    | ok s =>
      change run s.1 (s.2.or root) events = (run s.1 s.2 events).map (·.or root)
      rw [@ih s.1 (s.2.or root), @ih s.1 s.2]
      cases run s.1 none events <;> simp [Except.map, Option.or_assoc]

/-- What is accepted leaves no element open, and reading goes on with the root found. -/
theorem run_append (h : run stack root a = .ok r) : run stack root (a ++ b) = run [] r b := by
  induction a generalizing stack root with
  | nil =>
    cases stack with
    | nil =>
      obtain rfl := Except.ok.inj h
      rfl
    | cons o os => cases h
  | cons x a ih =>
    obtain ⟨s, hs, h⟩ := run_cons_ok.1 h
    rw [List.cons_append, run_cons, hs]
    exact ih h

end Reader

end Steps

section Roots

/-- Character data, of either sort. -/
def Event.isData : Event → Bool
  | .text _ => true
  | .verbatim _ => true
  | _ => false

/-- Character data that is white space all through. -/
def Event.isBlank : Event → Bool
  | .text raw => raw.all Text.isSpace
  | .verbatim cs => cs.all Text.isSpace
  | _ => false

/-- How many elements are open behind an event, if `depth` were open before it. -/
def Event.depthAfter (depth : Nat) : Event → Nat
  | .opening _ _ false => depth + 1
  | .closing _ => depth - 1
  | _ => depth

/-- The events that stand in no element, if `depth` elements are open before the first. The tag that
opens an element does not stand in it. -/
def outside : Nat → List Event → List Event
  | _, [] => []
  | depth, x :: r =>
    if depth = 0 then x :: outside (x.depthAfter depth) r else outside (x.depthAfter depth) r

/-- Outside all elements there are the opening tag of one element and white space. -/
def SingleRoot (events : List Event) : Prop := ∃ name attributes closed,
  (outside 0 events).filter (!·.isBlank) = [.opening name attributes closed]

/-- The document has the root in the midst of other things: before it what could be a document too,
behind it character data. -/
structure Rooted (events : List Event) (e : Element) (before element after : List Event) :
    Prop where
  parts : events = before ++ (element ++ after)
  before : ∃ r, Reader.run [] none before = .ok r
  single : ∃ name attributes closed, outside 0 element = [.opening name attributes closed]
  element : Reader.run [] none element = .ok (some e)
  after : ∀ x ∈ after, x.isData = true

open Reader

variable {stack : List OpenElement} {root r : Option Element} {events a b : List Event} {x : Event}
  {e : Element} {s : List OpenElement × Option Element}

theorem step_depth (h : step stack root x = .ok s) : s.1.length = x.depthAfter stack.length := by
  cases x with
  | malformed => cases h
  | opening name attributes closed =>
    simp only [step, bind_ok, pure_ok] at h
    obtain ⟨t, -, rfl⟩ := h
    cases closed <;> cases stack <;> rfl
  | closing name =>
    cases stack with
    | nil => cases h
    | cons o os =>
      simp only [step] at h
      split at h
      case isTrue =>
        obtain rfl := Except.ok.inj h
        cases os <;> rfl
      case isFalse => cases h
  | text raw =>
    cases stack with
    | nil =>
      obtain rfl := Except.ok.inj h
      rfl
    | cons o os =>
      simp only [step] at h
      split at h
      case h_1 => cases h
      case h_2 =>
        obtain rfl := Except.ok.inj h
        rfl
  | verbatim cs =>
    cases stack <;> obtain rfl := Except.ok.inj h <;> rfl

/-- Inside an element a root is found just where the last open element is closed. -/
theorem step_closes (hs : stack ≠ []) (h : step stack none x = .ok s) :
    s.2.isSome = s.1.isEmpty := by
  obtain ⟨o, os, rfl⟩ := List.exists_cons_of_ne_nil hs
  cases x with
  | malformed => cases h
  | opening name attributes closed =>
    simp only [step, bind_ok, pure_ok] at h
    obtain ⟨t, -, rfl⟩ := h
    cases closed <;> rfl
  | closing name =>
    simp only [step] at h
    split at h
    case isTrue =>
      obtain rfl := Except.ok.inj h
      cases os <;> rfl
    case isFalse => cases h
  | text raw =>
    simp only [step] at h
    split at h
    case h_1 => cases h
    case h_2 =>
      obtain rfl := Except.ok.inj h
      rfl
  | verbatim cs =>
    obtain rfl := Except.ok.inj h
    rfl

theorem step_data (h : x.isData = true) : step [] root x = .ok ([], root) := by
  cases x with
  | text | verbatim => rfl
  | _ => cases h

/-- Character data outside all elements is passed over. -/
theorem run_data (h : ∀ x ∈ a, x.isData = true) : run [] root (a ++ b) = run [] root b := by
  induction a with
  | nil => rfl
  | cons x a ih =>
    obtain ⟨hx, ha⟩ := List.forall_mem_cons.1 h
    rw [List.cons_append, run_cons, step_data hx]
    exact ih ha

theorem outside_append (h : run stack root a = .ok r) :
    outside stack.length (a ++ b) = outside stack.length a ++ outside 0 b := by
  induction a generalizing stack root with
  | nil =>
    cases stack with
    | nil => rfl
    | cons o os => cases h
  | cons x a ih =>
    obtain ⟨s, hs, h⟩ := run_cons_ok.1 h
    have ha := ih h
    rw [step_depth hs] at ha
    rw [List.cons_append, outside, outside, ha]
    split <;> rfl

theorem outside_data (h : ∀ x ∈ a, x.isData = true) : outside 0 a = a := by
  induction a with
  | nil => rfl
  | cons x a ih =>
    obtain ⟨hx, ha⟩ := List.forall_mem_cons.1 h
    have hdepth : x.depthAfter 0 = 0 := by
      cases x with
      | text | verbatim => rfl
      | _ => cases hx
    rw [outside, if_pos rfl, hdepth, ih ha]

/-- If only character data stands in no element, there is no element. -/
theorem data_of_outside (h : ∀ x ∈ outside 0 a, x.isData = true) : ∀ x ∈ a, x.isData = true := by
  induction a with
  | nil => simp
  | cons x a ih =>
    rw [outside, if_pos rfl] at h
    obtain ⟨hx, ha⟩ := List.forall_mem_cons.1 h
    have hdepth : x.depthAfter 0 = 0 := by
      cases x with
      | text | verbatim => rfl
      | _ => cases hx
    rw [hdepth] at ha
    exact List.forall_mem_cons.2 ⟨hx, ih ha⟩

theorem isData_of_isBlank (h : x.isBlank = true) : x.isData = true := by
  cases x with
  | text | verbatim => rfl
  | _ => cases h

/-- What is accepted inside an element goes on to the tag that closes it, and on from there. -/
theorem exists_inner (hs : stack ≠ []) (h : run stack root events = .ok r) :
    ∃ inner rest e, events = inner ++ rest ∧ run stack none inner = .ok (some e) ∧
      outside stack.length inner = [] ∧ run [] (some e) rest = .ok r := by
  induction events generalizing stack root with
  | nil =>
    obtain ⟨o, os, rfl⟩ := List.exists_cons_of_ne_nil hs
    cases h
  | cons x events ih =>
    obtain ⟨s, hstep, hrun⟩ := run_cons_ok.1 h
    rw [step_root, map_ok] at hstep
    obtain ⟨t, ht, rfl⟩ := hstep
    have hcloses := step_closes hs ht
    have houtside : ∀ l, outside stack.length (x :: l) = outside t.1.length l := by
      intro l
      rw [outside, if_neg (by simpa using hs), step_depth ht]
    obtain ⟨open', root'⟩ := t
    -- either this event closes the last open element, or the way goes on inside
    cases open' with
    | nil =>
      obtain ⟨e, rfl⟩ := Option.isSome_iff_exists.1 hcloses
      refine ⟨[x], events, e, rfl, ?_, houtside [], hrun⟩
      rw [run_cons, ht]
      rfl
    | cons o os =>
      obtain rfl : root' = none := by simpa using hcloses
      obtain ⟨inner, rest, e, rfl, hinner, hout, hrest⟩ := ih (List.cons_ne_nil o os) hrun
      refine ⟨x :: inner, rest, e, rfl, ?_, (houtside inner).trans hout, hrest⟩
      rw [run_cons, ht]
      exact hinner

/-- What is accepted and begins with an opening tag is one element and what is behind it. -/
theorem exists_first {name attributes : List Char} {closed : Bool}
    (h : run [] root (.opening name attributes closed :: events) = .ok r) :
    ∃ first rest e, .opening name attributes closed :: events = first ++ rest ∧
      rest.length ≤ events.length ∧ run [] none first = .ok (some e) ∧
      outside 0 first = [.opening name attributes closed] ∧ run [] (some e) rest = .ok r := by
  obtain ⟨s, hstep, hrun⟩ := run_cons_ok.1 h
  rw [step_root, map_ok] at hstep
  obtain ⟨t, ht, rfl⟩ := hstep
  have hdepth := step_depth ht
  have htag := ht
  simp only [step, bind_ok, pure_ok] at ht
  obtain ⟨⟨e, scope⟩, -, rfl⟩ := ht
  cases closed with
  | true =>
    refine ⟨[_], events, e, rfl, le_rfl, ?_, rfl, hrun⟩
    rw [run_cons, htag]
    rfl
  | false =>
    obtain ⟨inner, rest, e', rfl, hinner, hout, hrest⟩ := exists_inner (List.cons_ne_nil _ _) hrun
    refine ⟨.opening name attributes false :: inner, rest, e', rfl, by simp, ?_, ?_, hrest⟩
    · rw [run_cons, htag]
      exact hinner
    · rw [outside, if_pos rfl]
      exact congrArg _ hout

/-- Where no root is found there is character data only. -/
theorem data_of_rootless (h : run [] none events = .ok none) : ∀ x ∈ events, x.isData = true := by
  induction events with
  | nil => simp
  | cons x events ih =>
    cases x with
    | text | verbatim => exact List.forall_mem_cons.2 ⟨rfl, ih h⟩
    | malformed | closing => cases h
    | opening name attributes closed =>
      obtain ⟨first, rest, e, -, -, -, -, hrest⟩ := exists_first h
      rw [run_root, map_ok] at hrest
      obtain ⟨r, -, hr⟩ := hrest
      simp at hr

theorem Rooted.behind {before element after : List Event} (ha : run [] none a = .ok r)
    (h : Rooted b e before element after) : Rooted (a ++ b) e (a ++ before) element after := by
  obtain ⟨r', hr'⟩ := h.before
  refine ⟨by rw [h.parts, List.append_assoc], ⟨r'.or r, ?_⟩, h.single, h.element, h.after⟩
  rw [run_append ha, run_root, hr']
  rfl

theorem exists_rooted (events : List Event) (h : run [] none events = .ok (some e)) :
    ∃ before element after, Rooted events e before element after := by
  match events with
  | [] => cases h
  | .text raw :: events =>
    obtain ⟨before, element, after, hrooted⟩ := exists_rooted events h
    exact ⟨_, element, after, hrooted.behind (a := [.text raw]) rfl⟩
  | .verbatim cs :: events =>
    obtain ⟨before, element, after, hrooted⟩ := exists_rooted events h
    exact ⟨_, element, after, hrooted.behind (a := [.verbatim cs]) rfl⟩
  | .malformed :: events => cases h
  | .closing name :: events => cases h
  | .opening name attributes closed :: events =>
    obtain ⟨first, rest, e', hparts, hlength, hfirst, hsingle, hrest⟩ := exists_first h
    rw [run_root, map_ok] at hrest
    obtain ⟨r, hr, hor⟩ := hrest
    have hbehind := exists_rooted rest
    rw [hparts]
    -- the root is this element if none comes behind it, and else the last one of those
    cases r with
    | none =>
      obtain rfl : e' = e := Option.some.inj hor
      exact ⟨[], first, rest, rfl, ⟨none, rfl⟩, ⟨_, _, _, hsingle⟩, hfirst, data_of_rootless hr⟩
    | some f =>
      obtain rfl : f = e := Option.some.inj hor
      obtain ⟨before, element, after, hrooted⟩ := hbehind hr
      exact ⟨_, element, after, hrooted.behind hfirst⟩
termination_by events.length

theorem Rooted.run {before element after : List Event} (h : Rooted events e before element after) :
    run [] none events = .ok (some e) := by
  obtain ⟨r, hr⟩ := h.before
  have hafter : Reader.run [] (some e) after = .ok (some e) := by
    have hdata : Reader.run [] (some e) (after ++ []) = .ok (some e) := run_data h.after
    rwa [List.append_nil] at hdata
  rw [h.parts, run_append hr, run_root, run_append h.element, hafter]
  rfl

/-- The root stands alone just if there is but white space around it. -/
theorem Rooted.singleRoot_iff {before element after : List Event}
    (h : Rooted events e before element after) :
    SingleRoot events ↔ ∀ x ∈ before ++ after, x.isBlank = true := by
  obtain ⟨r, hr⟩ := h.before
  obtain ⟨name, attributes, closed, hsingle⟩ := h.single
  have houtside : (outside 0 events).filter (!·.isBlank) =
      (outside 0 before).filter (!·.isBlank) ++
        .opening name attributes closed :: after.filter (!·.isBlank) := by
    have hparts : outside 0 (before ++ (element ++ after)) =
        outside 0 before ++ outside 0 (element ++ after) := outside_append hr
    have helement : outside 0 (element ++ after) = outside 0 element ++ outside 0 after :=
      outside_append h.element
    rw [h.parts, hparts, helement, hsingle, outside_data h.after, List.filter_append]
    rfl
  rw [SingleRoot, houtside]
  constructor
  · rintro ⟨name', attributes', closed', heq⟩
    -- the tag of the root is one thing already, so that nothing is left for what is around it
    have hlength := congrArg List.length heq
    simp only [List.length_append, List.length_cons, List.length_nil] at hlength
    have hbefore : (outside 0 before).filter (!·.isBlank) = [] :=
      List.length_eq_zero_iff.1 (by omega)
    have hafter : after.filter (!·.isBlank) = [] := List.length_eq_zero_iff.1 (by omega)
    have hblank : ∀ x ∈ outside 0 before, x.isBlank = true := by simpa using hbefore
    rw [outside_data (data_of_outside fun x hx => isData_of_isBlank (hblank x hx))] at hblank
    exact List.forall_mem_append.2 ⟨hblank, by simpa using hafter⟩
  · intro hblank
    obtain ⟨hbefore, hafter⟩ := List.forall_mem_append.1 hblank
    rw [outside_data fun x hx => isData_of_isBlank (hbefore x hx), List.filter_eq_nil_iff.2,
      List.filter_eq_nil_iff.2]
    · exact ⟨name, attributes, closed, rfl⟩
    · simpa using hafter
    · simpa using hbefore

/-- A document has a root just if an element stands in no other one; the last of these is the root,
and what is in front of it and behind it is passed over. There is but white space around it just if
the document has a single root and nothing else. -/
theorem root_is_last_element (xml : String) (e : Element) :
    (readDocument xml = .ok (some e) ↔
      ∃ before element after, Rooted (Event.ofDocument xml) e before element after) ∧
    ∀ before element after, Rooted (Event.ofDocument xml) e before element after →
      (SingleRoot (Event.ofDocument xml) ↔ ∀ x ∈ before ++ after, x.isBlank = true) :=
  ⟨⟨exists_rooted _, fun ⟨_, _, _, h⟩ => h.run⟩, fun _ _ _ h => h.singleRoot_iff⟩

/-- A document with character data and two elements that stand in no other one. -/
def crowded : String := "x <b>c</b><a>t<b/></a> "

theorem root_is_last_element_crowded : ∃ e before element after,
    readDocument crowded = .ok (some e) ∧ e.localName = "a" ∧
      Rooted (Event.ofDocument crowded) e before element after ∧
        ¬∀ x ∈ before ++ after, x.isBlank = true := by
  have hread : ((readDocument crowded).toOption.bind id).map (·.localName) = some "a" := by
    decide +kernel
  obtain ⟨e, he, hname⟩ := Option.map_eq_some_iff.1 hread
  obtain ⟨r, hr, rfl⟩ := Option.bind_eq_some_iff.1 he
  have hroot := root_is_last_element crowded e
  obtain ⟨before, element, after, hrooted⟩ := hroot.1.1 (toOption_ok.1 hr)
  refine ⟨e, before, element, after, toOption_ok.1 hr, hname, hrooted, ?_⟩
  rw [← hroot.2 before element after hrooted]
  rintro ⟨name, attributes, closed, houtside⟩
  have hmore : ((outside 0 (Event.ofDocument crowded)).filter (!·.isBlank)).length = 3 := by
    decide +kernel
  rw [houtside] at hmore
  cases hmore

/-- Two elements, of which the second takes the place of the first. -/
theorem root_not_single : ¬∀ (xml : String) (e : Element), readDocument xml = .ok (some e) →
    SingleRoot (Event.ofDocument xml) := by
  intro h
  have hread : ((readDocument "<a/><b/>").toOption.bind id).isSome = true := by decide +kernel
  obtain ⟨e, he⟩ := Option.isSome_iff_exists.1 hread
  obtain ⟨r, hr, rfl⟩ := Option.bind_eq_some_iff.1 he
  obtain ⟨name, attributes, closed, houtside⟩ := h _ e (toOption_ok.1 hr)
  have hmore : ((outside 0 (Event.ofDocument "<a/><b/>")).filter (!·.isBlank)).length = 2 := by
    decide +kernel
  rw [houtside] at hmore
  cases hmore

end Roots

end DiscoveryMetadata.Xml
