import DiscoveryMetadata.Proofs.Xml.Root
import Mathlib.Logic.Relation
/-
  Documents from which comments and processing instructions are taken out.

  What is passed over divides the character data around it into two pieces (`TakenOut`). Reading the
  pieces one after the other or as one (`TakenOut.events`) adds the same to an element but for white
  space: the blanks where the pieces meet are lost, and so is a piece that is white space through
  references (`run_merged`). States of the reader that differ in the white space of texts only stay
  so (`run_unspaced`), by induction on the events behind. Hence the tree is the same but for white
  space in texts (`comments_transparent`), and just the same if the pieces are `Seamless`; in
  general it is not (`comment_hides_blanks`).
-/
namespace DiscoveryMetadata.Xml

open Text (isXmlSpace)

section Asides

open Event (markup? ofChars ofData ofChars_data ofChars_begins)

/-- With `rest` behind it a text is read to its end: to the events of markup and of the character
data in front of it, and to some character data behind the last markup. -/
inductive ReadTo (rest : List Char) : List Char → List Event → List Char → Prop
  | data {d : List Char} (hd : '<' ∉ d) : ReadTo rest d [] d
  | markup {d m before d' : List Char} {e : Option Event} {events : List Event} (hd : '<' ∉ d)
      (hm : markup? (m ++ (before ++ rest)) = some (e, before ++ rest))
      (h : ReadTo rest before events d') :
      ReadTo rest (d ++ '<' :: (m ++ before)) (ofData d ++ (e.toList ++ events)) d'

/-- One thing that is passed over is taken out of a text. It stands between two pieces of character
data, which may be empty. -/
inductive TakenOut (d d' : List Char) : List Char → List Char → Prop
  | intro {before aside after : List Char} {events : List Event}
      (front : ReadTo ('<' :: (aside ++ (d' ++ after))) before events d)
      (passed : markup? (aside ++ (d' ++ after)) = some (none, d' ++ after)) (data : '<' ∉ d')
      (behind : ∀ c ∈ after.head?, c = '<') :
      TakenOut d d' (before ++ '<' :: (aside ++ (d' ++ after))) (before ++ (d' ++ after))

theorem ReadTo.elsewhere {rest rest' before d : List Char} {events : List Event}
    (h : ReadTo rest before events d) (hne : rest ≠ []) : ReadTo rest' before events d := by
  induction h with
  | data hd => exact .data hd
  | @markup d m before d' e events hd hm h ih =>
    obtain ⟨m', hm', hall⟩ := Event.markup?_some hm (by simp [hne])
    obtain rfl := List.append_cancel_right hm'
    exact .markup hd (hall _) ih

theorem ReadTo.notMem {rest before d : List Char} {events : List Event}
    (h : ReadTo rest before events d) : '<' ∉ d := by
  induction h with
  | data hd => exact hd
  | markup _ _ _ ih => exact ih

theorem ReadTo.read {rest before d : List Char} {events : List Event}
    (h : ReadTo rest before events d) :
    ofChars (before ++ rest) = events ++ ofChars (d ++ rest) := by
  induction h with
  | data hd => rfl
  | @markup d m before d' e events hd hm h ih =>
    have hassoc : d ++ '<' :: (m ++ before) ++ rest = d ++ '<' :: (m ++ (before ++ rest)) := by simp
    rw [hassoc, ofChars_data hd (by simp), ofChars_begins hm, ih]
    simp

/-- Where something is taken out, two pieces of character data become one. -/
theorem TakenOut.events {d d' xml xml' : List Char} (h : TakenOut d d' xml xml') :
    ∃ before after, ofChars xml = before ++ (ofData d ++ (ofData d' ++ after)) ∧
      ofChars xml' = before ++ (ofData (d ++ d') ++ after) := by
  cases h with
  | @intro before aside after events front passed data behind =>
    refine ⟨events, ofChars after, ?_, ?_⟩
    · rw [front.read, ofChars_data front.notMem (by simp), ofChars_begins passed,
        ofChars_data data behind]
      rfl
    · rw [(front.elsewhere (by simp)).read, ← List.append_assoc d,
        ofChars_data (by simp [front.notMem, data]) behind]

end Asides

section Texts

open Event (ofChars ofData)

/-- The text without its white space. -/
def unspace (s : String) : String := String.ofList (s.toList.filter (!Text.isSpace ·))

mutual
/-- The element with the white space taken out of all texts. -/
def Element.unspaced : Element → Element
  | ⟨name, attributes, text, children, declared⟩ =>
    ⟨name, attributes, text.map unspace, unspacedAll children, declared⟩

/-- The elements with the white space taken out of all texts. -/
def unspacedAll : List Element → List Element
  | [] => []
  | e :: r => e.unspaced :: unspacedAll r
end

/-- The open element with the white space taken out of all texts. -/
def OpenElement.unspaced (o : OpenElement) : OpenElement := { o with element := o.element.unspaced }

open Reader

variable {e e' : Element} {cs : List Char} {stack stack' : List OpenElement}
  {root root' r : Option Element} {x : Event} {events : List Event}

theorem unspacedAll_eq (es : List Element) : unspacedAll es = es.map (·.unspaced) := by
  induction es with
  | nil => rfl
  | cons e r ih => rw [unspacedAll, ih, List.map_cons]

theorem Element.unspaced_add (es : List Element) :
    (e.add es).unspaced = e.unspaced.add (es.map (·.unspaced)) := by
  cases e
  simp [add, unspaced, unspacedAll_eq]

/-- Character data that is added is added without its white space. -/
theorem unspaced_appendText : (appendText cs e).unspaced =
    if cs.all Text.isSpace then e.unspaced
    else { e.unspaced with
      text := some (e.unspaced.text.getD "" ++ unspace (String.ofList cs)) } := by
  obtain ⟨name, attributes, text, children, declared⟩ := e
  rw [appendText]
  split
  case isTrue => rfl
  case isFalse => cases text <;> simp [Element.unspaced, unspace]

theorem unspaced_place (e : Element) (root : Option Element) (stack : List OpenElement) :
    (place e root stack).1.map (·.unspaced) =
      (place e.unspaced (root.map (·.unspaced)) (stack.map (·.unspaced))).1 ∧
    (place e root stack).2.map (·.unspaced) =
      (place e.unspaced (root.map (·.unspaced)) (stack.map (·.unspaced))).2 := by
  cases stack with
  | nil => exact ⟨rfl, rfl⟩
  | cons o os => simp [place, OpenElement.unspaced, Element.unspaced_add]

theorem scopeOf_unspaced : scopeOf (stack.map (·.unspaced)) = scopeOf stack := by
  cases stack <;> rfl

theorem unspaced_place_congr (he : e.unspaced = e'.unspaced)
    (hs : stack.map (·.unspaced) = stack'.map (·.unspaced))
    (hr : root.map (·.unspaced) = root'.map (·.unspaced)) :
    (place e root stack).1.map (·.unspaced) = (place e' root' stack').1.map (·.unspaced) ∧
      (place e root stack).2.map (·.unspaced) = (place e' root' stack').2.map (·.unspaced) := by
  obtain ⟨h1, h2⟩ := unspaced_place e root stack
  obtain ⟨h1', h2'⟩ := unspaced_place e' root' stack'
  rw [h1, h2, h1', h2', he, hs, hr]
  exact ⟨rfl, rfl⟩

theorem unspaced_opened {o o' : OpenElement} (ho : o.unspaced = o'.unspaced) :
    OpenElement.unspaced { o with element := appendText cs o.element } =
      OpenElement.unspaced { o' with element := appendText cs o'.element } := by
  obtain ⟨e, written, scope⟩ := o
  obtain ⟨e', written', scope'⟩ := o'
  simp only [OpenElement.unspaced, OpenElement.mk.injEq] at ho ⊢
  rw [unspaced_appendText, unspaced_appendText, ho.1]
  exact ⟨rfl, ho.2⟩

/-- States that differ in the white space of texts only are led to such states by an event. -/
theorem step_unspaced (hs : stack.map (·.unspaced) = stack'.map (·.unspaced))
    (hr : root.map (·.unspaced) = root'.map (·.unspaced)) :
    (step stack root x).map (fun s => (s.1.map (·.unspaced), s.2.map (·.unspaced))) =
      (step stack' root' x).map fun s => (s.1.map (·.unspaced), s.2.map (·.unspaced)) := by
  -- names are resolved in the scope of the innermost open element, in which texts have no part
  have hscope : scopeOf stack = scopeOf stack' := by
    rw [← scopeOf_unspaced, hs, scopeOf_unspaced]
  cases x with
  | malformed => rfl
  | opening name attributes closed =>
    simp only [step, hscope]
    cases Element.ofTag (scopeOf stack') name attributes with
    | error f => rfl
    | ok t =>
      cases closed with
      | false => exact congrArg Except.ok (Prod.ext (congrArg (_ :: ·) hs) hr)
      | true =>
        obtain ⟨h1, h2⟩ := unspaced_place_congr rfl hs hr
        exact congrArg Except.ok (Prod.ext h1 h2)
  | closing name =>
    cases stack with
    | nil =>
      obtain rfl : stack' = [] := by simpa using hs.symm
      rfl
    | cons o os =>
      obtain ⟨o', os', rfl, ho, hos⟩ := List.map_eq_cons_iff.1 hs.symm
      have ho : o'.unspaced = o.unspaced := ho
      -- the closing tag is compared with the name that was written, which is the same on both sides
      have hwritten : o'.written = o.written := congrArg (·.written) ho
      have helement : o.element.unspaced = o'.element.unspaced :=
        (congrArg (·.element) ho).symm
      simp only [step, hwritten]
      split
      case isTrue =>
        obtain ⟨h1, h2⟩ := unspaced_place_congr helement hos.symm hr
        exact congrArg Except.ok (Prod.ext h1 h2)
      case isFalse => rfl
  | text raw =>
    cases stack with
    | nil =>
      obtain rfl : stack' = [] := by simpa using hs.symm
      exact congrArg Except.ok (Prod.ext rfl hr)
    | cons o os =>
      obtain ⟨o', os', rfl, ho, hos⟩ := List.map_eq_cons_iff.1 hs.symm
      have ho : o'.unspaced = o.unspaced := ho
      simp only [step]
      cases Text.unescape raw with
      | none => rfl
      | some cs =>
        exact congrArg Except.ok (Prod.ext
          (List.cons_eq_cons.2 ⟨unspaced_opened ho.symm, hos.symm⟩) hr)
  | verbatim cs =>
    cases stack with
    | nil =>
      obtain rfl : stack' = [] := by simpa using hs.symm
      exact congrArg Except.ok (Prod.ext rfl hr)
    | cons o os =>
      obtain ⟨o', os', rfl, ho, hos⟩ := List.map_eq_cons_iff.1 hs.symm
      have ho : o'.unspaced = o.unspaced := ho
      exact congrArg Except.ok (Prod.ext
        (List.cons_eq_cons.2 ⟨unspaced_opened ho.symm, hos.symm⟩) hr)

theorem run_unspaced (events : List Event)
    (hs : stack.map (·.unspaced) = stack'.map (·.unspaced))
    (hr : root.map (·.unspaced) = root'.map (·.unspaced)) :
    (run stack root events).map (·.map (·.unspaced)) =
      (run stack' root' events).map (·.map (·.unspaced)) := by
  induction events generalizing stack root stack' root' with
  | nil =>
    cases stack with
    | nil =>
      obtain rfl : stack' = [] := by simpa using hs.symm
      exact congrArg Except.ok hr
    | cons o os =>
      obtain ⟨o', os', rfl, -, -⟩ := List.map_eq_cons_iff.1 hs.symm
      rfl
  | cons x events ih =>
    have hstep := step_unspaced (x := x) hs hr
    rw [run_cons, run_cons]
    cases h : step stack root x <;> cases h' : step stack' root' x <;> rw [h, h'] at hstep
    case error.error => rw [Except.error.inj hstep]
    case error.ok => cases hstep
    case ok.error => cases hstep
    case ok.ok s s' =>
      have hstates := Prod.mk.inj (Except.ok.inj hstep)
      exact ih hstates.1 hstates.2

/-- Where the character data is read alone nothing is left of it, as it is white space all through,
references included. -/
def Faint (d : List Char) : Prop :=
  ∀ cs ∈ Text.unescape (Text.strip isXmlSpace d), cs.all Text.isSpace = true

/-- Character data is read alike in two pieces and as a whole: there are but blanks in one piece, or
neither has any where they meet and nothing is dropped, or both are. -/
inductive Seamless (d d' : List Char) : Prop
  | blankBefore (h : ∀ c ∈ d, isXmlSpace c = true)
  | blankBehind (h : ∀ c ∈ d', isXmlSpace c = true)
  | joined (hlast : ∀ c ∈ d.getLast?, isXmlSpace c = false)
      (hhead : ∀ c ∈ d'.head?, isXmlSpace c = false) (h : ¬Faint d) (h' : ¬Faint d')
  | faint (h : Faint d) (h' : Faint d')

/-- Character data is added to the innermost open element, without the blanks at its ends and with
its references read. -/
theorem run_ofData {d : List Char} {o : OpenElement} {os : List OpenElement} :
    run (o :: os) root (ofData d ++ events) =
      match Text.unescape (Text.strip isXmlSpace d) with
      | none => .error unreadable
      | some cs => run ({ o with element := appendText cs o.element } :: os) root events := by
  rw [ofData]
  cases Text.strip isXmlSpace d with
  | nil => rfl
  | cons => rfl

theorem unspace_of_all (h : cs.all Text.isSpace = true) : unspace (String.ofList cs) = "" := by
  simpa [unspace] using h

theorem unspace_merged {p d gap : List Char} (hgap : gap.all Text.isSpace = true) :
    unspace (String.ofList (p ++ (gap ++ d))) =
      unspace (String.ofList p) ++ unspace (String.ofList d) := by
  have hnone : gap.filter (!Text.isSpace ·) = [] := by simpa using hgap
  simp [unspace, hnone]

/-- What is added in two pieces and what is added at once are the same but for white space. -/
theorem unspaced_merged {p d gap : List Char} (hgap : gap.all Text.isSpace = true) :
    (appendText (p ++ (gap ++ d)) e).unspaced = (appendText d (appendText p e)).unspaced := by
  have hall : (p ++ (gap ++ d)).all Text.isSpace = (p.all Text.isSpace && d.all Text.isSpace) := by
    rw [List.all_append, List.all_append, hgap, Bool.true_and]
  rw [unspaced_appendText, unspaced_appendText, unspaced_appendText, hall, unspace_merged hgap]
  cases hp : p.all Text.isSpace <;> cases hd : d.all Text.isSpace
  case true.true => rfl
  case true.false => simp [unspace_of_all hp]
  case false.true => simp [unspace_of_all hd]
  case false.false => simp [String.append_assoc]

/-- What is added in two pieces that are both white space, or neither, is added as at once. -/
theorem appendText_append {p d : List Char} (h : p.all Text.isSpace = d.all Text.isSpace) :
    appendText (p ++ d) e = appendText d (appendText p e) := by
  simp only [appendText, List.all_append, h, Bool.and_self]
  split <;> simp [String.append_assoc]

/-- Where two pieces of character data fit, they add in turn what they add as one. -/
theorem appendText_seamless {d d' p q gap : List Char} (h : Seamless d d')
    (hp : Text.unescape (Text.strip isXmlSpace d) = some p)
    (hq : Text.unescape (Text.strip isXmlSpace d') = some q)
    (hgap : gap.all Text.isSpace = true)
    (hjoined : (∀ c ∈ d, isXmlSpace c = true) ∨ (∀ c ∈ d', isXmlSpace c = true) ∨
      (∀ c ∈ d.getLast?, isXmlSpace c = false) ∧ (∀ c ∈ d'.head?, isXmlSpace c = false) →
        gap = []) :
    appendText (p ++ (gap ++ q)) e = appendText q (appendText p e) := by
  have hfaint : ∀ d p, Text.unescape (Text.strip isXmlSpace d) = some p →
      (Faint d ↔ p.all Text.isSpace = true) := by
    intro d p hp
    simp [Faint, hp]
  -- in all cases but the last nothing stands between the two pieces
  cases h with
  | blankBefore h =>
    obtain rfl := hjoined (.inl h)
    rw [Text.strip_eq_nil.2 h] at hp
    obtain rfl := Option.some.inj hp
    rfl
  | blankBehind h =>
    obtain rfl := hjoined (.inr (.inl h))
    rw [Text.strip_eq_nil.2 h] at hq
    obtain rfl := Option.some.inj hq
    rw [List.append_nil, List.append_nil]
    rfl
  | joined hlast hhead h h' =>
    obtain rfl := hjoined (.inr (.inr ⟨hlast, hhead⟩))
    rw [hfaint _ _ hp, Bool.not_eq_true] at h
    rw [hfaint _ _ hq, Bool.not_eq_true] at h'
    exact appendText_append (h.trans h'.symm)
  | faint h h' =>
    rw [hfaint _ _ hp] at h
    rw [hfaint _ _ hq] at h'
    have hall : (p ++ (gap ++ q)).all Text.isSpace = true := by
      rw [List.all_append, List.all_append, h, hgap, h']
      rfl
    rw [appendText, appendText, appendText, if_pos hall, if_pos h', if_pos h]

theorem isData_of_mem_ofData {d : List Char} (h : x ∈ ofData d) : x.isData = true := by
  rw [ofData] at h
  split at h
  case h_1 => cases h
  case h_2 =>
    rw [List.mem_singleton.1 h]
    rfl

/-- Where character data is read as a whole and not in two pieces, the same comes out but for white
space, and just the same if the pieces fit. -/
theorem run_merged {d d' : List Char}
    (h : run stack root (ofData d ++ (ofData d' ++ events)) = .ok r) :
    ∃ r', run stack root (ofData (d ++ d') ++ events) = .ok r' ∧
      r'.map (·.unspaced) = r.map (·.unspaced) ∧ (Seamless d d' → r' = r) := by
  cases stack with
  | nil =>
    rw [run_data fun _ => isData_of_mem_ofData, run_data fun _ => isData_of_mem_ofData] at h
    exact ⟨r, by rw [run_data fun _ => isData_of_mem_ofData, h], rfl, fun _ => rfl⟩
  | cons o os =>
    -- read as one, the pieces have the blanks between them as well, and differ in nothing else
    obtain ⟨gap, hstrip, hblank, hjoined⟩ := Text.strip_append isXmlSpace d d'
    have hgap : gap.all Text.isSpace = true :=
      List.all_eq_true.2 fun c hc => Text.isSpace_of_isXmlSpace (hblank c hc)
    have hamp : '&' ∉ gap := fun hamp => absurd (hblank _ hamp) (by decide)
    rw [run_ofData] at h
    split at h
    case h_1 => cases h
    case h_2 p hp =>
      rw [run_ofData] at h
      split at h
      case h_1 => cases h
      case h_2 q hq =>
        have hmerged : Text.unescape (Text.strip isXmlSpace (d ++ d')) =
            some (p ++ (gap ++ q)) := by
          rw [hstrip, Text.unescape_append hp, Text.unescape_append (Text.unescape_of_notMem hamp),
            hq]
          rfl
        have helement : ({ o with element := appendText (p ++ (gap ++ q)) o.element } :: os).map
              (·.unspaced) =
            ({ o with element := appendText q (appendText p o.element) } :: os).map
              (·.unspaced) := by
          simp only [List.map_cons, OpenElement.unspaced, unspaced_merged hgap]
        have hrun := run_unspaced events helement (rfl : root.map (·.unspaced) = _)
        rw [h] at hrun
        obtain ⟨r', hr', hunspaced⟩ := map_ok.1 hrun
        rw [run_ofData, hmerged]
        refine ⟨r', hr', hunspaced, fun hfit => ?_⟩
        rw [appendText_seamless hfit hp hq hgap hjoined] at hr'
        exact Except.ok.inj (hr'.symm.trans h)

/-- What is shown for any open elements of the rest of a document holds of the whole. -/
theorem run_behind {R : Option Element → Option Element → Prop} {a b : List Event}
    (hab : ∀ stack root r, run stack root a = .ok r → ∃ r', run stack root b = .ok r' ∧ R r' r)
    (h : run stack root (events ++ a) = .ok r) :
    ∃ r', run stack root (events ++ b) = .ok r' ∧ R r' r := by
  induction events generalizing stack root with
  | nil => exact hab stack root r h
  | cons x events ih =>
    obtain ⟨s, hs, h⟩ := run_cons_ok.1 h
    obtain ⟨r', hr', hR⟩ := ih h
    exact ⟨r', run_cons_ok.2 ⟨s, hs, hr'⟩, hR⟩

/-- Character data in front of the root is passed over up to the first tag. -/
theorem run_front {d : List Char} (hd : '<' ∉ d) (cs : List Char) :
    run [] none (ofChars (d ++ cs)) = run [] none (ofChars (cs.dropWhile (· != '<'))) := by
  have hsplit : d ++ cs = (d ++ cs.takeWhile (· != '<')) ++ cs.dropWhile (· != '<') := by
    rw [List.append_assoc, List.takeWhile_append_dropWhile]
  have hdata : '<' ∉ d ++ cs.takeWhile (· != '<') := by
    intro hlt
    rcases List.mem_append.1 hlt with hlt | hlt
    · exact hd hlt
    · exact absurd (List.mem_takeWhile_imp hlt) (by decide)
  have hhead : ∀ c ∈ (cs.dropWhile (· != '<')).head?, c = '<' := by
    intro c hc
    have hkept := List.head?_dropWhile_not (· != '<') cs
    rw [Option.mem_def.1 hc] at hkept
    simpa using hkept
  rw [hsplit, Event.ofChars_data hdata hhead, run_data fun _ => isData_of_mem_ofData]

/-- A byte order mark is passed over like other character data in front of the root. -/
theorem readDocument_eq (xml : String) : readDocument xml = run [] none (ofChars xml.toList) := by
  rw [readDocument, Event.ofDocument]
  split
  case h_1 r hr =>
    have hmark := run_front (d := ['\ufeff']) (by decide) r
    have hnone := run_front (d := []) (by simp) r
    rw [hr]
    exact hnone.trans hmark.symm
  case h_2 => rfl

/-- Of one document another is made by taking out something that is passed over, such as a comment,
a processing instruction or the document type. -/
def Sheds (xml xml' : String) : Prop := ∃ d d', TakenOut d d' xml.toList xml'.toList

/-- What is taken out stands between character data that is read alike in two pieces and as one. -/
def ShedsSeamless (xml xml' : String) : Prop :=
  ∃ d d', TakenOut d d' xml.toList xml'.toList ∧ Seamless d d'

theorem Sheds.read {xml xml' : String} {d d' : List Char}
    (h : TakenOut d d' xml.toList xml'.toList) (hr : readDocument xml = .ok r) :
    ∃ r', readDocument xml' = .ok r' ∧ r'.map (·.unspaced) = r.map (·.unspaced) ∧
      (Seamless d d' → r' = r) := by
  obtain ⟨before, after, hxml, hxml'⟩ := h.events
  rw [readDocument_eq, hxml] at hr
  rw [readDocument_eq, hxml']
  exact run_behind (fun _ _ _ => run_merged) hr

/-- Whatever comments and processing instructions are taken out of a document that is accepted, one
after the other, it is accepted then too, and its root is the same but for white space in texts. It
is just the same if the data around each of them is read alike in two pieces and as one. -/
theorem comments_transparent {xml xml' : String} (h : Relation.ReflTransGen Sheds xml xml')
    (hr : readDocument xml = .ok r) :
    ∃ r', readDocument xml' = .ok r' ∧ r'.map (·.unspaced) = r.map (·.unspaced) ∧
      (Relation.ReflTransGen ShedsSeamless xml xml' → r' = r) := by
  suffices hboth : (∃ r', readDocument xml' = .ok r' ∧ r'.map (·.unspaced) = r.map (·.unspaced)) ∧
      (Relation.ReflTransGen ShedsSeamless xml xml' → readDocument xml' = .ok r) by
    obtain ⟨⟨r', hr', hunspaced⟩, hsame⟩ := hboth
    exact ⟨r', hr', hunspaced, fun h => Except.ok.inj (hr'.symm.trans (hsame h))⟩
  constructor
  · induction h with
    | refl => exact ⟨r, hr, rfl⟩
    | tail _ hstep ih =>
      obtain ⟨r', hr', hunspaced⟩ := ih
      obtain ⟨d, d', hout⟩ := hstep
      obtain ⟨r'', hr'', hunspaced', -⟩ := Sheds.read hout hr'
      exact ⟨r'', hr'', hunspaced'.trans hunspaced⟩
  · clear h
    intro h
    induction h with
    | refl => exact hr
    | tail _ hstep ih =>
      obtain ⟨d, d', hout, hfit⟩ := hstep
      obtain ⟨r', hr', -, hsame⟩ := Sheds.read hout ih
      rwa [← hsame hfit]

/-- A document with a comment inside a text and a processing instruction between two elements. -/
def annotated : String := "<a>x<!-- c -->y<b/> <?p?>z</a>"

/-- The document without its comment. -/
def uncommented : String := "<a>xy<b/> <?p?>z</a>"

/-- The document without its comment and its processing instruction. -/
def unannotated : String := "<a>xy<b/> z</a>"

theorem comments_transparent_annotated : Relation.ReflTransGen Sheds annotated unannotated ∧
    ∃ r, readDocument annotated = .ok r ∧ readDocument unannotated = .ok r := by
  have hcomment : TakenOut ['x'] ['y'] annotated.toList uncommented.toList := by
    have hfront : ReadTo ('<' :: ("!-- c -->".toList ++ (['y'] ++ "<b/> <?p?>z</a>".toList)))
        ['<', 'a', '>', 'x'] [.opening ['a'] [] false] ['x'] :=
      @ReadTo.markup _ [] ['a', '>'] ['x'] ['x'] (some (.opening ['a'] [] false)) [] (by simp)
        (by decide +kernel) (.data (by decide))
    have hxml : annotated.toList = ['<', 'a', '>', 'x'] ++
        '<' :: ("!-- c -->".toList ++ (['y'] ++ "<b/> <?p?>z</a>".toList)) := by decide +kernel
    have hxml' : uncommented.toList = ['<', 'a', '>', 'x'] ++
        (['y'] ++ "<b/> <?p?>z</a>".toList) := by decide +kernel
    rw [hxml, hxml']
    exact .intro hfront (@Event.markup?_comment _ [' ', 'c', ' '] (by decide)) (by decide)
      (by simp)
  have hinstruction : TakenOut [' '] ['z'] uncommented.toList unannotated.toList := by
    have hfront : ReadTo ('<' :: ("?p?>".toList ++ (['z'] ++ "</a>".toList)))
        ['<', 'a', '>', 'x', 'y', '<', 'b', '/', '>', ' ']
        [.opening ['a'] [] false, .text ['x', 'y'], .opening ['b'] [] true] [' '] :=
      @ReadTo.markup _ [] ['a', '>'] ['x', 'y', '<', 'b', '/', '>', ' '] [' ']
        (some (.opening ['a'] [] false)) [.text ['x', 'y'], .opening ['b'] [] true] (by simp)
        (by decide +kernel)
        (@ReadTo.markup _ ['x', 'y'] ['b', '/', '>'] [' '] [' '] (some (.opening ['b'] [] true)) []
          (by decide) (by decide +kernel) (.data (by decide)))
    have hxml : uncommented.toList = ['<', 'a', '>', 'x', 'y', '<', 'b', '/', '>', ' '] ++
        '<' :: ("?p?>".toList ++ (['z'] ++ "</a>".toList)) := by decide +kernel
    have hxml' : unannotated.toList = ['<', 'a', '>', 'x', 'y', '<', 'b', '/', '>', ' '] ++
        (['z'] ++ "</a>".toList) := by decide +kernel
    rw [hxml, hxml']
    exact .intro hfront (@Event.markup?_instruction _ ['p'] (by decide) (by decide)) (by decide)
      (by simp)
  -- no blanks stand beside the comment, and in front of the instruction there are only blanks
  have hjoined : Seamless ['x'] ['y'] := by
    refine .joined (by simp [isXmlSpace]) (by simp [isXmlSpace]) ?_ ?_
    · exact fun h => absurd (h ['x'] (by decide)) (by decide)
    · exact fun h => absurd (h ['y'] (by decide)) (by decide)
  have hblank : Seamless [' '] ['z'] := .blankBefore (by simp [isXmlSpace])
  have hshed : Relation.ReflTransGen Sheds annotated unannotated :=
    .tail (.single ⟨_, _, hcomment⟩) ⟨_, _, hinstruction⟩
  have hfit : Relation.ReflTransGen ShedsSeamless annotated unannotated :=
    .tail (.single ⟨_, _, hcomment, hjoined⟩) ⟨_, _, hinstruction, hblank⟩
  obtain ⟨r, hr⟩ := isSome_toOption.1
    (by decide +kernel : (readDocument annotated).toOption.isSome = true)
  obtain ⟨r', hr', -, hsame⟩ := comments_transparent hshed hr
  rw [hsame hfit] at hr'
  exact ⟨hshed, r, hr, hr'⟩

/-- A comment between two blanks, which are lost as long as it stands there. -/
theorem comment_hides_blanks : ¬∀ (xml xml' : String) (r : Option Element),
    Relation.ReflTransGen Sheds xml xml' → readDocument xml = .ok r →
      readDocument xml' = .ok r := by
  intro h
  have hfront : ReadTo ('<' :: ("!-- -->".toList ++ ([' ', 'y'] ++ "</a>".toList)))
      ['<', 'a', '>', 'x', ' '] [.opening ['a'] [] false] ['x', ' '] :=
    @ReadTo.markup _ [] ['a', '>'] ['x', ' '] ['x', ' '] (some (.opening ['a'] [] false)) []
      (by simp) (by decide +kernel) (.data (by decide))
  have hshed : Sheds "<a>x <!-- --> y</a>" "<a>x  y</a>" := by
    have hxml : "<a>x <!-- --> y</a>".toList = ['<', 'a', '>', 'x', ' '] ++
        '<' :: ("!-- -->".toList ++ ([' ', 'y'] ++ "</a>".toList)) := by decide +kernel
    have hxml' : "<a>x  y</a>".toList = ['<', 'a', '>', 'x', ' '] ++
        ([' ', 'y'] ++ "</a>".toList) := by decide +kernel
    refine ⟨['x', ' '], [' ', 'y'], ?_⟩
    rw [hxml, hxml']
    exact .intro hfront (@Event.markup?_comment _ [' '] (by decide)) (by decide) (by simp)
  have hcommented : ((readDocument "<a>x <!-- --> y</a>").toOption.bind id).map (·.content) =
      some "xy" := by decide +kernel
  have hbare : ((readDocument "<a>x  y</a>").toOption.bind id).map (·.content) = some "x  y" := by
    decide +kernel
  obtain ⟨e, he, hxy⟩ := Option.map_eq_some_iff.1 hcommented
  obtain ⟨r, hr, rfl⟩ := Option.bind_eq_some_iff.1 he
  have hsame := h _ _ _ (.single hshed) (toOption_ok.1 hr)
  rw [hsame] at hbare
  have hx_y : e.content = "x  y" := by simpa [Except.toOption] using hbare
  rw [hxy] at hx_y
  exact absurd hx_y (by decide)

end Texts

end DiscoveryMetadata.Xml
