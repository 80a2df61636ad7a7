import DiscoveryMetadata.Proofs.Text.Words
import DiscoveryMetadata.Proofs.Xml.Tag
/-
  The events of a text.

  What is written for an element is a tag, or an opening tag, character data, the elements inside
  and a closing tag. Each of these is read as the event that it was written for, whatever follows
  it: `ofChars_open`, `ofChars_closed` and `ofChars_closing` for tags, and `ofChars_text` for
  character data in front of a tag. The blanks before an event are passed over (`ofChars_blanks`),
  and so are those behind character data.

  Any character data is read up to the markup behind it (`ofChars_data`), and any markup that is not
  the last thing in a text is read alike whatever is behind it (`markup?_some`). Comments and
  processing instructions are markup that is passed over (`markup?_comment`,
  `markup?_instruction`).
-/
namespace DiscoveryMetadata.Xml.Event

open Text (isXmlSpace)

section Steps

variable {cs r rest : List Char} {c : Char} {e : Event}

theorem ofChars_nil : ofChars [] = [] := by
  rw [ofChars]
  rfl

/-- Markup at the beginning of a text gives its event, if it has one, and then those of what
follows. -/
theorem ofChars_begins {e : Option Event} (h : markup? cs = some (e, rest)) :
    ofChars ('<' :: cs) = e.toList ++ ofChars rest := by
  have hsp : ('<' :: cs).dropWhile isXmlSpace = '<' :: cs :=
    List.dropWhile_cons_of_neg (by decide)
  rw [ofChars]
  split
  · rename_i heq
    rw [hsp] at heq
    cases heq
  · rename_i heq
    rw [hsp] at heq
    cases heq
    cases h
  · rename_i x t heq
    rw [hsp] at heq
    cases heq
    split <;> rename_i hm <;> cases h.symm.trans hm <;> rfl
  · rename_i hnil hcons heq
    rw [hsp] at heq
    cases heq
    cases cs with
    | nil => exact (hnil rfl rfl).elim
    | cons x t => exact (hcons x t rfl rfl).elim

theorem ofChars_markup (h : markup? cs = some (some e, rest)) :
    ofChars ('<' :: cs) = e :: ofChars rest :=
  ofChars_begins h

/-- Blanks before an event are passed over. -/
theorem ofChars_blanks {blanks : List Char} (h : ∀ c ∈ blanks, isXmlSpace c = true) :
    ofChars (blanks ++ rest) = ofChars rest := by
  have hsp : (blanks ++ rest).dropWhile isXmlSpace = rest.dropWhile isXmlSpace :=
    List.dropWhile_append_of_pos h
  rw [ofChars, ofChars, hsp]

/-- Character data in front of a tag or the end is one event, without the blanks behind it, if it
has no blanks at its ends. -/
theorem ofChars_text {blanks : List Char} (hne : cs ≠ []) (hlt : '<' ∉ cs)
    (hhead : ∀ c ∈ cs.head?, isXmlSpace c = false)
    (hlast : ∀ c ∈ cs.getLast?, isXmlSpace c = false)
    (hblanks : ∀ c ∈ blanks, isXmlSpace c = true) (hrest : ∀ c ∈ rest.head?, c = '<') :
    ofChars (cs ++ (blanks ++ rest)) = .text cs :: ofChars rest := by
  obtain ⟨c, r, rfl⟩ := List.exists_cons_of_ne_nil hne
  simp only [List.mem_cons, not_or] at hlt
  have hc : isXmlSpace c = false := hhead c rfl
  have hsp : (c :: r ++ (blanks ++ rest)).dropWhile isXmlSpace = c :: (r ++ (blanks ++ rest)) :=
    List.dropWhile_cons_of_neg (by simp [hc])
  -- what is taken as character data ends where the tag begins
  have hall : ∀ x ∈ r ++ blanks, (x != '<') = true := by
    intro x hx
    have hne : x ≠ '<' := by
      rintro rfl
      rcases List.mem_append.1 hx with hx | hx
      · exact hlt.2 hx
      · exact absurd (hblanks _ hx) (by decide)
    simpa using hne
  have hstop : rest.takeWhile (· != '<') = [] ∧ rest.dropWhile (· != '<') = rest := by
    cases rest with
    | nil => exact ⟨rfl, rfl⟩
    | cons x t =>
      obtain rfl := hrest x rfl
      exact ⟨rfl, rfl⟩
  have htake : (r ++ (blanks ++ rest)).takeWhile (· != '<') = r ++ blanks := by
    rw [← List.append_assoc, List.takeWhile_append_of_pos hall, hstop.1, List.append_nil]
  have hdrop : (r ++ (blanks ++ rest)).dropWhile (· != '<') = rest := by
    rw [← List.append_assoc, List.dropWhile_append_of_pos hall, hstop.2]
  have hend : ((c :: (r ++ blanks)).reverse.dropWhile isXmlSpace).reverse = c :: r := by
    have hd : (c :: r).reverse.dropWhile isXmlSpace = (c :: r).reverse := by
      obtain ⟨i, l, hl⟩ : ∃ i l, c :: r = i ++ [l] :=
        ⟨_, _, (List.dropLast_append_getLast (List.cons_ne_nil c r)).symm⟩
      rw [hl, List.reverse_append, List.reverse_singleton, List.singleton_append]
      refine List.dropWhile_cons_of_neg ?_
      rw [hlast l (by rw [hl, List.getLast?_concat]; rfl)]
      decide
    rw [← List.cons_append, List.reverse_append, List.dropWhile_append_of_pos, hd,
      List.reverse_reverse]
    exact fun x hx => hblanks x (List.mem_reverse.1 hx)
  rw [ofChars]
  split
  · rename_i heq
    rw [hsp] at heq
    cases heq
  · rename_i heq
    rw [hsp] at heq
    exact absurd (List.cons.inj heq).1.symm hlt.1
  · rename_i heq
    rw [hsp] at heq
    exact absurd (List.cons.inj heq).1.symm hlt.1
  · rename_i heq
    rw [hsp] at heq
    cases heq
    simp only [htake, hdrop, hend]

end Steps

section Data

variable {d rest : List Char}

/-- The event of character data, if there is more in it than blanks. -/
def ofData (d : List Char) : List Event :=
  match Text.strip isXmlSpace d with
  | [] => []
  | cs => [.text cs]

/-- Character data in front of markup or the end is read up to there. -/
theorem ofChars_data (hd : '<' ∉ d) (hrest : ∀ c ∈ rest.head?, c = '<') :
    ofChars (d ++ rest) = ofData d ++ ofChars rest := by
  obtain ⟨a, b, hsplit, ha, hb⟩ := Text.strip_between isXmlSpace d
  have hhead : ∀ c ∈ (Text.strip isXmlSpace d).head?, isXmlSpace c = false := Text.head?_strip
  have hlast : ∀ c ∈ (Text.strip isXmlSpace d).getLast?, isXmlSpace c = false :=
    Text.getLast?_strip
  rw [ofData]
  generalize Text.strip isXmlSpace d = cs at hsplit hhead hlast
  subst hsplit
  rw [List.append_assoc, List.append_assoc, ofChars_blanks ha]
  split
  case h_1 => rw [List.nil_append, ofChars_blanks hb, List.nil_append]
  case h_2 hne =>
    refine ofChars_text (by simpa using hne) ?_ hhead hlast hb hrest
    exact fun hlt => hd (List.mem_append_right _ (List.mem_append_left _ hlt))

end Data

section Markup

variable {cs s r : List Char} {e : Option Event}

/-- Where a search ends does not depend on what is behind. -/
theorem closeWhere?_some {done : List Char → Bool} {seen : List Char}
    (h : closeWhere? done seen cs = some (s, r)) : ∃ u, cs = u ++ '>' :: r ∧
      s = u.reverse ++ seen ∧ done s = true ∧
        ∀ r', closeWhere? done seen (u ++ '>' :: r') = some (s, r') := by
  induction cs generalizing seen with
  | nil => cases h
  | cons c t ih =>
    rw [closeWhere?] at h
    split at h
    case isTrue hc =>
      obtain ⟨rfl, rfl⟩ := Prod.mk.inj (Option.some.inj h)
      obtain ⟨rfl, hdone⟩ : c = '>' ∧ done seen = true := by simpa using hc
      exact ⟨[], rfl, rfl, hdone, fun r' => by simp [closeWhere?, hdone]⟩
    case isFalse hc =>
      obtain ⟨u, rfl, hs, hdone, hall⟩ := ih h
      refine ⟨c :: u, rfl, by simp [hs], hdone, fun r' => ?_⟩
      rw [List.cons_append, closeWhere?, if_neg hc, hall]

theorem tagEnd?_some {q : Option Char} (h : tagEnd? q cs = some (s, r)) :
    cs = s ++ '>' :: r ∧ ∀ r', tagEnd? q (s ++ '>' :: r') = some (s, r') := by
  induction cs generalizing q s with
  | nil => cases q <;> cases h
  | cons c t ih =>
    cases q with
    | none =>
      rw [tagEnd?] at h
      split at h
      case isTrue hc =>
        obtain ⟨rfl, rfl⟩ := Prod.mk.inj (Option.some.inj h)
        exact ⟨by rw [hc]; rfl, fun r' => by simp [tagEnd?]⟩
      case isFalse hc =>
        obtain ⟨⟨a, b⟩, hab, heq⟩ := Option.map_eq_some_iff.1 h
        obtain ⟨rfl, rfl⟩ := Prod.mk.inj heq
        obtain ⟨rfl, hall⟩ := ih hab
        exact ⟨rfl, fun r' => by rw [List.cons_append, tagEnd?, if_neg hc, hall]; rfl⟩
    | some q =>
      rw [tagEnd?] at h
      obtain ⟨⟨a, b⟩, hab, heq⟩ := Option.map_eq_some_iff.1 h
      obtain ⟨rfl, rfl⟩ := Prod.mk.inj heq
      obtain ⟨rfl, hall⟩ := ih hab
      exact ⟨rfl, fun r' => by rw [List.cons_append, tagEnd?, hall]; rfl⟩

/-- Reading to an angle ends there, or takes all. -/
theorem toAngle_cases (cs : List Char) : (toAngle cs).2 = [] ∨
    ∃ u, cs = u ++ '>' :: (toAngle cs).2 ∧
      ∀ r', toAngle (u ++ '>' :: r') = ((toAngle cs).1, r') := by
  induction cs with
  | nil => exact .inl rfl
  | cons c t ih =>
    by_cases hc : c = '>'
    · refine .inr ⟨[], ?_, fun r' => ?_⟩ <;> simp [toAngle, hc]
    · have hcons : toAngle (c :: t) = (c :: (toAngle t).1, (toAngle t).2) := by simp [toAngle, hc]
      rw [hcons]
      rcases ih with h | ⟨u, h, hall⟩
      · exact .inl h
      · refine .inr ⟨c :: u, congrArg (c :: ·) h, fun r' => ?_⟩
        have := hall r'
        simp only [toAngle, Prod.mk.injEq] at this ⊢
        simp [hc, this]

theorem comment?_some (h : comment? cs = some (e, r)) :
    ∃ u, cs = u ++ '>' :: r ∧ ∀ r', comment? (u ++ '>' :: r') = some (e, r') := by
  unfold comment? at h
  split at h
  case h_1 hclose =>
    obtain ⟨u, rfl, rfl, hdone, hall⟩ := closeWhere?_some hclose
    -- what is looked at in front stands before the end
    have htake : ∀ r', (u ++ '>' :: r').take 2 = u.take 2 := by
      intro r'
      refine List.take_append_of_le_length ?_
      simp only [Bool.and_eq_true, decide_eq_true_eq, List.length_append, List.length_reverse,
        List.length_singleton] at hdone
      omega
    split at h
    case isTrue hbegins =>
      obtain ⟨rfl, rfl⟩ := Prod.mk.inj (Option.some.inj h)
      refine ⟨u, rfl, fun r' => ?_⟩
      rw [comment?, hall]
      refine if_pos ?_
      simp only [beginsWith, List.length_cons, List.length_nil, htake] at hbegins ⊢
      exact hbegins
    case isFalse => cases h
  case h_2 => cases h

theorem section?_some (h : section? cs = some (e, r)) :
    ∃ u, cs = u ++ '>' :: r ∧ ∀ r', section? (u ++ '>' :: r') = some (e, r') := by
  unfold section? at h
  split at h
  case h_1 hclose =>
    obtain ⟨u, rfl, -, -, hall⟩ := closeWhere?_some hclose
    simp only at h
    split at h
    case isTrue hbegins =>
      obtain ⟨rfl, rfl⟩ := Prod.mk.inj (Option.some.inj h)
      refine ⟨u, rfl, fun r' => ?_⟩
      simp only [section?, hall, if_pos hbegins]
    case isFalse => cases h
  case h_2 => cases h

theorem doctype?_some (h : doctype? cs = some (e, r)) :
    ∃ u, cs = u ++ '>' :: r ∧ ∀ r', doctype? (u ++ '>' :: r') = some (e, r') := by
  unfold doctype? at h
  split at h
  case h_1 hclose =>
    obtain ⟨u, rfl, -, -, hall⟩ := closeWhere?_some hclose
    simp only at h
    split at h
    case isTrue hbegins =>
      obtain ⟨rfl, rfl⟩ := Prod.mk.inj (Option.some.inj h)
      refine ⟨u, rfl, fun r' => ?_⟩
      simp only [doctype?, hall, if_pos hbegins]
    case isFalse => cases h
  case h_2 => cases h

theorem exists_cons_before {c : Char} {u : List Char} (h : c :: cs = u ++ '>' :: r)
    (hc : c ≠ '>') : ∃ t, u = c :: t := by
  cases u with
  | nil => exact absurd (List.cons.inj h).1 hc
  | cons x t => exact ⟨t, by rw [(List.cons.inj h).1]⟩

/-- Markup of none of the other sorts is a tag. -/
theorem head?_of_default (h : ∀ c t, cs = '!' :: c :: t → False) (h' : cs = ['!'] → False)
    (hclosing : ∀ t, cs = '/' :: t → False) (hasking : ∀ t, cs = '?' :: t → False) :
    ∀ c ∈ cs.head?, c ≠ '!' ∧ c ≠ '/' ∧ c ≠ '?' := by
  cases cs with
  | nil => simp
  | cons x t =>
    intro c hc
    obtain rfl := Option.some.inj hc
    refine ⟨?_, fun hx => hclosing t (by rw [hx]), fun hx => hasking t (by rw [hx])⟩
    rintro rfl
    cases t with
    | nil => exact h' rfl
    | cons y t => exact h y t rfl

/-- Markup that is not the last thing in a text is read alike whatever is behind it. -/
theorem markup?_some (h : markup? cs = some (e, r)) (hr : r ≠ []) :
    ∃ m, cs = m ++ r ∧ ∀ r', markup? (m ++ r') = some (e, r') := by
  -- markup ends with the `>` that its kind looks for, and nothing behind that is looked at
  suffices hends : ∃ u, cs = u ++ '>' :: r ∧ ∀ r', markup? (u ++ '>' :: r') = some (e, r') by
    obtain ⟨u, rfl, hall⟩ := hends
    exact ⟨u ++ ['>'], by simp, by simpa using hall⟩
  unfold markup? at h
  split at h
  case h_1 t =>
    obtain ⟨u, hu, hall⟩ := comment?_some h
    obtain ⟨v, rfl⟩ := exists_cons_before hu (by decide)
    exact ⟨'!' :: '-' :: v, congrArg ('!' :: ·) hu, hall⟩
  case h_2 t =>
    obtain ⟨u, hu, hall⟩ := section?_some h
    obtain ⟨v, rfl⟩ := exists_cons_before hu (by decide)
    exact ⟨'!' :: '[' :: v, congrArg ('!' :: ·) hu, hall⟩
  case h_3 c t hdash hbracket =>
    split at h
    case isTrue hc =>
      obtain ⟨u, hu, hall⟩ := doctype?_some h
      have hletter : c = 'd' ∨ c = 'D' := by simpa using hc
      obtain ⟨v, rfl⟩ := exists_cons_before hu (by rcases hletter with rfl | rfl <;> decide)
      refine ⟨'!' :: c :: v, congrArg ('!' :: ·) hu, fun r' => ?_⟩
      rw [List.cons_append, List.cons_append, markup?.eq_3 _ _ hdash hbracket, if_pos hc]
      exact hall r'
    case isFalse => cases h
  case h_4 => cases h
  case h_5 t =>
    obtain ⟨rfl, rfl⟩ := Prod.mk.inj (Option.some.inj h)
    rcases toAngle_cases t with hnil | ⟨u, hu, hall⟩
    · exact absurd hnil hr
    · refine ⟨'/' :: u, congrArg ('/' :: ·) hu, fun r' => ?_⟩
      simp only [List.cons_append, markup?, hall]
      rfl
  case h_6 t =>
    simp only at h
    split at h
    case isTrue hinside =>
      obtain ⟨rfl, rfl⟩ := Prod.mk.inj (Option.some.inj h)
      rcases toAngle_cases t with hnil | ⟨u, hu, hall⟩
      · exact absurd hnil hr
      · refine ⟨'?' :: u, congrArg ('?' :: ·) hu, fun r' => ?_⟩
        simp only [List.cons_append, markup?, hall, if_pos hinside]
    case isFalse => cases h
  case h_7 t h1 h2 h3 h4 h5 h6 =>
    obtain ⟨⟨inside, rest⟩, htag, heq⟩ := Option.map_eq_some_iff.1 h
    obtain ⟨rfl, rfl⟩ := Prod.mk.inj heq
    obtain ⟨rfl, hall⟩ := tagEnd?_some htag
    have hhead : ∀ r', ∀ c ∈ (inside ++ '>' :: r').head?, c ≠ '!' ∧ c ≠ '/' ∧ c ≠ '?' := by
      intro r'
      have hsame : (inside ++ '>' :: r').head? = (inside ++ '>' :: rest).head? := by
        cases inside <;> rfl
      rw [hsame]
      exact head?_of_default h3 h4 h5 h6
    refine ⟨inside, rfl, fun r' => ?_⟩
    rw [markup?_tag (hhead r'), hall]
    rfl

/-- A search ends at the first `>` that fits. -/
theorem closeWhere?_of {done : List Char → Bool} {seen u : List Char}
    (hdone : done (u.reverse ++ seen) = true)
    (hfirst : ∀ v w, u = v ++ '>' :: w → done (v.reverse ++ seen) = false) :
    closeWhere? done seen (u ++ '>' :: r) = some (u.reverse ++ seen, r) := by
  induction u generalizing seen with
  | nil =>
    have hdone : done seen = true := hdone
    simp [closeWhere?, hdone]
  | cons c u ih =>
    have hc : ¬(decide (c = '>') && done seen) = true := by
      rw [Bool.and_eq_true, not_and, decide_eq_true_eq]
      rintro rfl hseen
      exact Bool.false_ne_true ((hfirst [] u rfl).symm.trans hseen)
    have hrest := @ih (c :: seen) (by simpa using hdone) fun v w hv => by
      simpa using hfirst (c :: v) w (by rw [hv]; rfl)
    rw [List.cons_append, closeWhere?, if_neg hc, hrest]
    simp

theorem eq_hyphen_of_toLower {c : Char} (h : c.toLower = '-') : c = '-' := by
  unfold Char.toLower at h
  split at h
  case isTrue hc =>
    obtain ⟨hA, hZ⟩ := hc
    have hval : (c.val + 32).toNat = 45 := by
      rw [show c.val + 32 = 45 by simpa using congrArg Char.val h]
      rfl
    rw [ge_iff_le, UInt32.le_iff_toNat_le] at hA
    rw [UInt32.le_iff_toNat_le] at hZ
    simp only [UInt32.toNat_add, UInt32.reduceToNat, Char.reduceVal] at hval hA hZ
    omega
  case isFalse => exact h

/-- What has two hyphens in front when it is read from its end, ends with them. -/
theorem exists_hyphens {v : List Char} (hlength : 2 ≤ v.length)
    (h : beginsWith ['-', '-'] (v.reverse ++ s) = true) : ∃ t, v = t ++ ['-', '-'] := by
  rw [← List.length_reverse] at hlength
  match hv : v.reverse with
  | [] => simp [hv] at hlength
  | [_] => simp [hv] at hlength
  | a :: b :: t =>
    rw [hv] at h
    have hhyphens : a.toLower = '-' ∧ b.toLower = '-' := by simpa [beginsWith] using h
    refine ⟨t.reverse, List.reverse_inj.1 ?_⟩
    rw [hv, eq_hyphen_of_toLower hhyphens.1, eq_hyphen_of_toLower hhyphens.2]
    simp

/-- A comment is passed over. -/
theorem markup?_comment {text : List Char} (h : ¬['-', '-', '>'] <:+: text) :
    markup? ('!' :: '-' :: '-' :: (text ++ '-' :: '-' :: '>' :: r)) = some (none, r) := by
  have hassoc : '-' :: '-' :: (text ++ '-' :: '-' :: '>' :: r) =
      ('-' :: '-' :: (text ++ ['-', '-'])) ++ '>' :: r := by simp
  change comment? ('-' :: '-' :: (text ++ '-' :: '-' :: '>' :: r)) = _
  rw [hassoc, comment?, closeWhere?_of]
  case hdone => simp [beginsWith]
  case hfirst =>
    intro v w hv
    -- no two hyphens stand in front of an earlier `>`, or only those that open the comment
    rw [← Bool.not_eq_true, Bool.and_eq_true, decide_eq_true_eq]
    rintro ⟨hlength, hbegins⟩
    simp only [List.length_append, List.length_reverse, List.length_singleton] at hlength
    obtain ⟨x, v, rfl⟩ := List.exists_cons_of_length_pos (l := v) (by omega)
    obtain ⟨y, v, rfl⟩ := List.exists_cons_of_length_pos (l := v) (by simp at hlength; omega)
    have hv : text ++ ['-', '-'] = v ++ '>' :: w := by
      simpa using (List.cons.inj (List.cons.inj hv).2).2
    obtain ⟨t, rfl⟩ : ∃ t, v = t ++ ['-', '-'] :=
      exists_hyphens (by simp at hlength; omega) (by simpa using hbegins)
    have hend : text ++ ['-', '-'] = (t ++ ['-', '-', '>']) ++ w := by simpa using hv
    rcases List.append_eq_append_iff.1 hend with ⟨a, ha, hw⟩ | ⟨a, ha, -⟩
    · cases a using List.reverseRecOn with
      | nil =>
        rw [List.append_nil] at ha
        exact h ⟨t, [], by rw [← ha]; simp⟩
      | append_singleton a c =>
        have hc : c ∈ ['-', '-'] := by rw [hw]; simp
        have hlast : (t ++ ['-', '-', '>']).getLast? = some c := by rw [ha]; simp
        have hangle : '>' = c := by simpa using hlast
        simp [← hangle] at hc
    · exact h ⟨t, a, ha.symm⟩
  rfl

/-- A processing instruction is passed over. -/
theorem markup?_instruction {text : List Char} (hne : text ≠ []) (h : '>' ∉ text) :
    markup? ('?' :: (text ++ '?' :: '>' :: r)) = some (none, r) := by
  have hangle : ∀ c ∈ text ++ ['?'], (c != '>') = true := by
    intro c hc
    rcases List.mem_append.1 hc with hc | hc
    · have hne : c ≠ '>' := fun he => h (he ▸ hc)
      simpa using hne
    · rw [List.mem_singleton.1 hc]
      rfl
  have hassoc : text ++ '?' :: '>' :: r = (text ++ ['?']) ++ '>' :: r := by simp
  have htake : toAngle (text ++ '?' :: '>' :: r) = (text ++ ['?'], r) := by
    rw [hassoc, toAngle, List.takeWhile_append_of_pos hangle, List.dropWhile_append_of_pos hangle]
    simp
  have hpos := List.length_pos_of_ne_nil hne
  simp only [markup?, htake]
  rw [if_pos (by simpa using hpos)]

end Markup

section Tags

variable {name rest : List Char}

/-- What stands behind the beginning of a name is read as a tag, whatever its other end. -/
theorem markup?_named (hn : IsTagName name) {s : List Char}
    (hs : ∀ c ∈ s.head?, c ≠ '!' ∧ c ≠ '/' ∧ c ≠ '?') : markup? (name ++ s) =
      (tagEnd? none (name ++ s)).map fun (inside, rest) => (some (ofTag inside), rest) := by
  refine markup?_tag ?_
  cases name with
  | nil => exact hs
  | cons c r => exact hn.head

/-- Behind the name of a written tag stands a blank or what ends the tag. -/
theorem head?_attributes (as : List RawAttribute) {s : List Char}
    (hs : ∀ c ∈ s.head?, c ≠ '!' ∧ c ≠ '/' ∧ c ≠ '?') :
    ∀ c ∈ (as.flatMap RawAttribute.written ++ s).head?, c ≠ '!' ∧ c ≠ '/' ∧ c ≠ '?' := by
  rcases attributes_ends as with h | ⟨m, h⟩
  · rwa [h]
  · rw [h]
    rintro c hc
    obtain rfl := Option.some.inj hc
    decide

theorem ofChars_open (hn : IsTagName name) (hq : Unquoted name)
    (hslash : name.getLast? ≠ some '/') {as : List RawAttribute}
    (ha : ∀ x ∈ as, Unquoted x.name.toList) :
    ofChars ('<' :: (name ++ as.flatMap RawAttribute.written ++ '>' :: rest)) =
      .opening name (as.flatMap RawAttribute.written) false :: ofChars rest := by
  refine ofChars_markup ?_
  rw [List.append_assoc]
  refine (markup?_named hn (head?_attributes as (by simp))).trans ?_
  rw [← List.append_assoc, (passes_inside hq ha).tagEnd? rest,
    ← ofTag_open hn.not_space hslash as]
  rfl

theorem ofChars_closed (hn : IsTagName name) (hq : Unquoted name) {as : List RawAttribute}
    (ha : ∀ x ∈ as, Unquoted x.name.toList) :
    ofChars ('<' :: (name ++ as.flatMap RawAttribute.written ++ ' ' :: '/' :: '>' :: rest)) =
      .opening name (as.flatMap RawAttribute.written ++ [' ']) true :: ofChars rest := by
  have hpasses : Passes (name ++ as.flatMap RawAttribute.written ++ [' ', '/']) :=
    (passes_inside hq ha).append
      ((Passes.single (c := ' ') (by decide)).append (Passes.single (c := '/') (by decide)))
  refine ofChars_markup ?_
  rw [List.append_assoc]
  refine (markup?_named hn (head?_attributes as (by simp))).trans ?_
  have hassoc : name ++ (as.flatMap RawAttribute.written ++ ' ' :: '/' :: '>' :: rest) =
      name ++ as.flatMap RawAttribute.written ++ [' ', '/'] ++ '>' :: rest := by
    simp
  rw [hassoc, hpasses.tagEnd? rest, ← ofTag_closed hn.not_space as]
  rfl

theorem closingName_plain (hn : Plain name) : closingName name = name := by
  obtain ⟨i, l, rfl⟩ : ∃ i l, name = i ++ [l] :=
    ⟨_, _, (List.dropLast_append_getLast hn.ne_nil).symm⟩
  have hl : l ∈ i ++ [l] := by simp
  have hend : (isXmlSpace l || l == '\x0c') = false := by
    simp [hn.not_space hl, (hn.ne hl).2.2.2.2.2.2.2.2]
  have hd : (i ++ [l]).reverse.dropWhile (fun c => isXmlSpace c || c == '\x0c') =
      l :: i.reverse := by
    rw [List.reverse_append, List.reverse_singleton, List.singleton_append]
    exact List.dropWhile_cons_of_neg (by simp [hend])
  simp only [closingName, hd]
  simp

theorem ofChars_closing (hq : Unquoted name) (hend : closingName name = name) :
    ofChars ('<' :: '/' :: (name ++ '>' :: rest)) = .closing name :: ofChars rest := by
  refine ofChars_markup ?_
  have hall : ∀ c ∈ name, (c != '>') = true := fun c hc => by simpa using (hq c hc).1
  have htake : toAngle (name ++ '>' :: rest) = (name, rest) := by
    rw [toAngle, List.takeWhile_append_of_pos hall, List.dropWhile_append_of_pos hall]
    simp
  simp only [markup?, htake, hend]

end Tags

end DiscoveryMetadata.Xml.Event
