import DiscoveryMetadata.Text.Basic
import Mathlib.Data.List.DropRight
import Mathlib.Data.List.TakeWhile
/-
  Texts that are read as they were written.
-/
namespace DiscoveryMetadata.Text

/-- A truth value is read as it was written. -/
@[simp]
theorem truth?_ofTruth (b : Bool) : truth? (ofTruth b) = some b := by cases b <;> decide

theorem ofTruth_ne_empty (b : Bool) : ofTruth b ≠ "" := by cases b <;> decide

/-- Nothing is left of a blank text without the white space at its ends. -/
theorem trim_of_isBlank {t : String} (h : isBlank t = true) : trim t = "" := by
  have hdrop : t.toList.dropWhile isSpace = [] :=
    List.dropWhile_eq_nil_iff.2 (List.all_eq_true.1 h)
  simp [trim, strip, hdrop]

section Ends

variable {p : Char → Bool} {cs : List Char} {s : String}

theorem isSpace_of_isXmlSpace {c : Char} (h : isXmlSpace c = true) : isSpace c = true := by
  simp only [isXmlSpace, Bool.or_eq_true, beq_iff_eq] at h
  rcases h with ((rfl | rfl) | rfl) | rfl <;> decide

/-- What is left of a text stands between the characters that were dropped. -/
theorem strip_between (p : Char → Bool) (cs : List Char) : ∃ a b : List Char,
    cs = a ++ (strip p cs ++ b) ∧ (∀ c ∈ a, p c = true) ∧ ∀ c ∈ b, p c = true := by
  refine ⟨cs.takeWhile p, (cs.dropWhile p).rtakeWhile p, ?_, fun c => List.mem_takeWhile_imp,
    fun c => List.mem_rtakeWhile_imp⟩
  calc cs = cs.takeWhile p ++ cs.dropWhile p := List.takeWhile_append_dropWhile.symm
    _ = cs.takeWhile p ++ (strip p cs ++ (cs.dropWhile p).rtakeWhile p) := by
      rw [strip, ← List.rdropWhile, List.rdropWhile_append_rtakeWhile]

/-- What is left of a text begins with a character that is kept. -/
theorem head?_strip : ∀ c ∈ (strip p cs).head?, p c = false := by
  intro c hc
  obtain ⟨r, hr⟩ := List.head?_eq_some_iff.1 hc
  have hhead : c ∈ (cs.dropWhile p).head? := by
    obtain ⟨b, hb⟩ : strip p cs <+: cs.dropWhile p := List.rdropWhile_prefix p _
    rw [← hb, hr]
    rfl
  have hkept := List.head?_dropWhile_not p cs
  rw [Option.mem_def.1 hhead] at hkept
  simpa using hkept

/-- What is left of a text ends with a character that is kept. -/
theorem getLast?_strip : ∀ c ∈ (strip p cs).getLast?, p c = false := by
  intro c hc
  rw [strip, List.getLast?_reverse] at hc
  have hkept := List.head?_dropWhile_not p (cs.dropWhile p).reverse
  rw [Option.mem_def.1 hc] at hkept
  simpa using hkept

/-- A text that begins and ends with characters that are kept stays as it is. -/
theorem strip_of_ends (hhead : ∀ c ∈ cs.head?, p c = false)
    (hlast : ∀ c ∈ cs.getLast?, p c = false) : strip p cs = cs := by
  have hdrop : ∀ cs : List Char, (∀ c ∈ cs.head?, p c = false) → cs.dropWhile p = cs := by
    rintro (_ | ⟨c, r⟩) hcs
    · rfl
    · rw [List.dropWhile_cons_of_neg (by simp [hcs c rfl])]
  rw [strip, hdrop _ hhead, hdrop _ (by rwa [List.head?_reverse]), List.reverse_reverse]

/-- What stands between dropped characters is left, if it begins and ends with kept ones. -/
theorem strip_append_append {a b : List Char} (ha : ∀ c ∈ a, p c = true) (hb : ∀ c ∈ b, p c = true)
    (hhead : ∀ c ∈ cs.head?, p c = false) (hlast : ∀ c ∈ cs.getLast?, p c = false) :
    strip p (a ++ (cs ++ b)) = cs := by
  have hends := strip_of_ends hhead hlast
  rw [strip, List.dropWhile_append_of_pos ha]
  cases cs with
  | nil =>
    have hdrop : b.dropWhile p = [] := List.dropWhile_eq_nil_iff.2 hb
    rw [List.nil_append, hdrop]
    rfl
  | cons c r =>
    have hc : p c = false := hhead c rfl
    rw [strip, List.dropWhile_cons_of_neg (by simp [hc])] at hends
    rw [List.cons_append, List.dropWhile_cons_of_neg (by simp [hc]), ← List.cons_append,
      List.reverse_append, List.dropWhile_append_of_pos (by simpa using hb), hends]

/-- Nothing is left of a text just if all of it is dropped. -/
theorem strip_eq_nil : strip p cs = [] ↔ ∀ c ∈ cs, p c = true := by
  constructor
  · intro h
    obtain ⟨a, b, hsplit, ha, hb⟩ := strip_between p cs
    rw [hsplit, h]
    simpa [or_imp, forall_and] using ⟨ha, hb⟩
  · intro h
    have hnil := @strip_append_append p [] cs [] h (by simp) (by simp) (by simp)
    simpa using hnil

/-- Where two texts are put together, what is left of them stands around what is dropped from the
ends that meet; nothing is, if there is nothing else in one of them, or no such end has any. -/
theorem strip_append (p : Char → Bool) (a b : List Char) : ∃ gap : List Char,
    strip p (a ++ b) = strip p a ++ (gap ++ strip p b) ∧ (∀ c ∈ gap, p c = true) ∧
      ((∀ c ∈ a, p c = true) ∨ (∀ c ∈ b, p c = true) ∨
        (∀ c ∈ a.getLast?, p c = false) ∧ (∀ c ∈ b.head?, p c = false) → gap = []) := by
  obtain ⟨a₁, a₂, ha, ha₁, ha₂⟩ := strip_between p a
  obtain ⟨b₁, b₂, hb, hb₁, hb₂⟩ := strip_between p b
  by_cases hblank : strip p a = [] ∨ strip p b = []
  case pos =>
    refine ⟨[], ?_, by simp, fun _ => rfl⟩
    rcases hblank with h | h
    · have hall : ∀ c ∈ a ++ b₁, p c = true :=
        List.forall_mem_append.2 ⟨strip_eq_nil.1 h, hb₁⟩
      have hassoc : a ++ b = (a ++ b₁) ++ (strip p b ++ b₂) := by
        conv_lhs => rw [hb]
        simp
      rw [hassoc, strip_append_append hall hb₂ head?_strip getLast?_strip, h]
      rfl
    · have hall : ∀ c ∈ a₂ ++ b, p c = true :=
        List.forall_mem_append.2 ⟨ha₂, strip_eq_nil.1 h⟩
      have hassoc : a ++ b = a₁ ++ (strip p a ++ (a₂ ++ b)) := by
        conv_lhs => rw [ha]
        simp
      rw [hassoc, strip_append_append ha₁ hall head?_strip getLast?_strip, h]
      simp
  case neg =>
    rw [not_or] at hblank
    -- something is left of both, so that the ends that meet stand inside and are kept
    refine ⟨a₂ ++ b₁, ?_, List.forall_mem_append.2 ⟨ha₂, hb₁⟩, ?_⟩
    · have hassoc : a ++ b = a₁ ++ ((strip p a ++ (a₂ ++ b₁ ++ strip p b)) ++ b₂) := by
        conv_lhs => rw [ha, hb]
        simp
      rw [hassoc]
      refine strip_append_append ha₁ hb₂ ?_ ?_
      · rw [List.head?_append_of_ne_nil _ hblank.1]
        exact head?_strip
      · rw [← List.append_assoc, List.getLast?_append_of_ne_nil _ hblank.2]
        exact getLast?_strip
    · rintro (h | h | ⟨hlast, hhead⟩)
      · exact absurd (strip_eq_nil.2 h) hblank.1
      · exact absurd (strip_eq_nil.2 h) hblank.2
      · have hnil₁ : a₂ = [] := by
          cases a₂ using List.reverseRecOn with
          | nil => rfl
          | append_singleton t c =>
            have hkept := hlast c (by rw [ha]; simp)
            rw [ha₂ c (by simp)] at hkept
            cases hkept
        have hnil₂ : b₁ = [] := by
          cases b₁ with
          | nil => rfl
          | cons c t =>
            have hkept := hhead c (by rw [hb]; rfl)
            rw [hb₁ c (by simp)] at hkept
            cases hkept
        rw [hnil₁, hnil₂]
        rfl

theorem strip_of_trim (h : trim s = s) : strip isSpace s.toList = s.toList := by
  have hlist := congrArg String.toList h
  rwa [trim, String.toList_ofList] at hlist

/-- A text that stays as it is without the white space at its ends begins with none. -/
theorem head?_of_trim (h : trim s = s) : ∀ c ∈ s.toList.head?, isSpace c = false :=
  strip_of_trim h ▸ head?_strip

/-- A text that stays as it is without the white space at its ends ends with none. -/
theorem getLast?_of_trim (h : trim s = s) : ∀ c ∈ s.toList.getLast?, isSpace c = false :=
  strip_of_trim h ▸ getLast?_strip

/-- A text without white space at its ends stays as it is. -/
theorem trim_of_ends (hhead : ∀ c ∈ s.toList.head?, isSpace c = false)
    (hlast : ∀ c ∈ s.toList.getLast?, isSpace c = false) : trim s = s := by
  rw [trim, strip_of_ends hhead hlast, String.ofList_toList]

/-- A text without white space stays as it is. -/
theorem trim_of_no_space (h : ∀ c ∈ s.toList, isSpace c = false) : trim s = s :=
  trim_of_ends (fun c hc => h c (List.mem_of_mem_head? hc))
    fun c hc => h c (List.mem_of_mem_getLast? hc)

end Ends

section Lists

/-- The text is not empty and holds no white space. -/
def IsWord (w : String) : Prop := w ≠ "" ∧ ∀ c ∈ w.toList, isSpace c = false

instance (w : String) : Decidable (IsWord w) :=
  decidable_of_iff (w ≠ "" ∧ (w.toList.all fun c => !isSpace c) = true) (by simp [IsWord])

theorem fields_ne_nil {sep : Char → Bool} (cs : List Char) : fields sep cs ≠ [] := by
  cases cs with
  | nil => simp [fields]
  | cons c r =>
    unfold fields
    split
    · simp
    · split <;> simp

/-- A separator parts the pieces before it from those behind it. -/
theorem fields_append {sep : Char → Bool} {c : Char} (hc : sep c = true) (w r : List Char) :
    fields sep (w ++ c :: r) = fields sep w ++ fields sep r := by
  induction w with
  | nil => simp [fields, hc]
  | cons d w ih =>
    rw [List.cons_append, fields, fields, ih]
    cases hw : fields sep w with
    | nil => exact absurd hw (fields_ne_nil w)
    | cons f fs => cases sep d <;> rfl

theorem fields_of_no_space {w : List Char} (hw : ∀ c ∈ w, isSpace c = false) :
    fields isSpace w = [w] := by
  induction w with
  | nil => rfl
  | cons c w ih =>
    obtain ⟨hc, hr⟩ := List.forall_mem_cons.1 hw
    rw [fields, if_neg (by simp [hc]), ih hr]

theorem not_sep_of_mem_fields {sep : Char → Bool} {cs w : List Char} (h : w ∈ fields sep cs) :
    ∀ c ∈ w, sep c = false := by
  induction cs generalizing w with
  | nil =>
    obtain rfl := List.mem_singleton.1 h
    simp
  | cons c r ih =>
    unfold fields at h
    by_cases hc : sep c = true
    · rw [if_pos hc] at h
      rcases List.mem_cons.1 h with rfl | h
      · simp
      · exact ih h
    · rw [if_neg hc] at h
      have hsep : sep c = false := by simpa using hc
      split at h
      · obtain rfl := List.mem_singleton.1 h
        simpa using hsep
      case _ f fs hf =>
        rw [hf] at ih
        rcases List.mem_cons.1 h with rfl | h
        · exact List.forall_mem_cons.2 ⟨hsep, ih (.head fs)⟩
        · exact ih (.tail f h)

/-- The words of a text are words. -/
theorem isWord_of_mem_words {w t : String} (h : w ∈ words t) : IsWord w := by
  obtain ⟨cs, hcs, rfl⟩ := List.mem_map.1 h
  obtain ⟨hcs, hne⟩ := List.mem_filter.1 hcs
  exact ⟨by simpa using hne, by simpa using not_sep_of_mem_fields hcs⟩

/-- A word has no other words than itself. -/
theorem words_of_isWord {w : String} (h : IsWord w) : words w = [w] := by
  have hne : w.toList ≠ [] := by simpa using h.1
  simp [words, fields_of_no_space h.2, hne]

theorem toList_unwords_cons (w x : String) (r : List String) :
    (unwords (w :: x :: r)).toList = w.toList ++ ' ' :: (unwords (x :: r)).toList := by
  rw [unwords, String.intercalate_cons_cons, ← unwords]
  simp

/-- The words of texts that were put together are the words of each of them. -/
theorem words_unwords_eq (ws : List String) : words (unwords ws) = ws.flatMap words := by
  induction ws with
  | nil => rfl
  | cons w r ih =>
    cases r with
    | nil => simp [unwords]
    | cons x r =>
      have hspace : isSpace ' ' = true := by decide
      rw [List.flatMap_cons, ← ih, words, toList_unwords_cons, fields_append hspace,
        List.filter_append, List.map_append]
      rfl

/-- Texts are their own words just if they are words. -/
theorem flatMap_words_eq_self {ws : List String} :
    ws.flatMap words = ws ↔ ∀ w ∈ ws, IsWord w := by
  constructor
  · intro h w hw
    rw [← h] at hw
    obtain ⟨t, -, hwords⟩ := List.mem_flatMap.1 hw
    exact isWord_of_mem_words hwords
  · intro h
    calc ws.flatMap words = ws.flatMap (fun w => [w]) :=
          List.flatMap_congr fun w hw => words_of_isWord (h w hw)
      _ = ws := List.flatMap_singleton' ws

/-- Words that were put together are found again. -/
theorem words_unwords {ws : List String} (h : ∀ w ∈ ws, IsWord w) : words (unwords ws) = ws :=
  (words_unwords_eq ws).trans (flatMap_words_eq_self.2 h)

theorem unwords_ne_empty {w : String} {ws : List String} (h : IsWord w) :
    unwords (w :: ws) ≠ "" := by
  cases ws with
  | nil => simpa [unwords] using h.1
  | cons x r =>
    intro he
    have hlist := congrArg String.toList he
    simp [toList_unwords_cons] at hlist

theorem head?_unwords {w : String} {ws : List String} (h : IsWord w) :
    (unwords (w :: ws)).toList.head? = w.toList.head? := by
  cases ws with
  | nil => simp [unwords]
  | cons x r =>
    have hne : w.toList ≠ [] := by simpa using h.1
    obtain ⟨c, hc⟩ := Option.isSome_iff_exists.1 (List.isSome_head?.2 hne)
    rw [toList_unwords_cons, List.head?_append, hc]
    rfl

theorem getLast?_unwords {w : String} {ws : List String} (h : ∀ x ∈ w :: ws, IsWord x) :
    ∃ x ∈ w :: ws, (unwords (w :: ws)).toList.getLast? = x.toList.getLast? := by
  induction ws generalizing w with
  | nil => exact ⟨w, List.mem_singleton_self w, by simp [unwords]⟩
  | cons x r ih =>
    obtain ⟨-, hr⟩ := List.forall_mem_cons.1 h
    obtain ⟨y, hy, hlast⟩ := ih hr
    refine ⟨y, List.mem_cons_of_mem w hy, ?_⟩
    have hne : y.toList ≠ [] := by simpa using (hr y hy).1
    obtain ⟨c, hc⟩ := Option.isSome_iff_exists.1 (List.getLast?_isSome.2 hne)
    rw [toList_unwords_cons, List.getLast?_append, List.getLast?_cons, hlast, hc]
    rfl

/-- Words that were put together have no white space at the ends. -/
theorem trim_unwords {ws : List String} (h : ∀ w ∈ ws, IsWord w) :
    trim (unwords ws) = unwords ws := by
  cases ws with
  | nil => rfl
  | cons w r =>
    refine trim_of_ends ?_ ?_
    · rw [head?_unwords (h w List.mem_cons_self)]
      exact fun c hc => (h w List.mem_cons_self).2 c (List.mem_of_mem_head? hc)
    · obtain ⟨x, hx, hlast⟩ := getLast?_unwords h
      rw [hlast]
      exact fun c hc => (h x hx).2 c (List.mem_of_mem_getLast? hc)

end Lists

end DiscoveryMetadata.Text
