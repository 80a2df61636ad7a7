import DiscoveryMetadata.Proofs.Outcome
import DiscoveryMetadata.Proofs.Text.Escape
import DiscoveryMetadata.Xml.Event
import DiscoveryMetadata.Xml.Tag
import Mathlib.Data.List.Induction
/-
  Tags that are written and read back.

  In a tag stand a name and attributes, each of them a plain name and an escaped value between
  quotes. The end of such a tag is found where it was written (`Passes`), its name is told from its
  attributes (`ofTag_open`, `ofTag_closed`), and the attributes are read as they were
  (`read_written`).
-/
namespace DiscoveryMetadata.Xml

open Text (isXmlSpace)

/-- A character that stands for nothing but itself in a tag. -/
def isPlain (c : Char) : Bool :=
  !isXmlSpace c && !(['<', '>', '=', '"', '\'', '/', '!', '?', '\x0c'].contains c)

/-- The characters make up a name, or several with colons between them. -/
def Plain (cs : List Char) : Prop := cs ≠ [] ∧ ∀ c ∈ cs, isPlain c = true

namespace Plain

variable {a b cs : List Char} {c : Char}

theorem ne_nil (h : Plain cs) : cs ≠ [] := h.1

theorem not_space (h : Plain cs) (hc : c ∈ cs) : isXmlSpace c = false := by
  have := h.2 c hc
  simp only [isPlain, Bool.and_eq_true, Bool.not_eq_true'] at this
  exact this.1

theorem ne (h : Plain cs) (hc : c ∈ cs) :
    c ≠ '<' ∧ c ≠ '>' ∧ c ≠ '=' ∧ c ≠ '"' ∧ c ≠ '\'' ∧ c ≠ '/' ∧ c ≠ '!' ∧ c ≠ '?' ∧ c ≠ '\x0c' := by
  have := h.2 c hc
  simp only [isPlain, Bool.and_eq_true, Bool.not_eq_true'] at this
  simpa using this.2

theorem append (ha : Plain a) (hb : Plain b) : Plain (a ++ ':' :: b) := by
  refine ⟨by simp, ?_⟩
  intro c hc
  rcases List.mem_append.1 hc with hc | hc
  · exact ha.2 c hc
  · rcases List.mem_cons.1 hc with rfl | hc
    · decide
    · exact hb.2 c hc

end Plain

/-- Neither the end of a tag is among the characters nor a quote that could hide it. -/
def Unquoted (cs : List Char) : Prop := ∀ c ∈ cs, c ≠ '>' ∧ c ≠ '"' ∧ c ≠ '\''

/-- The characters are taken for the name of an attribute if an equals sign follows. -/
structure IsKey (cs : List Char) : Prop where
  ne_nil : cs ≠ []
  head : ∀ c ∈ cs.head?, isXmlSpace c = false
  tail : ∀ c ∈ cs.tail, c ≠ '=' ∧ isXmlSpace c = false

/-- The characters are taken for the name of a tag, however far they are. -/
structure IsTagName (cs : List Char) : Prop where
  not_space : ∀ c ∈ cs, isXmlSpace c = false
  head : ∀ c ∈ cs.head?, c ≠ '!' ∧ c ≠ '/' ∧ c ≠ '?'

namespace Plain

variable {cs : List Char}

theorem unquoted (h : Plain cs) : Unquoted cs := fun _ hc =>
  ⟨(h.ne hc).2.1, (h.ne hc).2.2.2.1, (h.ne hc).2.2.2.2.1⟩

theorem isKey (h : Plain cs) : IsKey cs where
  ne_nil := h.ne_nil
  head _ hc := h.not_space (List.mem_of_mem_head? hc)
  tail _ hc := ⟨(h.ne (List.mem_of_mem_tail hc)).2.2.1, h.not_space (List.mem_of_mem_tail hc)⟩

theorem isTagName (h : Plain cs) : IsTagName cs where
  not_space _ hc := h.not_space hc
  head _ hc := by
    have hne := h.ne (List.mem_of_mem_head? hc)
    exact ⟨hne.2.2.2.2.2.2.1, hne.2.2.2.2.2.1, hne.2.2.2.2.2.2.2.1⟩

theorem getLast?_ne (h : Plain cs) : cs.getLast? ≠ some '/' :=
  fun hl => (h.ne (List.mem_of_getLast? hl)).2.2.2.2.2.1 rfl

end Plain

namespace RawAttribute

/-- The attribute as it is written in a tag, with the blank before it. -/
def written (a : RawAttribute) : List Char :=
  ' ' :: (a.name.toList ++ '=' :: '"' :: (Text.escape a.value).toList ++ ['"'])

variable {seen : List (List Char)} {cs after raw rest value name tail : List Char} {c : Char}

theorem splitAt?_append {m : Char} {a : List Char} (h : m ∉ a) (b : List Char) :
    splitAt? m (a ++ m :: b) = some (a, b) := by
  induction a with
  | nil => simp [splitAt?]
  | cons c r ih =>
    simp only [List.mem_cons, not_or] at h
    rw [List.cons_append, splitAt?, if_neg (Ne.symm h.1), ih h.2]
    rfl

theorem key?_append (h : IsKey name) (rest : List Char) :
    key? (name ++ '=' :: rest) = some (name, rest) := by
  obtain ⟨hne, -, htail⟩ := h
  cases name with
  | nil => exact absurd rfl hne
  | cons c r =>
    have hin : ∀ x ∈ r, (x != '=' && !isXmlSpace x) = true := by
      intro x hx
      simpa using htail x hx
    have htake : (r ++ '=' :: rest).takeWhile (fun x => x != '=' && !isXmlSpace x) = r := by
      rw [List.takeWhile_append_of_pos hin]
      simp
    have hdrop : (r ++ '=' :: rest).dropWhile (fun x => x != '=' && !isXmlSpace x) =
        '=' :: rest := by
      rw [List.dropWhile_append_of_pos hin]
      simp
    simp only [List.cons_append, key?, htake, hdrop]
    rfl

theorem readFrom_nil (h : cs.dropWhile isXmlSpace = []) : readFrom seen cs = .ok [] := by
  rw [readFrom]
  split
  · rfl
  · rename_i hb
    rw [h] at hb
    cases hb

theorem readFrom_cons (h : cs.dropWhile isXmlSpace = c :: rest)
    (hk : key? (c :: rest) = some (name, after)) (hs : name ∉ seen)
    (hq : quoted? (after.dropWhile isXmlSpace) = some (raw, tail))
    (hu : Text.unescape raw = some value) :
    readFrom seen cs = (readFrom (name :: seen) tail).map
      (⟨String.ofList name, String.ofList value⟩ :: ·) := by
  rw [readFrom]
  split
  · rename_i hb
    rw [h] at hb
    cases hb
  · rename_i hb
    cases h.symm.trans hb
    split
    · rename_i hn
      rw [hk] at hn
      cases hn
    · rename_i hn
      cases hk.symm.trans hn
      rw [if_neg (by simpa using hs)]
      split
      · rename_i hn
        rw [hq] at hn
        cases hn
      · rename_i hn
        cases hq.symm.trans hn
        rw [hu]
        cases readFrom (name :: seen) tail <;> rfl

/-- One attribute is read, and then those after it. -/
theorem readFrom_written {a : RawAttribute} (ha : IsKey a.name.toList) (hs : a.name.toList ∉ seen) :
    readFrom seen (a.written ++ tail) = (readFrom (a.name.toList :: seen) tail).map (a :: ·) := by
  obtain ⟨name, value⟩ := a
  obtain ⟨c, r, hcr⟩ := List.exists_cons_of_ne_nil ha.ne_nil
  have hc : isXmlSpace c = false := ha.head c (by simp [hcr])
  have hquote : '"' ∉ (Text.escape value).toList := by
    rw [Text.escape, String.toList_ofList]
    exact Text.not_mem_escapeWhere rfl rfl (by decide)
  have hblank : (written ⟨name, value⟩ ++ tail).dropWhile isXmlSpace =
      c :: (r ++ '=' :: '"' :: ((Text.escape value).toList ++ '"' :: tail)) := by
    have hsp : isXmlSpace ' ' = true := rfl
    simp [written, hcr, hsp, hc]
  have hkey := key?_append ha ('"' :: ((Text.escape value).toList ++ '"' :: tail))
  have hvalue : Text.unescape (Text.escape value).toList = some value.toList := by
    rw [Text.escape, String.toList_ofList]
    exact Text.unescape_escapeWhere rfl
  rw [hcr] at hkey hs
  rw [readFrom_cons hblank hkey hs (splitAt?_append hquote tail) hvalue, ← hcr,
    String.ofList_toList, String.ofList_toList]

theorem readFrom_all {as : List RawAttribute} (ha : ∀ a ∈ as, IsKey a.name.toList)
    (hd : as.Pairwise fun a b => a.name ≠ b.name) (hs : ∀ a ∈ as, a.name.toList ∉ seen)
    (ht : tail.dropWhile isXmlSpace = []) :
    readFrom seen (as.flatMap written ++ tail) = .ok as := by
  induction as generalizing seen with
  | nil => exact readFrom_nil ht
  | cons a r ih =>
    obtain ⟨ha, hr⟩ := List.forall_mem_cons.1 ha
    obtain ⟨hda, hdr⟩ := List.pairwise_cons.1 hd
    obtain ⟨hsa, hsr⟩ := List.forall_mem_cons.1 hs
    have hseen : ∀ b ∈ r, b.name.toList ∉ a.name.toList :: seen := by
      intro b hb
      rw [List.mem_cons, not_or]
      exact ⟨fun h => hda b hb (String.toList_inj.1 h).symm, hsr b hb⟩
    rw [List.flatMap_cons, List.append_assoc, readFrom_written ha hsa, ih hr hdr hseen]
    rfl

/-- Attributes of different names are read as they were written. -/
theorem read_written {as : List RawAttribute} (ha : ∀ a ∈ as, IsKey a.name.toList)
    (hd : as.Pairwise fun a b => a.name ≠ b.name) (ht : tail.dropWhile isXmlSpace = []) :
    read (as.flatMap written ++ tail) = .ok as :=
  readFrom_all ha hd (fun _ _ => List.not_mem_nil) ht

end RawAttribute

namespace Event

variable {a b s name rest : List Char} {as : List RawAttribute}

/-- The end of a tag is not among the characters, nor inside quotes that they leave open. -/
def Passes (a : List Char) : Prop :=
  ∀ s, tagEnd? none (a ++ s) = (tagEnd? none s).map fun (x, y) => (a ++ x, y)

theorem Passes.nil : Passes [] := by
  intro s
  cases h : tagEnd? none s <;> simp [h]

theorem Passes.append (ha : Passes a) (hb : Passes b) : Passes (a ++ b) := by
  intro s
  rw [List.append_assoc, ha, hb, Option.map_map]
  congr 1
  funext x
  simp

theorem Passes.flatMap {α : Type} {f : α → List Char} {l : List α} (h : ∀ x ∈ l, Passes (f x)) :
    Passes (l.flatMap f) := by
  induction l with
  | nil => exact .nil
  | cons x r ih =>
    obtain ⟨hx, hr⟩ := List.forall_mem_cons.1 h
    exact hx.append (ih hr)

theorem Passes.single {c : Char} (h : c ≠ '>' ∧ c ≠ '"' ∧ c ≠ '\'') : Passes [c] := by
  intro s
  simp only [List.singleton_append, tagEnd?, h, if_false, decide_false, Bool.or_self]
  rfl

theorem Passes.unquoted (h : Unquoted a) : Passes a := by
  induction a with
  | nil => exact .nil
  | cons c r ih =>
    obtain ⟨hc, hr⟩ := List.forall_mem_cons.1 h
    exact (Passes.single hc).append (ih hr)

theorem tagEnd?_quoted {q : Char} (h : q ∉ a) (s : List Char) :
    tagEnd? (some q) (a ++ q :: s) = (tagEnd? none s).map fun (x, y) => (a ++ q :: x, y) := by
  induction a with
  | nil => simp [tagEnd?]
  | cons c r ih =>
    simp only [List.mem_cons, not_or] at h
    rw [List.cons_append, tagEnd?, if_neg (Ne.symm h.1), ih h.2, Option.map_map]
    rfl

theorem Passes.quoted (h : '"' ∉ a) : Passes ('"' :: a ++ ['"']) := by
  intro s
  have hs : '"' :: a ++ ['"'] ++ s = '"' :: (a ++ '"' :: s) := by simp
  have hopen : tagEnd? none ('"' :: (a ++ '"' :: s)) =
      (tagEnd? (some '"') (a ++ '"' :: s)).map fun (x, y) => ('"' :: x, y) := rfl
  rw [hs, hopen, tagEnd?_quoted h, Option.map_map]
  simp [Function.comp_def]

theorem Passes.written {x : RawAttribute} (h : Unquoted x.name.toList) : Passes x.written := by
  have hquote : '"' ∉ (Text.escape x.value).toList := by
    rw [Text.escape, String.toList_ofList]
    exact Text.not_mem_escapeWhere rfl rfl (by decide)
  have heq : x.written = [' '] ++ (x.name.toList ++ (['='] ++
      ('"' :: (Text.escape x.value).toList ++ ['"']))) := by
    simp [RawAttribute.written]
  rw [heq]
  exact (Passes.single (by decide)).append
    ((Passes.unquoted h).append ((Passes.single (by decide)).append (.quoted hquote)))

theorem Passes.tagEnd? (h : Passes a) (rest : List Char) :
    tagEnd? none (a ++ '>' :: rest) = some (a, rest) := by
  rw [h]
  simp [Event.tagEnd?]

theorem passes_inside (hn : Unquoted name) (ha : ∀ x ∈ as, Unquoted x.name.toList) :
    Passes (name ++ as.flatMap RawAttribute.written) :=
  (Passes.unquoted hn).append (.flatMap fun x hx => .written (ha x hx))

/-- Written attributes are none, or begin with a blank and end with a quote. -/
theorem attributes_ends (as : List RawAttribute) :
    as.flatMap RawAttribute.written = [] ∨
      ∃ m, as.flatMap RawAttribute.written = ' ' :: m ++ ['"'] := by
  induction as using List.reverseRecOn with
  | nil => exact .inl rfl
  | append_singleton as x ih =>
    right
    have hx : x.written = ' ' :: (x.name.toList ++ '=' :: '"' :: (Text.escape x.value).toList) ++
        ['"'] := by
      simp [RawAttribute.written]
    rw [List.flatMap_append, List.flatMap_singleton, hx]
    rcases ih with h | ⟨m, h⟩
    · exact ⟨_, by rw [h, List.nil_append]⟩
    · exact ⟨m ++ ['"'] ++ ' ' :: (x.name.toList ++ '=' :: '"' :: (Text.escape x.value).toList), by
        simp [h]⟩

/-- The name and the rest of the inside of a tag. -/
theorem name_inside (hn : ∀ c ∈ name, isXmlSpace c = false)
    (hr : rest = [] ∨ ∃ m, rest = ' ' :: m) :
    (name ++ rest).takeWhile (!isXmlSpace ·) = name ∧
      (name ++ rest).dropWhile (!isXmlSpace ·) = rest := by
  have hall : ∀ c ∈ name, (!isXmlSpace c) = true := fun c hc => by simp [hn c hc]
  rw [List.takeWhile_append_of_pos hall, List.dropWhile_append_of_pos hall]
  rcases hr with rfl | ⟨m, rfl⟩
  · simp
  · have hsp : isXmlSpace ' ' = true := rfl
    simp [hsp]

theorem ofTag_open (hn : ∀ c ∈ name, isXmlSpace c = false) (hslash : name.getLast? ≠ some '/')
    (as : List RawAttribute) :
    ofTag (name ++ as.flatMap RawAttribute.written) =
      .opening name (as.flatMap RawAttribute.written) false := by
  have hlast : (name ++ as.flatMap RawAttribute.written).getLast? ≠ some '/' := by
    rcases attributes_ends as with h | ⟨m, h⟩
    · rwa [h, List.append_nil]
    · rw [h, ← List.append_assoc, List.getLast?_concat]
      decide
  have hrest : as.flatMap RawAttribute.written = [] ∨
      ∃ m, as.flatMap RawAttribute.written = ' ' :: m :=
    (attributes_ends as).imp_right fun ⟨m, h⟩ => ⟨m ++ ['"'], h⟩
  obtain ⟨htake, hdrop⟩ := name_inside hn hrest
  simp only [ofTag, if_neg hlast, htake, hdrop]

theorem ofTag_closed (hn : ∀ c ∈ name, isXmlSpace c = false) (as : List RawAttribute) :
    ofTag (name ++ as.flatMap RawAttribute.written ++ [' ', '/']) =
      .opening name (as.flatMap RawAttribute.written ++ [' ']) true := by
  have hlast : (name ++ as.flatMap RawAttribute.written ++ [' ', '/']).getLast? = some '/' := by
    simp
  have hrest : ∃ m, as.flatMap RawAttribute.written ++ [' ', '/'] = ' ' :: m := by
    rcases attributes_ends as with h | ⟨m, h⟩
    · exact ⟨['/'], by simp [h]⟩
    · exact ⟨m ++ ['"', ' ', '/'], by simp [h]⟩
  obtain ⟨htake, hdrop⟩ := name_inside hn (.inr hrest)
  rw [← List.append_assoc] at htake hdrop
  have hne : (as.flatMap RawAttribute.written ++ [' ', '/']).isEmpty = false := by simp
  have hinit : (as.flatMap RawAttribute.written ++ [' ', '/']).dropLast =
      as.flatMap RawAttribute.written ++ [' '] := by
    rw [List.dropLast_append_of_ne_nil (by simp)]
    rfl
  simp only [ofTag, hlast, if_true, htake, hdrop, hne, hinit, Bool.false_eq_true, if_false]

/-- What begins with none of three characters after `<` is read as a tag. -/
theorem markup?_tag (h : ∀ c ∈ a.head?, c ≠ '!' ∧ c ≠ '/' ∧ c ≠ '?') : markup? a =
    (tagEnd? none a).map fun (inside, rest) => (some (ofTag inside), rest) := by
  unfold markup?
  split <;> simp_all

end Event

end DiscoveryMetadata.Xml
