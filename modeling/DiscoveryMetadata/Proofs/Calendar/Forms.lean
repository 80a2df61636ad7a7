import DiscoveryMetadata.Pattern.Parser
import DiscoveryMetadata.Proofs.Calendar.Kinds
import DiscoveryMetadata.Proofs.Matching
/-
  The forms of a date text as patterns.

  Each form of a date text has a pattern with groups, whose digits may be of any script. `Captured`
  says what the groups of a form capture in a text; a pattern is found in the texts that have such
  captures (`finds_iff`). A zone may begin like a month or a day, and a year may have any number of
  digits, but no text is of two forms, and none has two captures of one form (`Captured.unique`).

  What is read from a text is what its captures say, of whatever form they are (`read?_iff`). So it
  does not matter in which order the patterns are tried (`forms_unambiguous`).
-/
namespace DiscoveryMetadata

open Pattern (CharSet Regex)
open Pattern.Regex

namespace DateKind

/-- The pattern of the form as it is written. -/
def written : DateKind → String
  | dateTime => "^(-?\\d\x7b4,\x7d)-(\\d\x7b2\x7d)-(\\d\x7b2\x7d)T(\\d\x7b2\x7d):(\\d\x7b2\x7d)" ++
      "(?::(\\d\x7b2\x7d)(\\.\\d+)?)?(Z|[+-]\\d\x7b2\x7d:\\d\x7b2\x7d)?$"
  | date => "^(-?\\d\x7b4,\x7d)-(\\d\x7b2\x7d)-(\\d\x7b2\x7d)(Z|[+-]\\d\x7b2\x7d:\\d\x7b2\x7d)?$"
  | yearMonth => "^(-?\\d\x7b4,\x7d)-(\\d\x7b2\x7d)(Z|[+-]\\d\x7b2\x7d:\\d\x7b2\x7d)?$"
  | year => "^(-?\\d\x7b4,\x7d)(Z|[+-]\\d\x7b2\x7d:\\d\x7b2\x7d)?$"

/-- The pattern of the form. -/
def pattern (k : DateKind) : Regex := (Regex.ofText? k.written).getD .never

/-- The numbers of two digits that a text of the form has behind its year, at least. -/
def least : DateKind → Nat
  | year => 0
  | yearMonth => 1
  | date => 2
  | dateTime => 4

/-- A text of the form can have so many numbers of two digits behind its year: a time of day may
have seconds. -/
def Counts (k : DateKind) (n : Nat) : Prop := n = k.least ∨ k = dateTime ∧ n = 5

theorem Counts.unique {k l : DateKind} {n : Nat} (hk : k.Counts n) (hl : l.Counts n) : k = l := by
  cases k <;> cases l <;> simp [Counts, least] at hk hl ⊢ <;> omega

end DateKind

namespace Calendar

/-- Digits of any script. -/
def IsDigits (cs : List Char) : Prop := ∀ c ∈ cs, Text.isDecimalDigit c = true

/-- Two digits. -/
def IsPair (cs : List Char) : Prop := cs.length = 2 ∧ IsDigits cs

/-- Four digits or more, perhaps with a minus. -/
def IsYear (cs : List Char) : Prop :=
  ∃ (negative : Bool) (ds : List Char), cs = signChars negative ++ ds ∧ 4 ≤ ds.length ∧ IsDigits ds

/-- A zone as it is written, with digits of any script. -/
def IsZone (cs : List Char) : Prop :=
  cs = ['Z'] ∨ ∃ (ahead : Bool) (hours minutes : List Char),
    cs = (if ahead then '+' else '-') :: (hours ++ ':' :: minutes) ∧ IsPair hours ∧ IsPair minutes

/-- What the groups of a form capture: the year, the numbers that follow it, the digits of a
fraction and the zone. What is not there is empty. -/
structure Captures where
  year : List Char
  numbers : List (List Char)
  fraction : List Char
  zone : List Char
  deriving DecidableEq, Repr

/-- The characters before the numbers that follow a year. -/
def marks : List Char := ['-', '-', 'T', ':', ':']

/-- Numbers, each behind its mark. -/
def behindMarks (ms : List Char) (ns : List (List Char)) : List Char :=
  (List.zipWith List.cons ms ns).flatten

namespace Captures

/-- What stands behind the year. -/
def rest (c : Captures) : List Char :=
  behindMarks marks c.numbers ++ (fractionChars c.fraction ++ c.zone)

/-- The text that is put together of the captures. -/
def chars (c : Captures) : List Char := c.year ++ c.rest

/-- What the captures of a form say, if all their numbers can be read. -/
def reading? (k : DateKind) (c : Captures) : Option Reading := do
  let year ← Text.int32? c.year
  let numbers ← c.numbers.mapM Text.digits?
  let zone ← zone? c.zone
  return ⟨k, ⟨year, numbers[0]?.getD 1, numbers[1]?.getD 1⟩, numbers[2]?.getD 0,
    numbers[3]?.getD 0, numbers[4]?.getD 0, zone⟩

/-- The earliest instant that a date text of a form with these captures covers. -/
def instant? (k : DateKind) (c : Captures) : Option Instant := (c.reading? k).bind (·.instant?)

end Captures

/-- The groups of the form capture these parts of the text. -/
structure Captured (k : DateKind) (c : Captures) (cs : List Char) : Prop where
  chars : cs = c.chars
  year : IsYear c.year
  count : k.Counts c.numbers.length
  numbers : ∀ n ∈ c.numbers, IsPair n
  digits : IsDigits c.fraction
  fraction : c.fraction ≠ [] → c.numbers.length = 5
  zone : c.zone = [] ∨ IsZone c.zone

namespace Piece

/-- The pattern of one character. -/
def letter (c : Char) : Regex := one (.single c)

/-- The pattern of a digit. -/
def digit : Regex := one .digit

/-- The pattern of two digits. -/
def two : Regex := (digit.times 2).andThen (digit.upTo 0)

/-- The pattern of a year. -/
def year : Regex := ((letter '-').either .empty).andThen ((digit.times 4).andThen digit.star)

/-- The pattern of a fraction. -/
def fraction : Regex := (letter '.').andThen (digit.andThen digit.star)

/-- The pattern of seconds with their fraction, which may be missing. -/
def seconds : Regex := (((letter ':').andThen two).andThen (fraction.either .empty)).either .empty

/-- The pattern of a sign. -/
def sign : Regex := one ((CharSet.none.union (.single '+')).union (.single '-'))

/-- The pattern of a zone, which may be missing. -/
def zone : Regex :=
  ((letter 'Z').either (((sign.andThen two).andThen (letter ':')).andThen two)).either .empty

/-- The pieces behind the numbers that all texts of the form have. -/
def ends : DateKind → List Regex
  | .dateTime => [seconds, zone]
  | _ => [zone]

/-- The pieces of the pattern of a form. -/
def all (k : DateKind) : List Regex :=
  year :: ((marks.take k.least).flatMap (fun m => [letter m, two]) ++ ends k)

/-- The written patterns are read as the chains of their pieces. -/
theorem pattern_eq (k : DateKind) : k.pattern = anchored (all k) := by
  cases k <;> decide +kernel

theorem denotes_letter (c : Char) : Denotes (letter c) (· = [c]) := by
  intro b cs a
  simp [letter, matches_one, CharSet.contains_single]

theorem denotes_digit : Denotes digit fun cs => cs.length = 1 ∧ IsDigits cs := by
  intro b cs a
  rw [digit, matches_one]
  constructor
  · rintro ⟨c, rfl, hc⟩
    exact ⟨rfl, List.forall_mem_singleton.2 hc⟩
  · rintro ⟨hlength, hcs⟩
    obtain ⟨c, rfl⟩ := List.length_eq_one_iff.1 hlength
    exact ⟨c, rfl, hcs c (List.mem_singleton_self c)⟩

theorem denotes_digits : Denotes digit.star IsDigits := fun _ _ _ => matches_star_one

theorem denotes_two : Denotes two IsPair := by
  intro b cs a
  rw [two, matches_andThen, matches_seq]
  constructor
  · rintro ⟨xs, _, rfl, hxs, hempty⟩
    obtain rfl := matches_empty.1 hempty
    rw [List.append_nil]
    exact matches_times_one.1 hxs
  · intro hcs
    exact ⟨cs, [], by simp, matches_times_one.2 hcs, .empty⟩

theorem denotes_year : Denotes year IsYear := by
  have hlong : Denotes ((digit.times 4).andThen digit.star)
      fun ds => 4 ≤ ds.length ∧ IsDigits ds := by
    refine (Denotes.andThen (fun _ _ _ => matches_times_one) denotes_digits).congr fun ds => ?_
    constructor
    · rintro ⟨xs, ys, rfl, ⟨hlength, hxs⟩, hys⟩
      exact ⟨by simp [hlength], List.forall_mem_append.2 ⟨hxs, hys⟩⟩
    · rintro ⟨hlength, hds⟩
      exact ⟨ds.take 4, ds.drop 4, (List.take_append_drop 4 ds).symm,
        ⟨by simpa using hlength, fun c hc => hds c (List.mem_of_mem_take hc)⟩,
        fun c hc => hds c (List.mem_of_mem_drop hc)⟩
  refine ((denotes_letter '-').option.andThen hlong).congr fun cs => ?_
  constructor
  · rintro ⟨_, ds, rfl, rfl | rfl, hds⟩
    · exact ⟨true, ds, rfl, hds⟩
    · exact ⟨false, ds, rfl, hds⟩
  · rintro ⟨negative, ds, rfl, hds⟩
    refine ⟨signChars negative, ds, rfl, ?_, hds⟩
    cases negative
    · exact .inr rfl
    · exact .inl rfl

theorem denotes_fraction : Denotes (fraction.either .empty) fun cs =>
    ∃ ds, cs = fractionChars ds ∧ IsDigits ds := by
  refine ((denotes_letter '.').andThen (denotes_digit.andThen denotes_digits)).option.congr
    fun cs => ?_
  constructor
  · rintro (⟨_, _, rfl, rfl, xs, ys, rfl, ⟨hlength, hxs⟩, hys⟩ | rfl)
    · have hne : xs ++ ys ≠ [] := by
        intro h
        rw [(List.append_eq_nil_iff.1 h).1] at hlength
        cases hlength
      exact ⟨xs ++ ys, by rw [fractionChars, if_neg hne]; rfl, List.forall_mem_append.2 ⟨hxs, hys⟩⟩
    · exact ⟨[], rfl, by simp [IsDigits]⟩
  · rintro ⟨ds, rfl, hds⟩
    cases ds with
    | nil => exact .inr rfl
    | cons d ds =>
      obtain ⟨hd, hds⟩ := List.forall_mem_cons.1 hds
      exact .inl ⟨['.'], d :: ds, rfl, rfl, [d], ds, rfl, ⟨rfl, List.forall_mem_singleton.2 hd⟩, hds⟩

theorem denotes_seconds : Denotes seconds fun cs =>
    (∃ n ds, cs = ':' :: (n ++ fractionChars ds) ∧ IsPair n ∧ IsDigits ds) ∨ cs = [] := by
  refine (((denotes_letter ':').andThen denotes_two).andThen denotes_fraction).option.congr
    fun cs => ?_
  constructor
  · rintro (⟨_, _, rfl, ⟨_, n, rfl, rfl, hn⟩, ds, rfl, hds⟩ | rfl)
    · exact .inl ⟨n, ds, rfl, hn, hds⟩
    · exact .inr rfl
  · rintro (⟨n, ds, rfl, hn, hds⟩ | rfl)
    · exact .inl ⟨':' :: n, _, rfl, ⟨[':'], n, rfl, rfl, hn⟩, ds, rfl, hds⟩
    · exact .inr rfl

theorem denotes_sign : Denotes sign fun cs => ∃ ahead : Bool, cs = [if ahead then '+' else '-'] := by
  intro b cs a
  simp only [sign, matches_one, CharSet.contains, Bool.or_eq_true, CharSet.contains_single,
    Bool.false_eq_true, false_or]
  constructor
  · rintro ⟨_, rfl, rfl | rfl⟩
    · exact ⟨true, rfl⟩
    · exact ⟨false, rfl⟩
  · rintro ⟨_ | _, rfl⟩
    · exact ⟨'-', rfl, .inr rfl⟩
    · exact ⟨'+', rfl, .inl rfl⟩

theorem denotes_zone : Denotes zone fun cs => cs = [] ∨ IsZone cs := by
  refine ((denotes_letter 'Z').either (((denotes_sign.andThen denotes_two).andThen
    (denotes_letter ':')).andThen denotes_two)).option.congr fun cs => ?_
  constructor
  · rintro ((rfl | ⟨_, m, rfl, ⟨_, _, rfl, ⟨_, h, rfl, ⟨ahead, rfl⟩, hh⟩, rfl⟩, hm⟩) | rfl)
    · exact .inr (.inl rfl)
    · exact .inr (.inr ⟨ahead, h, m, by simp, hh, hm⟩)
    · exact .inl rfl
  · rintro (rfl | rfl | ⟨ahead, h, m, rfl, hh, hm⟩)
    · exact .inr rfl
    · exact .inl (.inl rfl)
    · have hsigned : ∃ x y, (if ahead then '+' else '-') :: h = x ++ y ∧
          (∃ ahead : Bool, x = [if ahead then '+' else '-']) ∧ IsPair y :=
        ⟨[_], h, rfl, ⟨ahead, rfl⟩, hh⟩
      exact .inl (.inr ⟨_ :: (h ++ [':']), m, by simp, ⟨_ :: h, [':'], rfl, hsigned, rfl⟩, hm⟩)

end Piece

section Finding

theorem denotes_marks (ms : List Char) : List.Forall₂ Denotes
    (ms.flatMap fun m => [Piece.letter m, Piece.two]) (ms.flatMap fun m => [(· = [m]), IsPair]) := by
  induction ms with
  | nil => exact .nil
  | cons m ms ih => exact .cons (Piece.denotes_letter m) (.cons Piece.denotes_two ih)

theorem chained_marks {ms : List Char} {Ps : List (List Char → Prop)} {cs : List Char} :
    Chained ((ms.flatMap fun m => [(· = [m]), IsPair]) ++ Ps) cs ↔
      ∃ ns rest, cs = behindMarks ms ns ++ rest ∧ ns.length = ms.length ∧ (∀ n ∈ ns, IsPair n) ∧
        Chained Ps rest := by
  induction ms generalizing cs with
  | nil =>
    constructor
    · intro h
      exact ⟨[], cs, rfl, rfl, by simp, h⟩
    · rintro ⟨ns, rest, rfl, hlength, -, h⟩
      obtain rfl := List.length_eq_zero_iff.1 hlength
      exact h
  | cons m ms ih =>
    simp only [List.flatMap_cons, List.cons_append, List.nil_append, Chained, ih]
    constructor
    · rintro ⟨_, _, rfl, rfl, n, _, rfl, hn, ns, rest, rfl, hlength, hns, h⟩
      exact ⟨n :: ns, rest, by simp [behindMarks], by simp [hlength],
        List.forall_mem_cons.2 ⟨hn, hns⟩, h⟩
    · rintro ⟨_ | ⟨n, ns⟩, rest, rfl, hlength, hns, h⟩
      · cases hlength
      · obtain ⟨hn, hns⟩ := List.forall_mem_cons.1 hns
        exact ⟨[m], _, by simp [behindMarks], rfl, n, _, rfl, hn, ns, rest, rfl,
          Nat.succ.inj hlength, hns, h⟩

/-- What stands behind the numbers that all texts of the form have: the zone, and in a time of day
the seconds before it, unless they are missing. -/
def IsEnd (k : DateKind) (cs : List Char) : Prop :=
  ∃ z, (z = [] ∨ IsZone z) ∧ (cs = z ∨ k = .dateTime ∧
    ∃ n ds, cs = ':' :: (n ++ (fractionChars ds ++ z)) ∧ IsPair n ∧ IsDigits ds)

/-- The pieces of a pattern denote the parts of the texts that it finds. -/
theorem denotes_all (k : DateKind) : ∃ Ps, List.Forall₂ Denotes (Piece.all k)
    (IsYear :: ((marks.take k.least).flatMap (fun m => [(· = [m]), IsPair]) ++ Ps)) ∧
      ∀ cs, Chained Ps cs ↔ IsEnd k cs := by
  have hzone : ∀ cs, Chained [fun z => z = [] ∨ IsZone z] cs ↔ cs = [] ∨ IsZone cs := by
    intro cs
    simp [Chained]
  have hall : ∀ Ps, List.Forall₂ Denotes (Piece.ends k) Ps → List.Forall₂ Denotes (Piece.all k)
      (IsYear :: ((marks.take k.least).flatMap (fun m => [(· = [m]), IsPair]) ++ Ps)) :=
    fun Ps h => .cons Piece.denotes_year (List.rel_append (denotes_marks _) h)
  -- only the pattern of a time of day has a piece before the zone
  by_cases hk : k = .dateTime
  case pos =>
    subst hk
    refine ⟨_, hall _ (.cons Piece.denotes_seconds (.cons Piece.denotes_zone .nil)), fun cs => ?_⟩
    rw [Chained]
    simp only [hzone]
    constructor
    · rintro ⟨_, z, rfl, ⟨n, ds, rfl, hn, hds⟩ | rfl, hz⟩
      · exact ⟨z, hz, .inr ⟨rfl, n, ds, by simp, hn, hds⟩⟩
      · exact ⟨z, hz, .inl rfl⟩
    · rintro ⟨z, hz, rfl | ⟨-, n, ds, rfl, hn, hds⟩⟩
      · exact ⟨[], _, rfl, .inr rfl, hz⟩
      · exact ⟨':' :: (n ++ fractionChars ds), z, by simp, .inl ⟨n, ds, rfl, hn, hds⟩, hz⟩
  case neg =>
    have hends : Piece.ends k = [Piece.zone] := by cases k <;> first | rfl | exact absurd rfl hk
    have hpieces : List.Forall₂ Denotes (Piece.ends k) [fun z => z = [] ∨ IsZone z] := by
      rw [hends]
      exact .cons Piece.denotes_zone .nil
    refine ⟨_, hall _ hpieces, fun cs => ?_⟩
    rw [hzone]
    simp [IsEnd, hk]

theorem behindMarks_take (ms : List Char) (ns : List (List Char)) :
    behindMarks (ms.take ns.length) ns = behindMarks ms ns := by
  induction ns generalizing ms with
  | nil => simp [behindMarks]
  | cons n ns ih =>
    cases ms with
    | nil => rfl
    | cons m ms =>
      have hrest := ih ms
      simp only [behindMarks] at hrest ⊢
      simp [hrest]

theorem behindMarks_concat {m : Char} {ms n : List Char} {ns : List (List Char)}
    (h : ns.length = ms.length) :
    behindMarks (ms ++ [m]) (ns ++ [n]) = behindMarks ms ns ++ m :: n := by
  simp [behindMarks, List.zipWith_append h.symm]

/-- A pattern is found in the texts whose parts its groups capture. -/
theorem finds_iff {k : DateKind} {text : String} :
    k.pattern.finds text = true ↔ ∃ c, Captured k c text.toList := by
  obtain ⟨Ps, hPs, hend⟩ := denotes_all k
  have hleast : (marks.take k.least).length = k.least := by cases k <;> rfl
  rw [Piece.pattern_eq, finds_anchored hPs, Chained]
  simp only [chained_marks, hend, hleast]
  constructor
  · rintro ⟨y, _, htext, hy, ns, _, rfl, hlength, hns, z, hz, rfl | ⟨rfl, n, ds, rfl, hn, hds⟩⟩
    · refine ⟨⟨y, ns, [], _⟩, ?_, hy, .inl hlength, hns, by simp [IsDigits], by simp, hz⟩
      rw [htext, ← hlength, behindMarks_take]
      rfl
    · -- the seconds are one number more, behind the fifth mark
      have hfive : (ns ++ [n]).length = 5 := by simp [hlength, DateKind.least]
      refine ⟨⟨y, ns ++ [n], ds, z⟩, ?_, hy, .inr ⟨rfl, hfive⟩,
        List.forall_mem_append.2 ⟨hns, List.forall_mem_singleton.2 hn⟩, hds, fun _ => hfive, hz⟩
      have hmarks : behindMarks marks (ns ++ [n]) = behindMarks (marks.take 4) ns ++ ':' :: n :=
        behindMarks_concat (show ns.length = (marks.take 4).length from hlength)
      simp [htext, Captures.chars, Captures.rest, hmarks, DateKind.least]
  · rintro ⟨⟨y, ns, ds, z⟩, hchars, hy, hcount, hns, hds, hfraction, hz⟩
    -- a time of day with seconds has one number more than the least that its kind asks for
    rcases hcount with hcount | ⟨rfl, hfive⟩
    · obtain rfl : ds = [] := by
        by_contra hne
        have hfive : ns.length = 5 := hfraction hne
        cases k <;> simp [hfive, DateKind.least] at hcount
      refine ⟨y, _, hchars, hy, ns, z, ?_, hcount, hns, z, hz, .inl rfl⟩
      rw [← hcount, behindMarks_take]
      rfl
    · obtain ⟨ns, n, rfl⟩ : ∃ ns' n, ns = ns' ++ [n] := by
        cases ns using List.reverseRecOn with
        | nil => cases hfive
        | append_singleton ns n => exact ⟨ns, n, rfl⟩
      have hfour : ns.length = 4 := by simpa using hfive
      obtain ⟨hns, hn⟩ := List.forall_mem_append.1 hns
      refine ⟨y, _, hchars, hy, ns, ':' :: (n ++ (fractionChars ds ++ z)), ?_, hfour, hns, z, hz,
        .inr ⟨rfl, n, ds, rfl, List.forall_mem_singleton.1 hn, hds⟩⟩
      have hmarks : behindMarks marks (ns ++ [n]) = behindMarks (marks.take 4) ns ++ ':' :: n :=
        behindMarks_concat (show ns.length = (marks.take 4).length from hfour)
      simp [Captures.rest, hmarks, DateKind.least]

end Finding

section Unique

variable {ms : List Char} {ns ns' : List (List Char)} {t t' : List Char}

/-- What stands behind the numbers of a date text: a fraction and a zone, as far as there are. -/
def IsTail (cs : List Char) : Prop :=
  ∃ f z, cs = fractionChars f ++ z ∧ IsDigits f ∧ (z = [] ∨ IsZone z)

theorem head?_zone {z : List Char} (hz : z = [] ∨ IsZone z) :
    ∀ c ∈ z.head?, c = 'Z' ∨ c = '+' ∨ c = '-' := by
  rcases hz with rfl | rfl | ⟨ahead, h, m, rfl, -⟩
  · simp
  · simp
  · cases ahead <;> simp

theorem IsTail.head? (h : IsTail t) : ∀ c ∈ t.head?, c = '.' ∨ c = 'Z' ∨ c = '+' ∨ c = '-' := by
  obtain ⟨f, z, rfl, -, hz⟩ := h
  unfold fractionChars
  split
  · exact fun c hc => .inr (head?_zone hz c hc)
  · simp

/-- What begins like another number of a date goes on like a zone. -/
theorem IsTail.colon {n r : List Char} (h : IsTail ('-' :: (n ++ r))) (hn : IsPair n) :
    ∃ m, r = ':' :: m := by
  obtain ⟨f, z, hcs, -, hz⟩ := h
  unfold fractionChars at hcs
  split at hcs
  · rw [List.nil_append] at hcs
    subst hcs
    rcases hz with hz | hz | ⟨ahead, h, m, hz, hh, -⟩
    · cases hz
    · simp at hz
    · have hrest : n ++ r = h ++ ':' :: m := (List.cons.inj hz).2
      exact ⟨m, (List.append_inj hrest (hn.1.trans hh.1.symm)).2⟩
  · simp at hcs

/-- Marks of a date text, in which no hyphen is followed by a colon. -/
structure Marks (ms : List Char) : Prop where
  mem : ∀ m ∈ ms, m = '-' ∨ m = 'T' ∨ m = ':'
  apart : ms.IsChain fun m m' => m = '-' → m' ≠ ':'

theorem marks_marks : Marks marks := ⟨by simp [marks], by simp [marks]⟩

theorem Marks.tail {m : Char} (h : Marks (m :: ms)) : Marks ms :=
  ⟨fun m' hm => h.mem m' (.tail m hm), h.apart.tail⟩

/-- Where numbers follow, there is no tail. -/
theorem IsTail.ne_cons {m : Char} {n : List Char} (hm : Marks (m :: ms)) (hn : IsPair n)
    (ht : IsTail t) (ht' : IsTail t') : t ≠ behindMarks (m :: ms) (n :: ns) ++ t' := by
  have hcons : behindMarks (m :: ms) (n :: ns) ++ t' = m :: (n ++ (behindMarks ms ns ++ t')) := by
    simp [behindMarks]
  rw [hcons]
  rintro rfl
  -- the mark can only be the hyphen of a zone, behind whose hours there is a colon
  obtain rfl : m = '-' := by
    have hhead := ht.head? m rfl
    have hmark := hm.mem m (.head ms)
    grind
  obtain ⟨r, hr⟩ := ht.colon hn
  cases ms with
  | nil =>
    have hhead := ht'.head? ':' (by rw [show t' = ':' :: r from hr]; rfl)
    simp at hhead
  | cons m' ms =>
    cases ns with
    | nil =>
      have hhead := ht'.head? ':' (by rw [show t' = ':' :: r from hr]; rfl)
      simp at hhead
    | cons n' ns =>
      obtain rfl : m' = ':' := by
        have hfirst : m' :: (n' ++ (behindMarks ms ns ++ t')) = ':' :: r := by
          simpa [behindMarks] using hr
        exact (List.cons.inj hfirst).1
      exact (List.isChain_cons_cons.1 hm.apart).1 rfl rfl

/-- Numbers behind marks and what follows them can be told from their text. -/
theorem numbers_unique (hm : Marks ms) (hns : ∀ n ∈ ns, IsPair n) (hns' : ∀ n ∈ ns', IsPair n)
    (hl : ns.length ≤ ms.length) (hl' : ns'.length ≤ ms.length) (ht : IsTail t) (ht' : IsTail t')
    (h : behindMarks ms ns ++ t = behindMarks ms ns' ++ t') : ns = ns' ∧ t = t' := by
  induction ms generalizing ns ns' with
  | nil =>
    obtain rfl := List.length_eq_zero_iff.1 (Nat.le_zero.1 hl)
    obtain rfl := List.length_eq_zero_iff.1 (Nat.le_zero.1 hl')
    exact ⟨rfl, h⟩
  | cons m ms ih =>
    cases ns with
    | nil =>
      cases ns' with
      | nil => exact ⟨rfl, h⟩
      | cons n' ns' => exact absurd h (ht.ne_cons hm (hns' n' (.head ns')) ht')
    | cons n ns =>
      cases ns' with
      | nil => exact absurd h.symm (ht'.ne_cons hm (hns n (.head ns)) ht)
      | cons n' ns' =>
        obtain ⟨hn, hrest⟩ := List.forall_mem_cons.1 hns
        obtain ⟨hn', hrest'⟩ := List.forall_mem_cons.1 hns'
        have hcons : n ++ (behindMarks ms ns ++ t) = n' ++ (behindMarks ms ns' ++ t') := by
          simpa [behindMarks] using h
        obtain ⟨hnumber, hbehind⟩ := List.append_inj hcons (hn.1.trans hn'.1.symm)
        obtain ⟨hnumbers, htail⟩ := ih hm.tail hrest hrest' (Nat.le_of_succ_le_succ hl)
          (Nat.le_of_succ_le_succ hl') hbehind
        rw [hnumber, hnumbers]
        exact ⟨rfl, htail⟩

/-- The digits of a fraction end where the zone begins. -/
theorem tail_unique {f f' z z' : List Char} (hf : IsDigits f) (hf' : IsDigits f')
    (hz : z = [] ∨ IsZone z) (hz' : z' = [] ∨ IsZone z')
    (h : fractionChars f ++ z = fractionChars f' ++ z') : f = f' ∧ z = z' := by
  have hhead : ∀ z : List Char, z = [] ∨ IsZone z →
      ∀ c ∈ z.head?, c ≠ '.' ∧ Text.isDecimalDigit c = false := by
    intro z hz c hc
    rcases head?_zone hz c hc with rfl | rfl | rfl <;> decide
  obtain rfl : z = z' := by
    rw [← dropFraction_of hf (hhead z hz), h, dropFraction_of hf' (hhead z' hz')]
  exact ⟨fractionChars_inj (List.append_cancel_right h), rfl⟩

/-- The digits of a year end where no digit follows. -/
theorem digits_unique {ds ds' r r' : List Char} (hds : IsDigits ds) (hds' : IsDigits ds')
    (hr : ∀ c ∈ r.head?, Text.isDecimalDigit c = false)
    (hr' : ∀ c ∈ r'.head?, Text.isDecimalDigit c = false) (h : ds ++ r = ds' ++ r') :
    ds = ds' ∧ r = r' := by
  have htake : ∀ ds r : List Char, IsDigits ds → (∀ c ∈ r.head?, Text.isDecimalDigit c = false) →
      (ds ++ r).takeWhile Text.isDecimalDigit = ds := by
    intro ds r hds hr
    rw [List.takeWhile_append_of_pos hds]
    cases r with
    | nil => simp
    | cons c r => simp [hr c rfl]
  obtain rfl : ds = ds' := by rw [← htake ds r hds hr, h, htake ds' r' hds' hr']
  exact ⟨rfl, List.append_cancel_left h⟩

theorem year_unique {y y' r r' : List Char} (hy : IsYear y) (hy' : IsYear y')
    (hr : ∀ c ∈ r.head?, Text.isDecimalDigit c = false)
    (hr' : ∀ c ∈ r'.head?, Text.isDecimalDigit c = false) (h : y ++ r = y' ++ r') :
    y = y' ∧ r = r' := by
  obtain ⟨negative, ds, rfl, hlong, hds⟩ := hy
  obtain ⟨negative', ds', rfl, hlong', hds'⟩ := hy'
  rw [List.append_assoc, List.append_assoc] at h
  -- a minus is no digit, so that both years have one or none has
  have hminus : ∀ ds r : List Char, 4 ≤ ds.length → IsDigits ds → (ds ++ r).head? ≠ some '-' := by
    rintro (_ | ⟨d, ds⟩) r hlong hds hhead
    · cases hlong
    · obtain rfl : d = '-' := by simpa using hhead
      exact absurd (hds '-' (.head ds)) (by decide)
  obtain rfl : negative = negative' := by
    cases negative <;> cases negative'
    · rfl
    · exact absurd (congrArg List.head? h) (hminus ds r hlong hds)
    · exact absurd (congrArg List.head? h).symm (hminus ds' r' hlong' hds')
    · rfl
  obtain ⟨rfl, rfl⟩ := digits_unique hds hds' hr hr' (List.append_cancel_left h)
  exact ⟨rfl, rfl⟩

namespace Captured

variable {k k' : DateKind} {c c' : Captures} {cs : List Char}

theorem isTail (h : Captured k c cs) : IsTail (fractionChars c.fraction ++ c.zone) :=
  ⟨c.fraction, c.zone, rfl, h.digits, h.zone⟩

theorem length_le (h : Captured k c cs) : c.numbers.length ≤ marks.length := by
  have hcount := h.count
  have hleast : k.least ≤ 4 := by cases k <;> decide
  have hmarks : marks.length = 5 := rfl
  rcases hcount with h | ⟨-, h⟩ <;> omega

/-- Behind the year there is no further digit. -/
theorem head?_rest (h : Captured k c cs) :
    ∀ d ∈ c.rest.head?, Text.isDecimalDigit d = false := by
  intro d hd
  unfold Captures.rest at hd
  cases hns : c.numbers with
  | nil =>
    rw [hns] at hd
    rcases h.isTail.head? d hd with rfl | rfl | rfl | rfl <;> decide
  | cons n ns =>
    rw [hns] at hd
    obtain rfl : '-' = d := by simpa [behindMarks, marks] using hd
    decide

/-- A text is of one form at most, and its parts are captured in one way. -/
theorem unique (h : Captured k c cs) (h' : Captured k' c' cs) : k = k' ∧ c = c' := by
  have hchars : c.chars = c'.chars := h.chars.symm.trans h'.chars
  obtain ⟨hyear, hrest⟩ := year_unique h.year h'.year h.head?_rest h'.head?_rest hchars
  obtain ⟨hnumbers, htail⟩ := numbers_unique marks_marks h.numbers h'.numbers h.length_le
    h'.length_le h.isTail h'.isTail hrest
  obtain ⟨hfraction, hzone⟩ := tail_unique h.digits h'.digits h.zone h'.zone htail
  refine ⟨h.count.unique (hnumbers ▸ h'.count), ?_⟩
  cases c
  cases c'
  cases hyear
  cases hnumbers
  cases hfraction
  cases hzone
  rfl

end Captured

end Unique

section Readings

variable {k : DateKind} {c : Captures} {cs : List Char} {text : String} {r : Reading}

theorem digits?_pair {n : Nat} (h : n < 100) : Text.digits? (pair n) = some n := by
  have htwo : two? (pair n ++ []) = some (n, []) := two?_pair h
  obtain ⟨m, hm, heq⟩ := Option.map_eq_some_iff.1 htwo
  rw [show Text.digits? (pair n) = some m from hm, (Prod.mk.inj heq).1]

theorem mapM_pair {ns : List Nat} (h : ∀ n ∈ ns, n < 100) :
    (ns.map pair).mapM Text.digits? = some ns := by
  induction ns with
  | nil => rfl
  | cons n ns ih =>
    obtain ⟨hn, hns⟩ := List.forall_mem_cons.1 h
    simp [digits?_pair hn, ih hns]

/-- Numbers that can be read are pairs of digits of the usual script. -/
theorem pair_of_mapM {ns : List (List Char)} {ms : List Nat} (hns : ∀ n ∈ ns, IsPair n)
    (h : ns.mapM Text.digits? = some ms) : ns = ms.map pair ∧ ∀ m ∈ ms, m < 100 := by
  induction ns generalizing ms with
  | nil =>
    obtain rfl : [] = ms := by simpa using h
    simp
  | cons n ns ih =>
    obtain ⟨⟨hlength, -⟩, hrest⟩ := List.forall_mem_cons.1 hns
    simp only [List.mapM_cons, Option.bind_eq_bind, Option.bind_eq_some_iff, Option.pure_def,
      Option.some.injEq] at h
    obtain ⟨m, hm, ms, hms, rfl⟩ := h
    obtain ⟨a, b, rfl⟩ := List.length_eq_two.1 hlength
    have htwo : two? [a, b] = some (m, []) := by simp [two?, hm]
    obtain ⟨hlt, hpair⟩ := two?_some htwo
    obtain ⟨rfl, hall⟩ := ih hrest hms
    exact ⟨by simpa using hpair, List.forall_mem_cons.2 ⟨hlt, hall⟩⟩

/-- A number with a sign has digits of the usual script. -/
theorem signed?_some {y : Int} (h : Text.signed? cs = some y) :
    ∀ c ∈ cs, c.isDigit = true ∨ c = '-' ∨ c = '+' := by
  have hdigits : ∀ ds : List Char, Text.digits? ds ≠ none → ∀ c ∈ ds, c.isDigit = true := by
    intro ds hne
    obtain ⟨n, hn⟩ := Option.ne_none_iff_exists'.1 hne
    exact (digits?_some hn).2.1
  unfold Text.signed? at h
  split at h
  case h_1 r =>
    have hr := hdigits r (by rintro hr; rw [hr] at h; cases h)
    exact List.forall_mem_cons.2 ⟨.inr (.inl rfl), fun c hc => .inl (hr c hc)⟩
  case h_2 r =>
    have hr := hdigits r (by rintro hr; rw [hr] at h; cases h)
    exact List.forall_mem_cons.2 ⟨.inr (.inr rfl), fun c hc => .inl (hr c hc)⟩
  case h_3 =>
    have hcs := hdigits cs (by rintro hcs; rw [hcs] at h; cases h)
    exact fun c hc => .inl (hcs c hc)

theorem digits_of_int32? {negative : Bool} {ds : List Char} {y : Int} (hds : IsDigits ds)
    (h : Text.int32? (signChars negative ++ ds) = some y) : ∀ d ∈ ds, d.isDigit = true := by
  obtain ⟨hsigned, -⟩ := Option.filter_eq_some_iff.1 h
  intro d hd
  have hdecimal := hds d hd
  rcases signed?_some hsigned d (List.mem_append_right _ hd) with hdigit | rfl | rfl
  · exact hdigit
  · exact absurd hdecimal (by decide)
  · exact absurd hdecimal (by decide)

/-- The numbers behind the year. -/
def Detail.numbers : Detail → List Nat
  | year => []
  | month m => [m]
  | day m d => [m, d]
  | minute m d h n => [m, d, h, n]
  | second m d h n s _ => [m, d, h, n, s]

theorem Detail.proper_iff (d : Detail) :
    d.Proper ↔ (∀ n ∈ d.numbers, n < 100) ∧ IsDigits d.fraction := by
  cases d <;> simp [Proper, numbers, fraction, IsDigits, and_assoc]

theorem Detail.counts (d : Detail) : d.kind.Counts d.numbers.length := by
  cases d <;> simp [kind, numbers, DateKind.Counts, DateKind.least]

/-- Numbers that a form can have, with a fraction behind five of them, are those of a detail. -/
theorem exists_detail {ns : List Nat} {f : List Char} (hcount : k.Counts ns.length)
    (hfraction : f ≠ [] → ns.length = 5) :
    ∃ d : Detail, d.kind = k ∧ d.numbers = ns ∧ d.fraction = f := by
  have hnone : ns.length ≠ 5 → [] = f := fun hne => by_contra fun hf => hne (hfraction (Ne.symm hf))
  rcases hcount with hcount | ⟨rfl, hcount⟩
  · cases k with
    | year =>
      obtain rfl := List.length_eq_zero_iff.1 hcount
      exact ⟨.year, rfl, rfl, hnone (by simp)⟩
    | yearMonth =>
      obtain ⟨m, rfl⟩ := List.length_eq_one_iff.1 hcount
      exact ⟨.month m, rfl, rfl, hnone (by simp)⟩
    | date =>
      obtain ⟨m, d, rfl⟩ := List.length_eq_two.1 hcount
      exact ⟨.day m d, rfl, rfl, hnone (by simp)⟩
    | dateTime =>
      obtain ⟨m, ns, rfl⟩ := List.exists_cons_of_length_eq_add_one hcount
      obtain ⟨d, h, n, rfl⟩ := List.length_eq_three.1 (Nat.succ.inj hcount)
      exact ⟨.minute m d h n, rfl, rfl, hnone (by simp)⟩
  · obtain ⟨m, ns, rfl⟩ := List.exists_cons_of_length_eq_add_one hcount
    obtain ⟨d, ns, rfl⟩ := List.exists_cons_of_length_eq_add_one (Nat.succ.inj hcount)
    obtain ⟨h, n, s, rfl⟩ := List.length_eq_three.1 (Nat.succ.inj (Nat.succ.inj hcount))
    exact ⟨.second m d h n s f, rfl, rfl, rfl⟩

theorem isPair_pair {n : Nat} (h : n < 100) : IsPair (pair n) := by
  refine ⟨rfl, fun c hc => ?_⟩
  have hdigit := (digits?_some (digits?_pair h)).2.1 c hc
  rw [Text.isDecimalDigit, hdigit, Bool.true_or]

theorem isZone_optionChars {z : Option Zone} (hz : ∀ x ∈ z, x.Proper) :
    Zone.optionChars z = [] ∨ IsZone (Zone.optionChars z) := by
  rcases z with _ | _ | ⟨ahead, hours, minutes⟩
  · exact .inl rfl
  · exact .inr (.inl rfl)
  · obtain ⟨hh, hm⟩ : hours < 100 ∧ minutes < 100 := hz _ rfl
    exact .inr (.inr ⟨ahead, pair hours, pair minutes, rfl, isPair_pair hh, isPair_pair hm⟩)

namespace Spelling

variable {s : Spelling}

/-- What the groups of its form capture in a text that is spelled so. -/
def captures (s : Spelling) : Captures :=
  ⟨signChars s.negative ++ s.digits, s.detail.numbers.map pair, s.detail.fraction,
    Zone.optionChars s.zone⟩

theorem chars_captures (s : Spelling) : s.captures.chars = s.chars := by
  obtain ⟨negative, ds, detail, zone⟩ := s
  cases detail <;> simp [captures, Captures.chars, Captures.rest, behindMarks, marks, chars,
    Detail.numbers, Detail.chars, Detail.fraction, fractionChars]

theorem captured (hs : s.Proper) : Captured s.detail.kind s.captures s.chars := by
  obtain ⟨hnumbers, hfraction⟩ := (Detail.proper_iff s.detail).1 hs.detail
  refine ⟨(chars_captures s).symm, ⟨s.negative, s.digits, rfl, hs.long, fun c hc => ?_⟩, ?_,
    List.forall_mem_map.2 fun n hn => isPair_pair (hnumbers n hn), hfraction, ?_,
    isZone_optionChars hs.zone⟩
  · rw [Text.isDecimalDigit, hs.digits c hc, Bool.true_or]
  · rw [captures, List.length_map]
    exact s.detail.counts
  · cases hd : s.detail <;> simp [captures, hd, Detail.fraction, Detail.numbers]

theorem reading?_captures (hs : s.Proper) : s.captures.reading? s.detail.kind =
    if Text.fits 32 s.year then some s.reading else none := by
  have hlong := hs.long
  have hyear : Text.int32? s.captures.year = if Text.fits 32 s.year then some s.year else none :=
    int32?_sign s.negative hs.digits (List.ne_nil_of_length_pos (by omega))
  have hnumbers : s.captures.numbers.mapM Text.digits? = some s.detail.numbers :=
    mapM_pair ((Detail.proper_iff s.detail).1 hs.detail).1
  have hzone : zone? s.captures.zone = some (Zone.optionSeconds s.zone) :=
    zone?_optionChars hs.zone
  by_cases hfits : Text.fits 32 s.year = true
  · rw [if_pos hfits] at hyear ⊢
    simp only [Captures.reading?, hyear, hnumbers, hzone, reading]
    cases s.detail <;> rfl
  · rw [if_neg hfits] at hyear ⊢
    simp only [Captures.reading?, hyear]
    rfl

end Spelling

/-- What is captured is spelled, if it can be read. -/
theorem Captured.exists_spelling (h : Captured k c cs) (hr : c.reading? k = some r) :
    ∃ s : Spelling, s.Proper ∧ s.detail.kind = k ∧ s.captures = c := by
  simp only [Captures.reading?, Option.bind_eq_bind, Option.bind_eq_some_iff] at hr
  obtain ⟨y, hy, ms, hms, z, hz, -⟩ := hr
  obtain ⟨negative, ds, hyear, hlong, hds⟩ := h.year
  obtain ⟨hnumbers, hsmall⟩ := pair_of_mapM h.numbers hms
  obtain ⟨zone, hproper, hzone, -⟩ := zone?_some hz
  have hcount : ms.length = c.numbers.length := by rw [hnumbers, List.length_map]
  have hcounts : k.Counts ms.length := hcount ▸ h.count
  obtain ⟨d, hkind, hdnumbers, hdfraction⟩ := exists_detail hcounts (hcount ▸ h.fraction)
  have hdetail : d.Proper := (Detail.proper_iff d).2 ⟨hdnumbers ▸ hsmall, hdfraction ▸ h.digits⟩
  refine ⟨⟨negative, ds, d, zone⟩, ?_, hkind, ?_⟩
  · exact ⟨digits_of_int32? hds (hyear ▸ hy), hlong, hdetail, hproper⟩
  · rw [Spelling.captures, hdnumbers, hdfraction, ← hyear, ← hnumbers, ← hzone]

/-- What is read from a text is what its captures say, of whatever form they are. -/
theorem read?_iff : read? text = some r ↔
    ∃ k c, Captured k c (Text.trim text).toList ∧ c.reading? k = some r := by
  constructor
  · intro h
    obtain ⟨s, hs, rfl⟩ := exists_spelling h
    rw [read?_of_spells hs, Option.ite_none_right_eq_some] at h
    refine ⟨s.detail.kind, s.captures, hs.2 ▸ Spelling.captured hs.1, ?_⟩
    rw [Spelling.reading?_captures hs.1, if_pos h.1]
  · rintro ⟨k, c, hc, hr⟩
    obtain ⟨s, hs, rfl, rfl⟩ := hc.exists_spelling hr
    have hchars : s.chars = (Text.trim text).toList :=
      (Spelling.chars_captures s).symm.trans hc.chars.symm
    rw [read?_of_spells ⟨hs, hchars⟩, ← Spelling.reading?_captures hs]
    exact hr

theorem Captured.read?_eq (h : Captured k c (Text.trim text).toList) :
    read? text = c.reading? k := by
  refine Option.ext fun r => ?_
  rw [read?_iff]
  constructor
  · rintro ⟨k', c', h', hr⟩
    obtain ⟨rfl, rfl⟩ := h.unique h'
    exact hr
  · intro hr
    exact ⟨k, c, h, hr⟩

theorem Captures.kind_of_reading? (h : c.reading? k = some r) : r.kind = k := by
  simp only [reading?, Option.bind_eq_bind, Option.bind_eq_some_iff, Option.pure_def,
    Option.some.injEq] at h
  obtain ⟨_, -, _, -, _, -, rfl⟩ := h
  rfl

end Readings

section Orders

variable {order : List DateKind} {text : String} {k l : DateKind}

/-- The first form in this order whose pattern is found in the text without the white space at its
ends. -/
def firstOf (order : List DateKind) (text : String) : Option DateKind :=
  order.find? fun k => k.pattern.finds (Text.trim text)

/-- Where the patterns are tried in this order, the text is taken for one of the form, and as such it
covers this instant first. -/
def Interprets (order : List DateKind) (text : String) (k : DateKind) (i : Instant) : Prop :=
  firstOf order text = some k ∧
    ∃ c, Captured k c (Text.trim text).toList ∧ c.instant? k = some i

theorem finds_unique (hk : k.pattern.finds text = true) (hl : l.pattern.finds text = true) :
    k = l := by
  obtain ⟨c, hc⟩ := finds_iff.1 hk
  obtain ⟨d, hd⟩ := finds_iff.1 hl
  exact (hc.unique hd).1

/-- A form whose pattern is found comes first in every order. -/
theorem firstOf_iff (horder : ∀ k, k ∈ order) :
    firstOf order text = some k ↔ k.pattern.finds (Text.trim text) = true := by
  have hfound : ∀ l, firstOf order text = some l → l.pattern.finds (Text.trim text) = true := by
    intro l hl
    unfold firstOf at hl
    simpa using List.find?_some hl
  refine ⟨hfound k, fun hk => ?_⟩
  cases hfirst : firstOf order text with
  | none => exact absurd hk (List.find?_eq_none.1 hfirst k (horder k))
  | some l => rw [finds_unique (hfound l hfirst) hk]

theorem interprets_iff (horder : ∀ k, k ∈ order) {i : Instant} :
    Interprets order text k i ↔ ∃ r, read? text = some r ∧ r.kind = k ∧ r.instant? = some i := by
  constructor
  · rintro ⟨-, c, hc, hi⟩
    obtain ⟨r, hr, hi⟩ := Option.bind_eq_some_iff.1 hi
    exact ⟨r, hc.read?_eq.trans hr, Captures.kind_of_reading? hr, hi⟩
  · rintro ⟨r, hr, rfl, hi⟩
    obtain ⟨k, c, hc, hread⟩ := read?_iff.1 hr
    obtain rfl := Captures.kind_of_reading? hread
    exact ⟨(firstOf_iff horder).2 (finds_iff.2 ⟨c, hc⟩), c, hc,
      Option.bind_eq_some_iff.2 ⟨r, hread, hi⟩⟩

/-- At most one of the four patterns is found in a text, and its groups capture their parts in only
one way. So the form of a text, the instant that it covers and the instant by which it is compared
with others are those of one interpretation, in whichever order the patterns are tried. -/
theorem forms_unambiguous (text : String) :
    (∀ k l : DateKind, k.pattern.finds text = true → l.pattern.finds text = true → k = l) ∧
    (∀ k : DateKind, k.pattern.finds text = true → ∃! c, Captured k c text.toList) ∧
    ∀ order : List DateKind, (∀ k, k ∈ order) →
      (∀ k, kind? text = some k ↔ ∃ i, Interprets order text k i) ∧
      (∀ i, instant? text = some i ↔ ∃ k, Interprets order text k i) ∧
      (∀ other, isAfter text other = true ↔ ∃ k i l j, Interprets order text k i ∧
        Interprets order other l j ∧ j.before i = true) := by
  have hinstant : ∀ order : List DateKind, (∀ k, k ∈ order) → ∀ text i,
      instant? text = some i ↔ ∃ k, Interprets order text k i := by
    intro order horder text i
    simp only [interprets_iff horder, instant?, Option.bind_eq_some_iff]
    grind
  refine ⟨fun k l => finds_unique, ?captures, fun order horder =>
    ⟨?kind, hinstant order horder text, ?after⟩⟩
  case captures =>
    intro k hk
    obtain ⟨c, hc⟩ := finds_iff.1 hk
    exact ⟨c, hc, fun d hd => (hd.unique hc).2⟩
  case kind =>
    intro k
    simp only [interprets_iff horder, kind?, Option.bind_eq_some_iff, Option.map_eq_some_iff]
    grind
  case after =>
    intro other
    have hbefore : isAfter text other = true ↔ ∃ i j, instant? text = some i ∧
        instant? other = some j ∧ j.before i = true := by
      unfold isAfter
      cases instant? text <;> cases instant? other <;> simp
    simp only [hbefore, hinstant order horder]
    grind

theorem forms_unambiguous_offset :
    (∀ l : DateKind, l.pattern.finds "2004-05-07:00" = true → l = .yearMonth) ∧
    (∃ i, Interprets [.year, .yearMonth, .date, .dateTime] "2004-05-07:00" .yearMonth i) ∧
    ∃ i, Interprets [.dateTime, .date, .yearMonth, .year] "2004-05-07:00" .yearMonth i := by
  obtain ⟨hone, -, horders⟩ := forms_unambiguous "2004-05-07:00"
  have hfinds : DateKind.yearMonth.pattern.finds "2004-05-07:00" = true := by decide +kernel
  have hkind : kind? "2004-05-07:00" = some .yearMonth := by decide +kernel
  refine ⟨fun l hl => hone l .yearMonth hl hfinds, ?_, ?_⟩
  · exact ((horders _ (by rintro (_ | _) <;> simp)).1 .yearMonth).1 hkind
  · exact ((horders _ (by rintro (_ | _) <;> simp)).1 .yearMonth).1 hkind

end Orders

end Calendar

end DiscoveryMetadata
