import DiscoveryMetadata.Proofs.Returning.Subjects
import DiscoveryMetadata.Proofs.Strictness.Tokens
import DiscoveryMetadata.Proofs.Versions.Built
import DiscoveryMetadata.Proofs.Warnings.Coverages
/-
  Parts of a subject coverage that are there twice.

  A coverage warns of keywords, of categories and of production metrics that are written alike:
  their elements are compared as text. What is equal otherwise may be written in several ways. So
  the warning is there exactly if two members at different places have one text (`Warns.written`),
  and how far that is equality depends on where the members are from. Two that are read again from
  their texts are equal if the texts are (`Warns.sound`), and two that were made with the same
  prefixes have one text if they are equal (`Warns.complete`). For the members of a draft, which
  are both, the warning is exact (`Warns.drafted`). Members that are read may be equal under other
  prefixes or with their attributes in another order, and then nothing is said of them.

  No other warning of an accepted coverage has the same words: what else there is reports a token
  or an actor without a value.
-/
namespace DiscoveryMetadata

open Buildable
open Xml (Element)

section Lists

variable {α β : Type} {r s : α → α → Prop} {xs : List α}

/-- The relation holds between two members of the list at different places. -/
def Twice (r : α → α → Prop) (xs : List α) : Prop :=
  ∃ i j : Fin xs.length, i ≠ j ∧ r xs[i] xs[j]

instance [DecidableRel r] : Decidable (Twice r xs) :=
  inferInstanceAs (Decidable (∃ i j : Fin xs.length, i ≠ j ∧ r xs[i] xs[j]))

theorem Twice.mono (h : ∀ a ∈ xs, ∀ b ∈ xs, r a b → s a b) (ht : Twice r xs) : Twice s xs := by
  obtain ⟨i, j, hij, hr⟩ := ht
  exact ⟨i, j, hij, h _ (List.getElem_mem i.2) _ (List.getElem_mem j.2) hr⟩

/-- A function takes one value at two places of a list exactly if its values there repeat. -/
theorem twice_eq_iff {f : α → β} : Twice (fun a b => f a = f b) xs ↔ ¬(xs.map f).Nodup := by
  rw [List.Nodup, List.pairwise_map, List.pairwise_iff_getElem]
  constructor
  · rintro ⟨i, j, hij, heq⟩ hne
    rcases Nat.lt_or_gt_of_ne (Fin.val_ne_of_ne hij) with hlt | hgt
    · exact hne i j i.2 j.2 hlt heq
    · exact hne j i j.2 i.2 hgt heq.symm
  · intro h
    push Not at h
    obtain ⟨i, j, hi, hj, hlt, heq⟩ := h
    exact ⟨⟨i, hi⟩, ⟨j, hj⟩, Fin.ne_of_lt hlt, heq⟩

/-- Leaving out what is there already makes a list shorter, unless nothing is there twice. -/
theorem length_eraseDups [BEq α] [LawfulBEq α] (xs : List α) :
    xs.eraseDups.length ≤ xs.length ∧ (xs.eraseDups.length = xs.length ↔ xs.Nodup) := by
  match xs with
  | [] => simp
  | a :: as =>
    have hfilter := List.length_filter_le (fun b => !b == a) as
    obtain ⟨hle, heq⟩ := length_eraseDups (as.filter fun b => !b == a)
    rw [List.eraseDups_cons, List.length_cons, List.length_cons, List.nodup_cons]
    refine ⟨by omega, ?_⟩
    by_cases ha : a ∈ as
    · -- then the filter leaves something out
      have hlt : (as.filter fun b => !b == a).length < as.length :=
        List.length_filter_lt_length_iff_exists.2 ⟨a, ha, by simp⟩
      exact ⟨fun h => by omega, fun h => absurd ha h.1⟩
    · have hall : as.filter (fun b => !b == a) = as := by
        rw [List.filter_eq_self]
        intro b hb
        have hne : b ≠ a := fun h => ha (h ▸ hb)
        simpa using hne
      rw [hall] at heq ⊢
      simp only [Nat.add_right_cancel_iff, heq, ha, not_false_eq_true, true_and]
termination_by xs.length

end Lists

namespace SubjectCoverage

/-- The kinds of parts of which a coverage warns, in words. -/
def nouns : List String := ["keywords", "categories", "productionMetrics"]

/-- Two parts of a list are found to be duplicates if they are written alike. -/
theorem hasDuplicates_iff {α : Type} {base : α → Base} {xs : List α} :
    hasDuplicates (xs.map base) = true ↔
      Twice (fun a b => (base a).element.toXml = (base b).element.toXml) xs := by
  rw [twice_eq_iff, ← (length_eraseDups _).2, hasDuplicates, List.map_map, bne_iff_ne]
  rfl

/-- The warning of duplicates among the parts that the noun names. -/
def Warned (c : SubjectCoverage) (noun : String) : Prop :=
  .warning (duplicated noun) ("/" ++ c.writtenName) ∈ c.warnings

/-- The coverage was read, or made of parts that came about before, and its groups of attributes
are recorded with what their checks find. -/
structure Accepted (c : SubjectCoverage) : Prop where
  built : Part.Built (.subjectCoverage c)
  groups : ∀ a, Part.Reaches (.subjectCoverage c) (.attributes a) →
    ∃ ctx, Part.Noted ctx (.attributes a)

instance (c : SubjectCoverage) (noun : String) : Decidable (c.Warned noun) :=
  inferInstanceAs (Decidable (_ ∈ c.warnings))

end SubjectCoverage

section Warnings

/-- A subject coverage, or one of its parts. -/
def Part.AboutSubjects : Part → Prop
  | subjectCoverage _ | keyword _ | category _ | productionMetric _ | nonStateActor _ => True
  | _ => False

/-- However a subject coverage and its parts came about, what their checks find is recorded. -/
theorem Part.Built.noted {ctx : Context} {p : Part} (h : Built p) (hp : p.AboutSubjects) :
    Noted ctx p := by
  -- read or made, the last step is the check of the part, which records what it finds
  cases p with
  | subjectCoverage c =>
    rcases h with ⟨_, _, _, h⟩ | ⟨⟨_, _, _, _, _, _, _, h⟩, -⟩
    · simp only [SubjectCoverage.ofElement, bind_ok] at h
      obtain ⟨_, -, _, -, _, -, _, -, _, -, h⟩ := h
      exact .checked (f := .subjectCoverage) h rfl
    · obtain ⟨_, -, h⟩ := bind_ok.1 h
      exact .checked (f := .subjectCoverage) h rfl
  | keyword c =>
    rcases h with ⟨_, _, _, h⟩ | ⟨⟨_, _, _, _, _, h⟩, -⟩
    all_goals
      obtain ⟨_, -, h⟩ := bind_ok.1 h
      exact .checked (f := .keyword) h rfl
  | category c =>
    rcases h with ⟨_, _, _, h⟩ | ⟨⟨_, _, _, _, _, _, _, h⟩, -⟩
    all_goals
      obtain ⟨_, -, h⟩ := bind_ok.1 h
      exact .checked (f := .category) h rfl
  | productionMetric c =>
    rcases h with ⟨_, _, _, h⟩ | ⟨⟨_, _, _, _, _, h⟩, -⟩
    all_goals
      obtain ⟨_, -, h⟩ := bind_ok.1 h
      exact .checked (f := .productionMetric) h rfl
  | nonStateActor c =>
    rcases h with ⟨_, _, _, h⟩ | ⟨⟨_, _, _, _, _, _, h⟩, -⟩
    · simp only [NonStateActor.ofElement, bind_ok] at h
      obtain ⟨_, -, _, -, h⟩ := h
      exact .checked (f := .nonStateActor) h rfl
    · obtain ⟨_, -, h⟩ := bind_ok.1 h
      exact .checked (f := .nonStateActor) h rfl
  | _ => exact hp.elim

end Warnings

namespace SubjectCoverage

variable {c : SubjectCoverage} {noun : String}

/-- No report of a token has the words of the warning. -/
theorem duplicated_ne_report (hn : noun ∈ nouns) {text : String} (h : Context.ReportsToken text) :
    text ≠ duplicated noun := by
  obtain ⟨key, token, rfl⟩ := h
  -- the words alone that stand between the token and the key are longer
  have hwords : 60 < (toString
      " is not a valid enumeration token for this attribute, as specified in ").length := by decide
  have hlong : 60 < (Context.outside key token).length := by
    simp only [Context.outside, String.length_append]
    omega
  have hshort : ∀ noun ∈ nouns, (duplicated noun).length ≤ 60 := by decide
  intro heq
  have := hshort noun hn
  rw [heq] at hlong
  omega

/-- The parts of a coverage hold nothing but a group, and say nothing of duplicates themselves. -/
theorem children_quiet (hn : noun ∈ nouns) {p : Part} (hp : p ∈ (Part.subjectCoverage c).children)
    (ha : ∀ a, p ≠ .attributes a) :
    p.AboutSubjects ∧ (∃ a, p.children = [.attributes a]) ∧
      ∀ ctx, duplicated noun ∉ p.remarks ctx := by
  have hactor : ∀ noun ∈ nouns,
      duplicated noun ≠ "A ddms:nonStateActor element was found with no value." := by decide
  simp only [Part.children, List.mem_append, List.mem_cons, List.mem_map, ha, false_or] at hp
  obtain ((⟨k, -, rfl⟩ | ⟨x, -, rfl⟩) | ⟨m, -, rfl⟩) | ⟨n, -, rfl⟩ := hp
  · exact ⟨trivial, ⟨_, rfl⟩, fun _ => List.not_mem_nil⟩
  · exact ⟨trivial, ⟨_, rfl⟩, fun _ => List.not_mem_nil⟩
  · exact ⟨trivial, ⟨_, rfl⟩, fun _ => List.not_mem_nil⟩
  · refine ⟨trivial, ⟨_, rfl⟩, fun _ h => ?_⟩
    simp only [Part.remarks, Part.remark] at h
    split at h
    · exact hactor noun hn (List.mem_singleton.1 h)
    · cases h

/-- Duplicates are reported by the coverage alone. -/
theorem children_silent (hc : c.Accepted) (hn : noun ∈ nouns) :
    ∀ p ∈ (Part.subjectCoverage c).children, duplicated noun ∉ p.texts := by
  have hgroup : ∀ a, Part.Reaches (.subjectCoverage c) (.attributes a) →
      duplicated noun ∉ (Part.attributes a).texts := by
    intro a ha ht
    obtain ⟨ctx, hctx⟩ := hc.groups a ha
    obtain ⟨f, hf, htext⟩ := List.mem_map.1 ht
    exact duplicated_ne_report hn (SecurityAttributes.reports_of_check hctx f hf).1 htext
  intro p hp ht
  by_cases hattributes : ∃ a, p = .attributes a
  · obtain ⟨a, rfl⟩ := hattributes
    exact hgroup a (.single hp) ht
  · obtain ⟨hsubject, ⟨a, hchildren⟩, hquiet⟩ :=
      children_quiet hn hp fun a ha => hattributes ⟨a, ha⟩
    have hnoted : Part.Noted {} p := (hc.built.children hp).noted hsubject
    rcases hnoted.mem_texts.1 ht with h | ⟨q, hq, h⟩
    · exact hquiet {} h
    · have hmem : Part.attributes a ∈ p.children := by simp [hchildren]
      rw [hchildren, List.mem_singleton] at hq
      exact hgroup a (.head hp (.single hmem)) (hq ▸ h)

/-- A coverage warns of those of its lists in which two parts are written alike. -/
theorem warned_iff (hc : c.Accepted) :
    (c.Warned "keywords" ↔ hasDuplicates (c.keywords.map (·.toBase)) = true) ∧
    (c.Warned "categories" ↔ hasDuplicates (c.categories.map (·.toBase)) = true) ∧
    (c.Warned "productionMetrics" ↔
      hasDuplicates (c.productionMetrics.map (·.toBase)) = true) := by
  have hnoted : Part.Noted {} (.subjectCoverage c) := hc.built.noted trivial
  -- the words are those of a remark of the coverage, and so the finding is its own
  have hown : ∀ noun ∈ nouns, c.Warned noun ↔
      duplicated noun ∈ (Part.subjectCoverage c).remarks {} := by
    intro noun hn
    constructor
    · intro h
      have ht : duplicated noun ∈ (Part.subjectCoverage c).texts := List.mem_map_of_mem h
      refine (hnoted.mem_texts.1 ht).resolve_right ?_
      rintro ⟨q, hq, h⟩
      exact children_silent hc hn q hq h
    · intro h
      have hfindings : c.warnings = c.findings := hnoted
      simp only [Part.remarks, Part.mem_remark, List.mem_append] at h
      simp only [Warned, hfindings, findings, List.mem_append, Part.mem_warnIf]
      rcases h with (⟨hd, h⟩ | ⟨hd, h⟩) | ⟨hd, h⟩ <;> simp [hd, h]
  have hkx : duplicated "keywords" ≠ duplicated "categories" := by decide
  have hkm : duplicated "keywords" ≠ duplicated "productionMetrics" := by decide
  have hxm : duplicated "categories" ≠ duplicated "productionMetrics" := by decide
  simp only [nouns, List.forall_mem_cons] at hown
  obtain ⟨hk, hx, hm, -⟩ := hown
  simp only [hk, hx, hm, Part.remarks, Part.mem_remark, List.mem_append, hkx, hkm, hxm, hkx.symm,
    hkm.symm, hxm.symm, and_true, and_false, or_false, false_or, and_self]

end SubjectCoverage

section Tags

/-- Both elements have the same name, written alike, and the same attributes. -/
structure Xml.Element.SameTag (e e' : Element) : Prop where
  name : e.name = e'.name
  attributes : e.attributes = e'.attributes

variable {ctx ctx' : Context} {v v' : Version} {e e' e₁ e₂ : Element} {a b : SecurityAttributes}

theorem Xml.Element.SameTag.sameExpanded (h : e.SameTag e') :
    e.name.sameExpanded e'.name = true := by
  simp [h.name, Xml.QName.sameExpanded]

theorem Xml.Element.SameTag.symm (h : e.SameTag e') : e'.SameTag e :=
  ⟨h.name.symm, h.attributes.symm⟩

theorem Xml.Element.SameTag.trans {e'' : Element} (h : e.SameTag e') (h' : e'.SameTag e'') :
    e.SameTag e'' :=
  ⟨h.name.trans h'.name, h.attributes.trans h'.attributes⟩

theorem Xml.Element.SameTag.attribute? (h : e.SameTag e') : e.attribute? = e'.attribute? := by
  funext u l
  rw [Element.attribute?, h.attributes, Element.attribute?]

theorem Xml.Element.SameTag.own (h : e.SameTag e') : e.own = e'.own := by
  funext l
  simp only [Element.own, Element.uri, Element.attributeText, h.name, h.attribute?]

/-- A tree that can be written but for its texts is read back with its tag. -/
theorem Xml.Element.Framed.sameTag (h : e.Framed .empty) :
    ∃ e' : Element, Element.ofXml e.toXml = .ok e' ∧ e'.SameTag e := by
  obtain ⟨e', hread, hstyle, -⟩ := Element.ofXml_toXml_framed h
  rw [Element.restyle_eq, Element.restyle_asRead, Element.mk.injEq] at hstyle
  obtain ⟨hname, hattributes, -⟩ := hstyle
  exact ⟨e', hread, hname, by simpa [Attribute.restyle, QName.restyle] using hattributes⟩

theorem SecurityAttributes.values_of_sameTag (h : e.SameTag e') (ha : ofElement ctx v e = .ok a)
    (hb : ofElement ctx' v e' = .ok b) : a.values = b.values := by
  rw [values_of_checked ha, values_of_checked hb, h.attribute?]

theorem ExtensibleAttributes.ofElement_of_sameTag (h : e.SameTag e') :
    ofElement v e = ofElement v e' := by
  rw [ofElement, h.attributes, ofElement]

theorem Base.beq_iff {x y : Base} :
    (x == y) = true ↔ x.element.name.sameExpanded y.element.name = true := Iff.rfl

theorem SecurityAttributes.beq_iff : (a == b) = true ↔ a.values = b.values :=
  beq_iff_eq (α := List (String × String))

/-- What groups with the same values make of an element is the same. -/
theorem SecurityAttributes.addTo_congr (ha : a.addTo ctx v e = .ok e₁)
    (hb : b.addTo ctx v e = .ok e₂) (h : a.values = b.values) : e₁ = e₂ := by
  obtain ⟨-, rfl⟩ := addTo_ok.1 ha
  obtain ⟨-, rfl⟩ := addTo_ok.1 hb
  rw [h]

end Tags

section Members

variable {ctx ctx' : Context} {v v' : Version} {e e' : Element}

namespace Keyword

variable {a b : Keyword}

/-- The keyword was made, with the prefixes of the context. -/
def MadeIn (ctx : Context) (c : Keyword) : Prop :=
  ∃ v value s x, make ctx v value s x = .ok c

theorem beq_iff : (a == b) = true ↔ a.element.name.sameExpanded b.element.name = true ∧
    a.value = b.value ∧ a.security.values = b.security.values ∧ a.extensible = b.extensible := by
  obtain ⟨base, value, security, extensible⟩ := a
  obtain ⟨base', value', security', extensible'⟩ := b
  change (_ == _ && (_ == _ && (_ == _ && _ == _))) = true ↔ _
  simp only [Bool.and_eq_true, beq_iff_eq, Base.beq_iff, SecurityAttributes.beq_iff]

/-- Keywords that are read from tags that are the same are equal. -/
theorem beq_of_sameTag (h : e.SameTag e') (ha : ofElement ctx v e = .ok a)
    (hb : ofElement ctx' v' e' = .ok b) (hv : a.version = b.version) : (a == b) = true := by
  simp only [ofElement, checked, bind_ok, within_ok, check_ok, pure_ok, exists_unit] at ha hb
  obtain ⟨s, hs, -, rfl⟩ := ha
  obtain ⟨s', hs', -, rfl⟩ := hb
  obtain rfl : v = v' := hv
  exact beq_iff.2 ⟨h.sameExpanded, congrFun h.own _, SecurityAttributes.values_of_sameTag h hs hs',
    ExtensibleAttributes.ofElement_of_sameTag h⟩

/-- Equal keywords that are made with the same prefixes have one element. -/
theorem element_of_beq (ha : MadeIn ctx a) (hb : MadeIn ctx b) (hv : a.version = b.version)
    (h : (a == b) = true) : a.element = b.element := by
  obtain ⟨v, value, s, x, ha⟩ := ha
  obtain ⟨v', value', s', x', hb⟩ := hb
  simp only [make, checked, bind_ok, within_ok, check_ok, pure_ok, exists_unit] at ha hb
  obtain ⟨e, ⟨e₁, hs, hx⟩, -, rfl⟩ := ha
  obtain ⟨e', ⟨e₁', hs', hx'⟩, -, rfl⟩ := hb
  obtain ⟨-, hvalue, hvalues, hextensible⟩ := beq_iff.1 h
  obtain rfl : v = v' := hv
  obtain rfl : value = value' := hvalue
  obtain rfl : x = x' := hextensible
  obtain rfl : e₁ = e₁' := SecurityAttributes.addTo_congr hs hs' hvalues
  exact Except.ok.inj (hx.symm.trans hx')

end Keyword

namespace Category

variable {a b : Category}

/-- The category was made, with the prefixes of the context. -/
def MadeIn (ctx : Context) (c : Category) : Prop :=
  ∃ v qualifier code label s x, make ctx v qualifier code label s x = .ok c

theorem beq_iff : (a == b) = true ↔ a.element.name.sameExpanded b.element.name = true ∧
    a.qualifier = b.qualifier ∧ a.code = b.code ∧ a.label = b.label ∧
      a.security.values = b.security.values ∧ a.extensible = b.extensible := by
  obtain ⟨base, qualifier, code, label, security, extensible⟩ := a
  obtain ⟨base', qualifier', code', label', security', extensible'⟩ := b
  change (_ == _ && (_ == _ && (_ == _ && (_ == _ && (_ == _ && _ == _))))) = true ↔ _
  simp only [Bool.and_eq_true, beq_iff_eq, Base.beq_iff, SecurityAttributes.beq_iff]

/-- Categories that are read from tags that are the same are equal. -/
theorem beq_of_sameTag (h : e.SameTag e') (ha : ofElement ctx v e = .ok a)
    (hb : ofElement ctx' v' e' = .ok b) (hv : a.version = b.version) : (a == b) = true := by
  simp only [ofElement, checked, bind_ok, within_ok, check_ok, pure_ok, exists_unit] at ha hb
  obtain ⟨s, hs, -, rfl⟩ := ha
  obtain ⟨s', hs', -, rfl⟩ := hb
  obtain rfl : v = v' := hv
  exact beq_iff.2 ⟨h.sameExpanded, congrFun h.own _, congrFun h.own _, congrFun h.own _,
    SecurityAttributes.values_of_sameTag h hs hs', ExtensibleAttributes.ofElement_of_sameTag h⟩

/-- Equal categories that are made with the same prefixes have one element. -/
theorem element_of_beq (ha : MadeIn ctx a) (hb : MadeIn ctx b) (hv : a.version = b.version)
    (h : (a == b) = true) : a.element = b.element := by
  obtain ⟨v, qualifier, code, label, s, x, ha⟩ := ha
  obtain ⟨v', qualifier', code', label', s', x', hb⟩ := hb
  simp only [make, checked, bind_ok, within_ok, check_ok, pure_ok, exists_unit] at ha hb
  obtain ⟨e, ⟨e₁, hs, hx⟩, -, rfl⟩ := ha
  obtain ⟨e', ⟨e₁', hs', hx'⟩, -, rfl⟩ := hb
  obtain ⟨-, hqualifier, hcode, hlabel, hvalues, hextensible⟩ := beq_iff.1 h
  obtain rfl : v = v' := hv
  obtain rfl : qualifier = qualifier' := hqualifier
  obtain rfl : code = code' := hcode
  obtain rfl : label = label' := hlabel
  obtain rfl : x = x' := hextensible
  obtain rfl : e₁ = e₁' := SecurityAttributes.addTo_congr hs hs' hvalues
  exact Except.ok.inj (hx.symm.trans hx')

end Category

namespace ProductionMetric

variable {a b : ProductionMetric}

/-- The production metric was made, with the prefixes of the context. -/
def MadeIn (ctx : Context) (c : ProductionMetric) : Prop :=
  ∃ v subject coverage s, make ctx v subject coverage s = .ok c

theorem beq_iff : (a == b) = true ↔ a.element.name.sameExpanded b.element.name = true ∧
    a.subject = b.subject ∧ a.coverage = b.coverage ∧
      a.security.values = b.security.values := by
  obtain ⟨base, subject, coverage, security⟩ := a
  obtain ⟨base', subject', coverage', security'⟩ := b
  change (_ == _ && (_ == _ && (_ == _ && _ == _))) = true ↔ _
  simp only [Bool.and_eq_true, beq_iff_eq, Base.beq_iff, SecurityAttributes.beq_iff]

/-- Production metrics that are read from tags that are the same are equal. -/
theorem beq_of_sameTag (h : e.SameTag e') (ha : ofElement ctx v e = .ok a)
    (hb : ofElement ctx' v' e' = .ok b) (hv : a.version = b.version) : (a == b) = true := by
  simp only [ofElement, checked, bind_ok, within_ok, check_ok, pure_ok, exists_unit] at ha hb
  obtain ⟨s, hs, -, rfl⟩ := ha
  obtain ⟨s', hs', -, rfl⟩ := hb
  obtain rfl : v = v' := hv
  exact beq_iff.2 ⟨h.sameExpanded, congrFun h.own _, congrFun h.own _,
    SecurityAttributes.values_of_sameTag h hs hs'⟩

/-- Equal production metrics that are made with the same prefixes have one element. -/
theorem element_of_beq (ha : MadeIn ctx a) (hb : MadeIn ctx b) (hv : a.version = b.version)
    (h : (a == b) = true) : a.element = b.element := by
  obtain ⟨v, subject, coverage, s, ha⟩ := ha
  obtain ⟨v', subject', coverage', s', hb⟩ := hb
  simp only [make, checked, bind_ok, within_ok, check_ok, pure_ok, exists_unit] at ha hb
  obtain ⟨e, hs, -, rfl⟩ := ha
  obtain ⟨e', hs', -, rfl⟩ := hb
  obtain ⟨-, hsubject, hcoverage, hvalues⟩ := beq_iff.1 h
  obtain rfl : v = v' := hv
  obtain rfl : subject = subject' := hsubject
  obtain rfl : coverage = coverage' := hcoverage
  exact SecurityAttributes.addTo_congr hs hs' hvalues

end ProductionMetric

end Members

namespace SubjectCoverage

/-- A component is read from its own element, and the tag of that is read from its text. -/
structure Reread {α : Type} [Component α] (read : Context → Version → Element → Outcome α)
    (x : α) : Prop where
  component : ∃ ctx v, read ctx v (Component.base x).element = .ok x
  text : ∃ e, Element.ofXml (Component.toXml x) = .ok e ∧ e.SameTag (Component.base x).element

/-- What the warning of duplicates says of the parts of a kind. -/
structure Warns {α : Type} [Component α] [BEq α] (c : SubjectCoverage) (noun : String)
    (read : Context → Version → Element → Outcome α) (MadeIn : Context → α → Prop)
    (xs : List α) : Prop where
  /-- Two of the parts are written alike. -/
  written : c.Warned noun ↔ Twice (fun a b => Component.toXml a = Component.toXml b) xs
  /-- Of parts that can be read again, two are equal. -/
  sound : (∀ x ∈ xs, Reread read x) → c.Warned noun → Twice (fun a b => (a == b) = true) xs
  /-- It is not missing where two parts are equal that were made with the same prefixes. -/
  complete : ∀ ctx, (∀ x ∈ xs, MadeIn ctx x) → Twice (fun a b => (a == b) = true) xs →
    c.Warned noun
  /-- In a coverage that was made from a draft, two parts are equal, and nothing else. -/
  drafted : ∀ ctx v (d : Draft), Xml.Distinct (ctx.bindings v) → commitAs ctx v d = .ok (some c) →
    (c.Warned noun ↔ Twice (fun a b => (a == b) = true) xs)

section Warns

variable {α : Type} [Component α] {c : SubjectCoverage} {noun : String}
  {read : Context → Version → Element → Outcome α} {MadeIn : Context → α → Prop} {xs : List α}

/-- A part that returns from its element is read again. -/
theorem Reread.of_returns {ctx : Context} {v : Version} {n : Xml.QName} {x : α}
    (ht : Xml.Distinct (ctx.bindings v)) (h : Returns (fun _ => True) read ctx v n x) :
    Reread read x :=
  ⟨⟨ctx, v, h.again⟩, (h.regular.framed ht).sameTag⟩

theorem Warns.of [BEq α] (hwarned : c.Warned noun ↔ hasDuplicates (xs.map Component.base) = true)
    (hversion : ∀ x ∈ xs, (Component.base x).version = c.version)
    (hread : ∀ {ctx ctx' v v' e e' a b}, e.SameTag e' → read ctx v e = .ok a →
      read ctx' v' e' = .ok b → (Component.base a).version = (Component.base b).version →
      (a == b) = true)
    (hmade : ∀ {ctx a b}, MadeIn ctx a → MadeIn ctx b →
      (Component.base a).version = (Component.base b).version → (a == b) = true →
      (Component.base a).element = (Component.base b).element)
    (hdraft : ∀ {ctx v} {d : Draft}, Xml.Distinct (ctx.bindings v) →
      commitAs ctx v d = .ok (some c) → ∀ x ∈ xs, MadeIn ctx x ∧ Reread read x) :
    Warns c noun read MadeIn xs := by
  have hwritten := hwarned.trans hasDuplicates_iff
  have hsame : ∀ x ∈ xs, ∀ y ∈ xs, (Component.base x).version = (Component.base y).version :=
    fun x hx y hy => (hversion x hx).trans (hversion y hy).symm
  have hsound : (∀ x ∈ xs, Reread read x) → c.Warned noun →
      Twice (fun a b => (a == b) = true) xs := by
    intro hreread hw
    refine (hwritten.1 hw).mono fun x hx y hy heq => ?_
    obtain ⟨⟨ctx, v, hxread⟩, e, he, hxtag⟩ := hreread x hx
    obtain ⟨⟨ctx', v', hyread⟩, e', he', hytag⟩ := hreread y hy
    -- both tags are read from one text
    replace heq : Component.toXml x = Component.toXml y := heq
    rw [heq] at he
    obtain rfl : e = e' := Except.ok.inj (he.symm.trans he')
    exact hread (hxtag.symm.trans hytag) hxread hyread (hsame x hx y hy)
  have hcomplete : ∀ ctx, (∀ x ∈ xs, MadeIn ctx x) → Twice (fun a b => (a == b) = true) xs →
      c.Warned noun := by
    intro ctx hall htwice
    refine hwritten.2 (htwice.mono fun x hx y hy heq => ?_)
    rw [hmade (hall x hx) (hall y hy) (hsame x hx y hy) heq]
  refine ⟨hwritten, hsound, hcomplete, fun ctx v d ht hd => ⟨?_, ?_⟩⟩
  · exact hsound fun x hx => (hdraft ht hd x hx).2
  · exact hcomplete ctx fun x hx => (hdraft ht hd x hx).1

end Warns

variable {c : SubjectCoverage}

/-- The parts of a built coverage have its version. -/
theorem version_of_built (hc : Part.Built (.subjectCoverage c)) :
    ∀ p ∈ (Part.subjectCoverage c).children, ∀ v ∈ p.version?, v = c.version :=
  (hc.fits c.version rfl).2

/-- The parts of a coverage that is made from a draft are made with its prefixes, and read again. -/
theorem drafted_parts {ctx : Context} {v : Version} {d : Draft}
    (ht : Xml.Distinct (ctx.bindings v)) (h : commitAs ctx v d = .ok (some c)) :
    (∀ k ∈ c.keywords, Keyword.MadeIn ctx k ∧ Reread Keyword.ofElement k) ∧
    (∀ x ∈ c.categories, Category.MadeIn ctx x ∧ Reread Category.ofElement x) ∧
    (∀ m ∈ c.productionMetrics, ProductionMetric.MadeIn ctx m ∧
      Reread ProductionMetric.ofElement m) := by
  have hbuild := (commitAs_some.1 h).2
  simp only [Buildable.build, make, checked, bind_ok, within_ok, check_ok, pure_ok,
    exists_unit] at hbuild
  obtain ⟨ks, hk, xs, hx, ms, hm, as, -, s, -, e, -, -, rfl⟩ := hbuild
  refine ⟨commitAll_all (fun _ _ k h => ?_) hk, commitAll_all (fun _ _ x h => ?_) hx,
    commitAll_all (fun _ _ m h => ?_) hm⟩
  · obtain ⟨s, -, hmake⟩ := bind_ok.1 h
    exact ⟨⟨_, _, _, _, hmake⟩, .of_returns ht (Keyword.build_returns h)⟩
  · obtain ⟨s, -, hmake⟩ := bind_ok.1 h
    exact ⟨⟨_, _, _, _, _, _, hmake⟩, .of_returns ht (Category.build_returns h)⟩
  · obtain ⟨s, -, hmake⟩ := bind_ok.1 h
    exact ⟨⟨_, _, _, _, hmake⟩, .of_returns ht (ProductionMetric.build_returns h)⟩

theorem Accepted.of_ofElement {ctx : Context} {v : Version} {e : Element}
    (h : ofElement ctx v e = .ok c) : c.Accepted :=
  ⟨.read ⟨_, _, _, h⟩, fun _ ha => ⟨ctx, (ofElement_told h).noted ha⟩⟩

theorem Accepted.of_commitAs {ctx : Context} {v : Version} {d : Draft}
    (h : commitAs ctx v d = .ok (some c)) : c.Accepted := by
  have hbuild := (commitAs_some.1 h).2
  refine ⟨?_, fun _ ha => ⟨ctx, (build_told hbuild).noted ha⟩⟩
  -- the parts of the coverage are made themselves, of nothing but security attributes
  have hmarked : ∀ {p : Part} {a}, Part.Made p → p.children = [.attributes a] → Part.Built p := by
    intro p a hp hchildren
    refine .made hp ?_
    rw [hchildren, List.forall_mem_singleton]
    exact .read trivial
  simp only [Buildable.build, bind_ok] at hbuild
  obtain ⟨ks, hk, xs, hx, ms, hm, as, ha, s, -, hmake⟩ := hbuild
  refine .made ⟨_, _, _, _, _, _, _, hmake⟩ ?_
  simp only [make, checked, bind_ok, within_ok, check_ok, pure_ok, exists_unit] at hmake
  obtain ⟨e, -, -, rfl⟩ := hmake
  simp only [Part.children, List.forall_mem_append, List.forall_mem_cons, List.forall_mem_map]
  refine ⟨⟨⟨⟨.read trivial, commitAll_all (fun _ _ k h => ?_) hk⟩,
    commitAll_all (fun _ _ x h => ?_) hx⟩, commitAll_all (fun _ _ m h => ?_) hm⟩,
    commitAll_all (fun _ _ a h => ?_) ha⟩
  · obtain ⟨_, -, h⟩ := bind_ok.1 h
    exact hmarked (p := .keyword k) ⟨_, _, _, _, _, h⟩ rfl
  · obtain ⟨_, -, h⟩ := bind_ok.1 h
    exact hmarked (p := .category x) ⟨_, _, _, _, _, _, _, h⟩ rfl
  · obtain ⟨_, -, h⟩ := bind_ok.1 h
    exact hmarked (p := .productionMetric m) ⟨_, _, _, _, _, h⟩ rfl
  · obtain ⟨_, -, h⟩ := bind_ok.1 h
    exact hmarked (p := .nonStateActor a) ⟨_, _, _, _, _, _, h⟩ rfl

/-- An accepted coverage warns of keywords, of categories and of production metrics that are there
twice in so far as they are written alike. -/
theorem duplicates_warned (c : SubjectCoverage) (hc : c.Accepted) :
    Warns c "keywords" Keyword.ofElement Keyword.MadeIn c.keywords ∧
    Warns c "categories" Category.ofElement Category.MadeIn c.categories ∧
    Warns c "productionMetrics" ProductionMetric.ofElement ProductionMetric.MadeIn
      c.productionMetrics := by
  obtain ⟨hkeywords, hcategories, hmetrics⟩ := warned_iff hc
  have hversion := version_of_built hc.built
  simp only [Part.children, List.mem_append, List.mem_cons, List.mem_map] at hversion
  refine ⟨.of hkeywords (fun k hk => ?_) Keyword.beq_of_sameTag Keyword.element_of_beq
      fun ht h => (drafted_parts ht h).1,
    .of hcategories (fun x hx => ?_) Category.beq_of_sameTag Category.element_of_beq
      fun ht h => (drafted_parts ht h).2.1,
    .of hmetrics (fun m hm => ?_) ProductionMetric.beq_of_sameTag ProductionMetric.element_of_beq
      fun ht h => (drafted_parts ht h).2.2⟩
  · exact hversion (.keyword k) (.inl (.inl (.inl (.inr ⟨k, hk, rfl⟩)))) _ rfl
  · exact hversion (.category x) (.inl (.inl (.inr ⟨x, hx, rfl⟩))) _ rfl
  · exact hversion (.productionMetric m) (.inl (.inr ⟨m, hm, rfl⟩)) _ rfl

/-- Two keywords with the same attributes in another order, and two categories. -/
def repeated : Draft where
  keywords := [
    { value := "word"
      security := { values := [("classification", "U"), ("ownerProducer", "USA")] } },
    { value := "word"
      security := { values := [("ownerProducer", "USA"), ("classification", "U")] } }]
  categories := [{ label := "first" }, { label := "second" }]

theorem duplicates_warned_repeated :
    ∃ c, commitAs {} .v5_0 repeated = .ok (some c) ∧
      c.Warned "keywords" ∧ Twice (fun a b => (a == b) = true) c.keywords ∧
      ¬c.Warned "categories" ∧ ¬Twice (fun a b => (a == b) = true) c.categories := by
  have hcommit : ((commitAs {} .v5_0 repeated : Outcome (Option SubjectCoverage)).toOption.bind
      id).map (fun c => (decide (c.Warned "keywords"), decide (c.Warned "categories"))) =
        some (true, false) := by decide +kernel
  obtain ⟨c, hc, hwarned⟩ := Option.map_eq_some_iff.1 hcommit
  obtain ⟨o, ho, rfl⟩ := Option.bind_eq_some_iff.1 hc
  replace ho := toOption_ok.1 ho
  obtain ⟨hkeywords, hcategories, -⟩ := duplicates_warned c (.of_commitAs ho)
  have hdistinct : Xml.Distinct (Context.bindings {} .v5_0) := Context.bindings_distinct rfl
  simp only [Prod.mk.injEq, decide_eq_true_eq, decide_eq_false_iff_not] at hwarned
  exact ⟨c, ho, hwarned.1, (hkeywords.drafted _ _ _ hdistinct ho).1 hwarned.1, hwarned.2,
    fun h => hwarned.2 ((hcategories.drafted _ _ _ hdistinct ho).2 h)⟩

/-- A keyword of version 5.0 in an element, under a prefix and with some attributes. -/
def word (nsPrefix : String) (attributes : List (Xml.QName × String)) : Element where
  name := .prefixed nsPrefix Version.v5_0.ddmsUri "keyword"
  attributes := ⟨.prefixed nsPrefix Version.v5_0.ddmsUri "value", "word"⟩ ::
    attributes.map fun (n, x) => ⟨n, x⟩

/-- A coverage with two keywords that were read from these elements. -/
def covering (keywords : List Element) : Outcome SubjectCoverage :=
  ofElement {} .v5_0 ((Context.ddmsElement {} .v5_0 "subjectCoverage").add keywords)

/-- Keywords that have another prefix, that have their attributes in another order. -/
def apart : List (List Element) :=
  let marks := [(Context.ismName {} .v5_0 "classification", "U"),
    (Context.ismName {} .v5_0 "ownerProducer", "USA")]
  [[word "ddms" [], word "d" []], [word "ddms" marks, word "ddms" marks.reverse]]

/-- A keyword that says its language, which reading leaves out, once read and once made. -/
def lingual : Outcome SubjectCoverage := do
  let lang : Xml.QName := .prefixed "xml" Xml.xmlNamespace "lang"
  let k ← Keyword.ofElement {} .v5_0 (word "ddms" [(lang, "en")])
  let k' ← Keyword.make {} .v5_0 "word" (.empty .v5_0) ⟨.v5_0, [⟨lang, "en"⟩]⟩
  make {} .v5_0 [k, k'] [] [] [] (.empty .v5_0)

/-- Nothing is said of equal keywords under different prefixes, nor of equal keywords with their
attributes in another order. A keyword that was read and another one that was made are said to be
the same where they are not. -/
theorem equal_not_warned :
    (∀ keywords ∈ apart, ∃ c, covering keywords = .ok c ∧ c.Accepted ∧
      Twice (fun a b => (a == b) = true) c.keywords ∧ ¬c.Warned "keywords") ∧
    ∃ c, lingual = .ok c ∧
      c.Warned "keywords" ∧ ¬Twice (fun a b => (a == b) = true) c.keywords := by
  have hread : ∀ keywords ∈ apart, (covering keywords).toOption.map (fun c =>
      (decide (Twice (fun a b => (a == b) = true) c.keywords), decide (c.Warned "keywords"))) =
        some (true, false) := by
    decide +kernel
  have hmade : lingual.toOption.map (fun c =>
      (decide (c.Warned "keywords"), decide (Twice (fun a b => (a == b) = true) c.keywords))) =
        some (true, false) := by
    decide +kernel
  simp only [Option.map_eq_some_iff, toOption_ok, Prod.mk.injEq, decide_eq_true_eq,
    decide_eq_false_iff_not] at hread hmade
  refine ⟨fun keywords hk => ?_, hmade⟩
  obtain ⟨c, hc, htwice, hwarned⟩ := hread keywords hk
  exact ⟨c, hc, .of_ofElement hc, htwice, hwarned⟩

end SubjectCoverage

end DiscoveryMetadata
