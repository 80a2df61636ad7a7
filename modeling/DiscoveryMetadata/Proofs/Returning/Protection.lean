import DiscoveryMetadata.Proofs.Attributes.Groups
import DiscoveryMetadata.Proofs.Rebuilding.Protection
import DiscoveryMetadata.Proofs.Returning.Basic
import DiscoveryMetadata.Proofs.Text.Words
import DiscoveryMetadata.Protection.Security
/-
  The security of a resource is read again from the elements that it is made into: notices with
  their texts, and need-to-know rules with their lists.
-/
namespace DiscoveryMetadata

open Buildable
open Text (IsWord)
open Xml (Element IsName QName)
open Xml.Element (Regular)

variable {fit : String → Prop} {ctx : Context} {v : Version} {s : SecurityAttributes}
  {sd : SecurityAttributes.Draft}

namespace Context

variable {l n : String}

theorem elementIn_ism : ctx.elementIn v .ism l = .ok { name := ctx.ismName v l } := rfl

@[simp]
theorem isNamed_ismName : (ctx.ismName v l).isNamed v.ismUri n = (l == n) := by
  simp [ismName, QName.isNamed]

/-- A name of the elements of need-to-know rules. -/
def ntkName (ctx : Context) (l : String) : QName := .prefixed ctx.prefixes.ntk Version.ntkUri l

@[simp]
theorem localName_ntkName : (ctx.ntkName l).localName = l := rfl

@[simp]
theorem uri_ntkName : (ctx.ntkName l).uri = some Version.ntkUri := rfl

@[simp]
theorem isNamed_ntkName : (ctx.ntkName l).isNamed Version.ntkUri n = (l == n) := by
  simp [ntkName, QName.isNamed]

theorem listed_ntkName (hl : IsName l) : (ctx.ntkName l).Listed (ctx.bindings v) :=
  .intro (by simp [bindings]) hl

theorem nameIn_ntk {q : QName} (h : ctx.nameIn v .ntk l = .ok q) : q = ctx.ntkName l := by
  simp only [nameIn, Version.uriOf, bind_ok, pure_ok] at h
  obtain ⟨u, hu, rfl⟩ := h
  split at hu <;> cases hu
  rfl

end Context

section Notices

namespace NoticeText

variable {c : NoticeText} {value : String} {pocTypes : List String}

/-- What is known of a text that was made: from its element the value, the words of the kinds of
contact and the security attributes are read. -/
structure Made (ctx : Context) (v : Version) (value : String) (pocTypes : List String)
    (s : SecurityAttributes) (c : NoticeText) : Prop where
  element : c.element = (SecurityAttributes.mark ctx v s.values
    (Element.putText { name := ctx.ismName v "NoticeText" } value)).put (ctx.ismName v "pocType")
    (Text.unwords pocTypes)
  pocTypes_read : Text.words (c.element.attributeText v.ismUri "pocType") =
    pocTypes.flatMap Text.words
  security : SecurityAttributes.ofElement ctx v c.element = .ok s
  rules : checked ctx ⟨⟨c.element, v, []⟩, value, pocTypes, s⟩ = .ok c

theorem made_of_make (hs : s.Accepted ctx s.version) (h : make ctx v value pocTypes s = .ok c) :
    Made ctx v value pocTypes s c := by
  simp only [make, Context.elementIn_ism, bind_ok, within_ok, Except.ok.injEq,
    exists_eq_left'] at h
  obtain ⟨e, he, hc⟩ := h
  have hsec := hs.ofElement_addTo he fun _ _ => by
    rw [Element.attribute?_putText]
    rfl
  obtain ⟨rfl, rfl⟩ := SecurityAttributes.addTo_ok.1 he
  -- the kinds of contact are put on last, under a name that no security attribute has
  have hother : "pocType" ∉ SecurityAttributes.names := by decide
  have helement : c.element = (SecurityAttributes.mark ctx s.version s.values
      (Element.putText { name := ctx.ismName s.version "NoticeText" } value)).put
      (ctx.ismName s.version "pocType") (Text.unwords pocTypes) := by
    simp only [checked, bind_ok, check_ok, pure_ok] at hc
    obtain ⟨_, -, rfl⟩ := hc
    rfl
  have hread : SecurityAttributes.ofElement ctx s.version c.element = .ok s := by
    rw [← hsec, helement]
    refine SecurityAttributes.ofElement_same fun l hl => ?_
    have hne : "pocType" ≠ l := by
      rintro rfl
      exact hother hl
    simp [Element.attribute?_put, Context.ismName, hne]
  have htext : c.element.attributeText s.version.ismUri "pocType" = Text.unwords pocTypes := by
    have hnone : (SecurityAttributes.mark ctx s.version s.values (Element.putText
        { name := ctx.ismName s.version "NoticeText" } value)).attribute? (some s.version.ismUri)
        "pocType" = none := by
      rw [hs.attribute?_mark hother, Element.attribute?_putText]
      rfl
    rw [helement, Element.attributeText_put, Element.attributeText, hnone]
    simp [Context.ismName]
  exact ⟨helement, htext ▸ Text.words_unwords_eq pocTypes, hread, helement ▸ hc⟩

/-- A text is read as it was made but for its kinds of contact, which are read word by word. -/
theorem Made.ofElement_eq (hm : Made ctx v value pocTypes s c) : ofElement ctx v c.element =
    checked ctx ⟨⟨c.element, v, []⟩, value, pocTypes.flatMap Text.words, s⟩ := by
  have hcontent : c.element.content = value := by simp [hm.element, Element.content_putText]
  simp only [ofElement, hm.security, hm.pocTypes_read, hcontent]
  rfl

theorem make_returns (hv : fit value) (hp : ∀ t ∈ pocTypes, IsWord t)
    (hs : sd.commitAs ctx v = .ok s) (h : make ctx v value pocTypes s = .ok c) :
    Returns fit ofElement ctx v (ctx.ismName v "NoticeText") c := by
  have hm := made_of_make (SecurityAttributes.accepted_of_commit hs) h
  have hread : ofElement ctx v c.element = .ok c := by
    rw [hm.ofElement_eq, Text.flatMap_words_eq_self.2 hp]
    exact hm.rules
  refine .of_read hread rfl ?_ ?_ <;> rw [hm.element]
  · simp
  · exact (((Regular.bare (ctx.listed_ismName (by decide))).putText hv).mark hs).put
      (.listed (ctx.listed_ismName (by decide)))

namespace Draft

/-- The texts of elements. -/
def texts (d : Draft) : List String := [d.value]

/-- The items of lists. -/
def items (d : Draft) : List String := d.pocTypes

end Draft

theorem pocTypes_of_build {d : Draft} (h : build ctx v d = .ok c) :
    c.pocTypes = dropBlank d.pocTypes := by
  simp only [build, make, checked, bind_ok, pure_ok] at h
  obtain ⟨_, -, _, -, _, -, _, -, rfl⟩ := h
  rfl

theorem isWord_of_items {d : Draft} (hi : ∀ t ∈ d.items, IsWord t) (h : build ctx v d = .ok c) :
    ∀ t ∈ c.pocTypes, IsWord t := by
  rw [pocTypes_of_build h]
  exact fun t ht => hi t (List.mem_filter.1 ht).1

/-- The kinds of contact are told apart in the list of them if they are words. -/
theorem build_returns {d : Draft} (ht : ∀ t ∈ d.texts, fit t) (hw : ∀ t ∈ c.pocTypes, IsWord t)
    (h : build ctx v d = .ok c) : Returns fit ofElement ctx v (ctx.ismName v "NoticeText") c := by
  rw [pocTypes_of_build h] at hw
  obtain ⟨s, hs, h⟩ := bind_ok.1 h
  exact make_returns (by simpa [Draft.texts] using ht) hw hs h

end NoticeText

namespace Notice

variable {c : Notice} {texts : List NoticeText} {notice : NoticeAttributes}

/-- The kinds of contact of all texts. -/
def pocTypes (c : Notice) : List String := c.texts.flatMap (·.pocTypes)

theorem make_returns
    (ht : ∀ t ∈ texts, Returns fit NoticeText.ofElement ctx v (ctx.ismName v "NoticeText") t)
    (hn : NoticeAttributes.ofValues ctx v notice.noticeType notice.noticeReason notice.noticeDate
      notice.unregisteredNoticeType notice.externalNotice = .ok notice)
    (hs : sd.commitAs ctx v = .ok s) (h : make ctx v texts s notice = .ok c) :
    Returns fit ofElement ctx v (ctx.ismName v "Notice") c := by
  simp only [make, Context.elementIn_ism, bind_ok, within_ok, Except.ok.injEq,
    exists_eq_left'] at h
  obtain ⟨e, ⟨e', he, hadd⟩, hmade⟩ := h
  have hsec := SecurityAttributes.ofElement_addTo hs he fun _ _ => rfl
  obtain ⟨-, rfl⟩ := SecurityAttributes.addTo_ok.1 he
  have hput := NoticeAttributes.addTo_ok hadd
  have hread : SecurityAttributes.ofElement ctx v e = .ok s := by
    rw [← hsec]
    refine SecurityAttributes.ofElement_same fun l hl => ?_
    rw [hput, NoticeAttributes.attribute?_putAll_other (NoticeAttributes.not_mem_names hl)]
  have hnotice : NoticeAttributes.ofElement ctx v e = .ok notice := by
    rw [hput, NoticeAttributes.ofElement_putAll fun l hl => ?_, hn]
    rw [SecurityAttributes.attribute?_mark_other hs fun h => NoticeAttributes.not_mem_names h hl]
    rfl
  have hfind : e.childrenNamed v.ismUri "NoticeText" = texts.map (·.element) := by
    have hnames : ∀ e ∈ texts.map (·.element), e.name = _ := names_returns ht
    simp [hput, Element.childrenNamed, filter_named hnames]
  refine .of_made (e := e) hmade (fun _ => rfl) ?_ (by simp [hput]) ?_
  · simp only [ofElement, hfind, bind_ok, within_ok]
    exact ⟨texts, readAll_returns ht, s, hread, notice, hnotice, hmade⟩
  · rw [hput]
    refine (((Regular.bare (ctx.listed_ismName (by decide))).add (regular_returns ht)).mark
      hs).putAll fun p hp => .listed (ctx.listed_ismName ?_)
    have hnames : ∀ l ∈ NoticeAttributes.names, IsName l := by decide
    exact hnames _ (NoticeAttributes.names_pairs ▸ List.mem_map_of_mem hp)

namespace Draft

/-- The texts of elements. -/
def allTexts (d : Draft) : List String := d.texts.flatMap (·.texts)

/-- The items of lists. -/
def items (d : Draft) : List String := d.texts.flatMap (·.items)

end Draft

theorem texts_of_make (h : make ctx v texts s notice = .ok c) : c.texts = texts := by
  simp only [make, checked, bind_ok, pure_ok] at h
  obtain ⟨_, -, _, -, _, -, rfl⟩ := h
  rfl

/-- What is so of the kinds of contact in every text that is made is so of all of them. -/
theorem forall_pocTypes {P : String → Prop} {d : Draft}
    (hd : ∀ t ∈ d.texts, ∀ c, build ctx v t = .ok c → ∀ p ∈ c.pocTypes, P p)
    (h : build ctx v d = .ok c) : ∀ p ∈ c.pocTypes, P p := by
  obtain ⟨notice, -, h⟩ := bind_ok.1 h
  obtain ⟨texts, htexts, h⟩ := bind_ok.1 h
  obtain ⟨s, -, h⟩ := bind_ok.1 h
  rw [pocTypes, texts_of_make h, List.forall_mem_flatMap]
  exact commitAll_all hd htexts

theorem build_returns {d : Draft} (ht : ∀ t ∈ d.allTexts, fit t)
    (hw : ∀ p ∈ c.pocTypes, IsWord p) (h : build ctx v d = .ok c) :
    Returns fit ofElement ctx v (ctx.ismName v "Notice") c := by
  simp only [Draft.allTexts, List.forall_mem_flatMap] at ht
  obtain ⟨notice, hn, h⟩ := bind_ok.1 h
  obtain ⟨texts, htexts, h⟩ := bind_ok.1 h
  obtain ⟨s, hs, h⟩ := bind_ok.1 h
  rw [pocTypes, texts_of_make h, List.forall_mem_flatMap] at hw
  have hreturns : ∀ t ∈ texts, (∀ p ∈ t.pocTypes, IsWord p) →
      Returns fit NoticeText.ofElement ctx v (ctx.ismName v "NoticeText") t :=
    commitAll_all (fun t hmem _ hc hp => NoticeText.build_returns (ht t hmem) hp hc) htexts
  exact make_returns (fun t hmem => hreturns t hmem (hw t hmem))
    (NoticeAttributes.ofValues_toDraft hn) hs h

end Notice

namespace NoticeList

variable {c : NoticeList} {notices : List Notice}

/-- The kinds of contact of all notices. -/
def pocTypes (c : NoticeList) : List String := c.notices.flatMap (·.pocTypes)

theorem make_returns
    (hn : ∀ n ∈ notices, Returns fit Notice.ofElement ctx v (ctx.ismName v "Notice") n)
    (hs : sd.commitAs ctx v = .ok s) (h : make ctx v notices s = .ok c) :
    Returns fit ofElement ctx v (ctx.ddmsName v "noticeList") c := by
  simp only [make, bind_ok, within_ok] at h
  obtain ⟨e, he, hmade⟩ := h
  have hsec := SecurityAttributes.ofElement_addTo hs he (by simp)
  obtain ⟨-, rfl⟩ := SecurityAttributes.addTo_ok.1 he
  have hfind : (SecurityAttributes.mark ctx v s.values ((ctx.ddmsElement v "noticeList").add
      (notices.map (·.element)))).childrenNamed v.ismUri "Notice" = notices.map (·.element) := by
    have hnames : ∀ e ∈ notices.map (·.element), e.name = _ := names_returns hn
    simp [Element.childrenNamed, filter_named hnames]
  refine .of_made (e := SecurityAttributes.mark ctx v s.values ((ctx.ddmsElement v "noticeList").add
    (notices.map (·.element)))) hmade (fun _ => rfl) ?_ (by simp)
    (((Regular.ddmsElement (by decide)).add (regular_returns hn)).mark hs)
  simp only [ofElement, hfind, bind_ok, within_ok]
  exact ⟨notices, readAll_returns hn, s, hsec, hmade⟩

namespace Draft

/-- The texts of elements. -/
def texts (d : Draft) : List String := d.notices.flatMap (·.allTexts)

/-- The items of lists. -/
def items (d : Draft) : List String := d.notices.flatMap (·.items)

/-- The texts of all notices. -/
def noticeTexts (d : Draft) : List NoticeText.Draft := d.notices.flatMap (·.texts)

end Draft

theorem notices_of_make (h : make ctx v notices s = .ok c) : c.notices = notices := by
  simp only [make, checked, bind_ok, pure_ok] at h
  obtain ⟨_, -, _, -, rfl⟩ := h
  rfl

theorem forall_pocTypes {P : String → Prop} {d : Draft}
    (hd : ∀ t ∈ d.noticeTexts, ∀ c, build ctx v t = .ok c → ∀ p ∈ c.pocTypes, P p)
    (h : build ctx v d = .ok c) : ∀ p ∈ c.pocTypes, P p := by
  rw [Draft.noticeTexts, List.forall_mem_flatMap] at hd
  obtain ⟨notices, hn, h⟩ := bind_ok.1 h
  obtain ⟨s, -, h⟩ := bind_ok.1 h
  rw [pocTypes, notices_of_make h, List.forall_mem_flatMap]
  exact commitAll_all (fun n hmem _ hc => Notice.forall_pocTypes (hd n hmem) hc) hn

theorem build_returns {d : Draft} (ht : ∀ t ∈ d.texts, fit t)
    (hw : ∀ p ∈ c.pocTypes, IsWord p) (h : build ctx v d = .ok c) :
    Returns fit ofElement ctx v (ctx.ddmsName v "noticeList") c := by
  simp only [Draft.texts, List.forall_mem_flatMap] at ht
  obtain ⟨notices, hn, h⟩ := bind_ok.1 h
  obtain ⟨s, hs, h⟩ := bind_ok.1 h
  rw [pocTypes, notices_of_make h, List.forall_mem_flatMap] at hw
  have hreturns : ∀ n ∈ notices, (∀ p ∈ n.pocTypes, IsWord p) →
      Returns fit Notice.ofElement ctx v (ctx.ismName v "Notice") n :=
    commitAll_all (fun n hmem _ hc hp => Notice.build_returns (ht n hmem) hp hc) hn
  exact make_returns (fun n hmem => hreturns n hmem (hw n hmem)) hs h

end NoticeList

end Notices

section NeedToKnow

namespace Ntk

variable {l : String} {e : Element} {u : String}

theorem uriFor_eq (h : uriFor v l = .ok u) : u = Version.ntkUri := by
  simp only [uriFor, Version.uriOf, bind_ok, exists_unit] at h
  obtain ⟨-, h⟩ := h
  split at h <;> cases h
  rfl

/-- An element of these rules is one of its name, in a version that has them. -/
theorem element_ok (h : element ctx v l = .ok e) :
    e = { name := ctx.ntkName l } ∧ uriFor v l = .ok Version.ntkUri := by
  simp only [element, within_ok, bind_ok, Context.elementIn, pure_ok] at h
  obtain ⟨u, hu, q, hq, rfl⟩ := h
  exact ⟨by rw [Context.nameIn_ntk hq], uriFor_eq hu ▸ hu⟩

end Ntk

theorem Context.putIn_ntk {l value : String} {e e' : Element}
    (h : ctx.putIn v .ntk l value e = .ok e') : e' = e.put (ctx.ntkName l) value := by
  unfold putIn at h
  unfold Element.put
  split at h
  case isTrue hempty => rw [if_pos hempty, Except.ok.inj h]
  case isFalse hempty =>
    obtain ⟨q, hq, h⟩ := bind_ok.1 h
    rw [if_neg hempty, ← nameIn_ntk hq, pure_ok.1 h]

namespace AccessText

variable {c : AccessText} {kind : Kind} {value vocabulary id idReference qualifier : String}

theorem make_returns (hv : fit value) (hs : sd.commitAs ctx v = .ok s)
    (h : make ctx v kind value vocabulary id idReference qualifier s = .ok c) :
    Returns fit ofElement ctx v (ctx.ntkName kind.name) c := by
  simp only [make, bind_ok, within_ok] at h
  obtain ⟨e₀, h₀, e₁, h₁, e₂, h₂, e₃, h₃, e', h₄, e, he, hmade⟩ := h
  obtain ⟨rfl, huri⟩ := Ntk.element_ok h₀
  obtain rfl := Context.putIn_ntk h₁
  obtain rfl := Context.putIn_ntk h₂
  obtain rfl := Context.putIn_ntk h₃
  obtain rfl := Context.putIn_ntk h₄
  have hkind : IsName kind.name ∧ Kind.ofName? kind.name = some kind := by cases kind <;> decide
  have hnone : ∀ u l, (Element.putText { name := ctx.ntkName kind.name } value).attribute? u l =
      none := by
    intro u l
    rw [Element.attribute?_putText]
    rfl
  have hblank : ∀ u l, (Element.putText { name := ctx.ntkName kind.name } value).attributeText u l =
      "" := fun u l => by rw [Element.attributeText, hnone, Option.getD_none]
  have hsec := SecurityAttributes.ofElement_addTo hs he fun _ _ => by
    simp [Element.attribute?_put, hnone, v.ntkUri_ne_ismUri]
  obtain ⟨-, rfl⟩ := SecurityAttributes.addTo_ok.1 he
  refine .of_made hmade (fun _ => rfl) ?_ (by simp [Component.base]) (.mark ?_ hs)
  · simp only [Component.base, ofElement, Element.localName, SecurityAttributes.name_mark,
      Element.name_put, Element.name_putText, Context.localName_ntkName, hkind.2, huri, bind_ok,
      within_ok]
    refine ⟨_, rfl, s, hsec, ?_⟩
    convert hmade using 2
    simp [SecurityAttributes.attributeText_mark v.ntkUri_ne_ismUri, Element.attributeText_put,
      hblank, Element.content_putText]
  · have hput : ∀ {e : Element} {l t : String}, e.Regular fit (ctx.bindings v) → IsName l →
        (e.put (ctx.ntkName l) t).Regular fit (ctx.bindings v) :=
      fun he hl => he.put (.listed (ctx.listed_ntkName hl))
    exact hput (hput (hput (hput ((Regular.bare (ctx.listed_ntkName hkind.1)).putText hv)
      (by decide)) (by decide)) (by decide)) (by decide)

/-- The texts of elements. -/
def Draft.texts (d : Draft) : List String := [d.value]

theorem build_returns {d : Draft} (ht : ∀ t ∈ d.texts, fit t) (h : build ctx v d = .ok c) :
    Returns fit ofElement ctx v (ctx.ntkName d.kind.name) c := by
  obtain ⟨s, hs, h⟩ := bind_ok.1 h
  exact make_returns (by simpa [Draft.texts] using ht) hs h

end AccessText

namespace AccessEntity

variable {c : AccessEntity} {kind : Kind} {systemName : Option AccessText}
  {values : List AccessText}

theorem make_returns
    (hn : ∀ t ∈ systemName,
      Returns fit AccessText.ofElement ctx v (ctx.ntkName AccessText.Kind.systemName.name) t)
    (hv : ∀ t ∈ values, Returns fit AccessText.ofElement ctx v (ctx.ntkName kind.valueKind.name) t)
    (hs : sd.commitAs ctx v = .ok s) (h : make ctx v kind systemName values s = .ok c) :
    Returns fit ofElement ctx v (ctx.ntkName kind.name) c := by
  simp only [make, bind_ok, within_ok] at h
  obtain ⟨e₀, h₀, e, he, hmade⟩ := h
  obtain ⟨rfl, huri⟩ := Ntk.element_ok h₀
  obtain ⟨e', he'⟩ : ∃ e, e = ({ name := ctx.ntkName kind.name } : Element).add
      ((systemName.map (·.element)).toList ++ values.map (·.element)) := ⟨_, rfl⟩
  replace he : s.addTo ctx v e' = .ok e := he' ▸ he
  have hkind : IsName kind.name ∧ Kind.ofName? kind.name = some kind := by cases kind <;> decide
  have hother : AccessText.Kind.systemName.name ≠ kind.valueKind.name := by cases kind <;> decide
  have hsec := SecurityAttributes.ofElement_addTo hs he fun _ _ => by rw [he']; rfl
  obtain ⟨-, rfl⟩ := SecurityAttributes.addTo_ok.1 he
  have hfind : ∀ l, (SecurityAttributes.mark ctx v s.values e').childrenNamed Version.ntkUri l =
      (if AccessText.Kind.systemName.name = l then (systemName.map (·.element)).toList else []) ++
        (if kind.valueKind.name = l then values.map (·.element) else []) := by
    intro l
    have hnn : ∀ e ∈ (systemName.map (·.element)).toList, e.name = _ := names_returns_option hn
    have hvn : ∀ e ∈ values.map (·.element), e.name = _ := names_returns hv
    simp [he', Element.childrenNamed, filter_named hnn, filter_named hvn]
  refine .of_made (e := SecurityAttributes.mark ctx v s.values e') hmade (fun _ => rfl) ?_
    (by simp [he']) (.mark ?_ hs)
  · have hlocal : (SecurityAttributes.mark ctx v s.values e').localName = kind.name := by
      rw [Element.localName, SecurityAttributes.name_mark, he']
      rfl
    simp only [ofElement, hlocal, hkind.2, huri, bind_ok, within_ok]
    refine ⟨_, rfl, systemName, ?_, values, ?_, s, hsec, hmade⟩
    · rw [Element.child?_eq, hfind, if_pos rfl, if_neg hother.symm, List.append_nil,
        Option.head?_toList]
      exact readOption_returns hn
    · rw [hfind, if_neg hother, if_pos rfl, List.nil_append]
      exact readAll_returns hv
  · rw [he']
    exact (Regular.bare (ctx.listed_ntkName hkind.1)).add (List.forall_mem_append.2
      ⟨regular_returns_option hn, regular_returns hv⟩)

/-- The texts of elements. -/
def Draft.texts (d : Draft) : List String := d.systemName.texts ++ d.values.flatMap (·.texts)

theorem build_returns {d : Draft} (ht : ∀ t ∈ d.texts, fit t) (h : build ctx v d = .ok c) :
    Returns fit ofElement ctx v (ctx.ntkName d.kind.name) c := by
  simp only [Draft.texts, List.forall_mem_append, List.forall_mem_flatMap] at ht
  obtain ⟨systemName, hn, h⟩ := bind_ok.1 h
  obtain ⟨values, hv, h⟩ := bind_ok.1 h
  obtain ⟨s, hs, h⟩ := bind_ok.1 h
  refine make_returns ?_ (commitAll_all ?_ hv) hs h
  · rintro t rfl
    exact AccessText.build_returns (d := { d.systemName with kind := .systemName }) ht.1
      (commitAs_some.1 hn).2
  · exact List.forall_mem_map.2 fun t hmem c hc =>
      AccessText.build_returns (d := { t with kind := d.kind.valueKind }) (ht.2 t hmem) hc

/-- The entities of a list of one kind. -/
theorem commitAll_returns {ds : List Draft} {cs : List AccessEntity}
    (ht : ∀ t ∈ ds.flatMap (·.texts), fit t)
    (h : commitAll ctx v (Draft.allOf kind ds) = .ok cs) :
    ∀ c ∈ cs, Returns fit ofElement ctx v (ctx.ntkName kind.name) c := by
  rw [List.forall_mem_flatMap] at ht
  exact commitAll_all (List.forall_mem_map.2 fun d hmem c hc =>
    build_returns (d := { d with kind }) (ht d hmem) hc) h

end AccessEntity

namespace ProfileList

variable {c : ProfileList} {profiles : List AccessEntity}

theorem make_returns
    (hp : ∀ p ∈ profiles,
      Returns fit AccessEntity.ofElement ctx v (ctx.ntkName AccessEntity.Kind.profile.name) p)
    (hs : sd.commitAs ctx v = .ok s) (h : make ctx v profiles s = .ok c) :
    Returns fit ofElement ctx v (ctx.ntkName name) c := by
  simp only [make, bind_ok, within_ok] at h
  obtain ⟨e₀, h₀, e, he, hmade⟩ := h
  obtain ⟨rfl, huri⟩ := Ntk.element_ok h₀
  obtain ⟨e', he'⟩ : ∃ e, e = ({ name := ctx.ntkName name } : Element).add
      (profiles.map (·.element)) := ⟨_, rfl⟩
  replace he : s.addTo ctx v e' = .ok e := he' ▸ he
  have hsec := SecurityAttributes.ofElement_addTo hs he fun _ _ => by rw [he']; rfl
  obtain ⟨-, rfl⟩ := SecurityAttributes.addTo_ok.1 he
  have hfind : (SecurityAttributes.mark ctx v s.values e').childrenNamed Version.ntkUri
      AccessEntity.Kind.profile.name = profiles.map (·.element) := by
    have hnames : ∀ e ∈ profiles.map (·.element), e.name = _ := names_returns hp
    simp [he', Element.childrenNamed, filter_named hnames]
  refine .of_made (e := SecurityAttributes.mark ctx v s.values e') hmade (fun _ => rfl) ?_
    (by simp [he']) (.mark ?_ hs)
  · simp only [ofElement, huri, bind_ok, within_ok]
    refine ⟨_, rfl, profiles, ?_, s, hsec, hmade⟩
    rw [hfind]
    exact readAll_returns hp
  · rw [he']
    exact (Regular.bare (ctx.listed_ntkName (by decide))).add (regular_returns hp)

/-- The texts of elements. -/
def Draft.texts (d : Draft) : List String := d.profiles.flatMap (·.texts)

theorem build_returns {d : Draft} (ht : ∀ t ∈ d.texts, fit t) (h : build ctx v d = .ok c) :
    Returns fit ofElement ctx v (ctx.ntkName name) c := by
  obtain ⟨profiles, hp, h⟩ := bind_ok.1 h
  obtain ⟨s, hs, h⟩ := bind_ok.1 h
  exact make_returns (AccessEntity.commitAll_returns ht hp) hs h

end ProfileList

namespace Access

variable {c : Access} {individuals groups entries : List AccessEntity}
  {profileList : Option ProfileList} {listName : String} {kind : AccessEntity.Kind}

/-- The elements of a list: one that holds the entries, if there are any. -/
def listed (ctx : Context) (listName : String) (entries : List AccessEntity) : List Element :=
  if entries.isEmpty then []
  else [({ name := ctx.ntkName listName } : Element).add (entries.map (·.element))]

theorem listOf_ok {es : List Element} (h : listOf ctx v listName entries = .ok es) :
    es = listed ctx listName entries := by
  unfold listOf at h
  unfold listed
  split at h
  case isTrue hempty => rw [if_pos hempty, Except.ok.inj h]
  case isFalse hempty =>
    simp only [Context.elementIn, bind_ok, pure_ok] at h
    obtain ⟨e, ⟨q, hq, rfl⟩, rfl⟩ := h
    rw [if_neg hempty, Context.nameIn_ntk hq]

theorem names_listed : ∀ e ∈ listed ctx listName entries, e.name = ctx.ntkName listName := by
  unfold listed
  split <;> simp

theorem regular_listed (hl : IsName listName)
    (he : ∀ e ∈ entries, Returns fit AccessEntity.ofElement ctx v (ctx.ntkName kind.name) e) :
    ∀ e ∈ listed ctx listName entries, e.Regular fit (ctx.bindings v) := by
  unfold listed
  split
  · simp
  · exact List.forall_mem_singleton.2 ((Regular.bare (ctx.listed_ntkName hl)).add
      (regular_returns he))

theorem entriesOf_listed
    (he : ∀ e ∈ entries, Returns fit AccessEntity.ofElement ctx v (ctx.ntkName kind.name) e) :
    entriesOf ctx v (listed ctx listName entries).head? = .ok entries := by
  unfold listed
  cases entries with
  | nil => rfl
  | cons x r => exact within_ok.2 (readAll_returns he)

theorem make_returns
    (hi : ∀ e ∈ individuals,
      Returns fit AccessEntity.ofElement ctx v (ctx.ntkName AccessEntity.Kind.individual.name) e)
    (hg : ∀ e ∈ groups,
      Returns fit AccessEntity.ofElement ctx v (ctx.ntkName AccessEntity.Kind.group.name) e)
    (hp : ∀ p ∈ profileList,
      Returns fit ProfileList.ofElement ctx v (ctx.ntkName ProfileList.name) p)
    (hs : sd.commitAs ctx v = .ok s)
    (h : make ctx v individuals groups profileList s = .ok c) :
    Returns fit ofElement ctx v (ctx.ntkName name) c := by
  simp only [make, bind_ok, within_ok] at h
  obtain ⟨e₀, h₀, inner, hinner, outer, houter, e, he, hmade⟩ := h
  obtain ⟨rfl, huri⟩ := Ntk.element_ok h₀
  obtain rfl := listOf_ok hinner
  obtain rfl := listOf_ok houter
  obtain ⟨e', he'⟩ : ∃ e, e = ({ name := ctx.ntkName name } : Element).add
      (listed ctx individualList individuals ++ listed ctx groupList groups ++
        (profileList.map (·.element)).toList) := ⟨_, rfl⟩
  replace he : s.addTo ctx v e' = .ok e := he' ▸ he
  have hsec := SecurityAttributes.ofElement_addTo hs he fun _ _ => by rw [he']; rfl
  obtain ⟨-, rfl⟩ := SecurityAttributes.addTo_ok.1 he
  have hfind : ∀ l, (SecurityAttributes.mark ctx v s.values e').childrenNamed Version.ntkUri l =
      (if individualList = l then listed ctx individualList individuals else []) ++
        (if groupList = l then listed ctx groupList groups else []) ++
        (if ProfileList.name = l then (profileList.map (·.element)).toList else []) := by
    intro l
    have hpn : ∀ e ∈ (profileList.map (·.element)).toList, e.name = _ := names_returns_option hp
    simp [he', Element.childrenNamed, filter_named names_listed, filter_named hpn]
  refine .of_made (e := SecurityAttributes.mark ctx v s.values e') hmade (fun _ => rfl) ?_
    (by simp [he']) (.mark ?_ hs)
  · simp only [ofElement, huri, Element.child?_eq, bind_ok, within_ok]
    refine ⟨_, rfl, individuals, ?_, groups, ?_, profileList, ?_, s, hsec, hmade⟩
    · have hread : entriesOf ctx v (listed ctx individualList individuals).head? =
          .ok individuals := entriesOf_listed hi
      simpa [hfind, individualList, groupList, ProfileList.name] using hread
    · have hread : entriesOf ctx v (listed ctx groupList groups).head? = .ok groups :=
        entriesOf_listed hg
      simpa [hfind, individualList, groupList, ProfileList.name] using hread
    · simpa [hfind, individualList, groupList, ProfileList.name, Component.base] using
        readOption_returns hp
  · rw [he']
    refine (Regular.bare (ctx.listed_ntkName (by decide))).add ?_
    simp only [List.forall_mem_append]
    exact ⟨⟨regular_listed (by decide) hi, regular_listed (by decide) hg⟩,
      regular_returns_option hp⟩

/-- The texts of elements. -/
def Draft.texts (d : Draft) : List String :=
  d.individuals.flatMap (·.texts) ++ d.groups.flatMap (·.texts) ++ d.profileList.texts

theorem build_returns {d : Draft} (ht : ∀ t ∈ d.texts, fit t) (h : build ctx v d = .ok c) :
    Returns fit ofElement ctx v (ctx.ntkName name) c := by
  simp only [Draft.texts, List.forall_mem_append] at ht
  obtain ⟨⟨hindividuals, hgroups⟩, hprofiles⟩ := ht
  obtain ⟨individuals, hi, h⟩ := bind_ok.1 h
  obtain ⟨groups, hg, h⟩ := bind_ok.1 h
  obtain ⟨profileList, hp, h⟩ := bind_ok.1 h
  obtain ⟨s, hs, h⟩ := bind_ok.1 h
  exact make_returns (AccessEntity.commitAll_returns hindividuals hi)
    (AccessEntity.commitAll_returns hgroups hg)
    (commitAs_all (fun _ => ProfileList.build_returns hprofiles) hp) hs h

end Access

end NeedToKnow

namespace Security

variable {c : Security} {noticeList : Option NoticeList} {access : Option Access}

/-- The kinds of contact in the notices. -/
def pocTypes (c : Security) : List String := c.noticeList.toList.flatMap (·.pocTypes)

theorem forall_mem_pocTypes {P : String → Prop} :
    (∀ p ∈ c.pocTypes, P p) ↔ ∀ n ∈ c.noticeList, ∀ p ∈ n.pocTypes, P p := by
  simp only [pocTypes, List.forall_mem_flatMap, Option.mem_toList, Option.mem_def]

/-- An element of need-to-know rules is found again; there is none in versions without them. -/
theorem accessElements_eq {e : Element}
    (ha : ∀ a ∈ access, Returns fit Access.ofElement ctx v (ctx.ntkName Access.name) a)
    (he : e.childrenNamed Version.ntkUri Access.name = (access.map (·.element)).toList) :
    (accessElements v e).head? = access.map (·.element) := by
  unfold accessElements Version.uriOf
  by_cases hv : v.atLeast .v4_0_1 = true
  · simp only [if_pos hv]
    rw [he, Option.head?_toList]
  · simp only [if_neg hv, List.head?_nil]
    cases access with
    | none => rfl
    | some a =>
      have hread := (ha a rfl).again
      simp only [Access.ofElement, Ntk.uriFor, requireVersion, bind_ok, within_ok, exists_unit,
        demand_ok] at hread
      obtain ⟨u, ⟨hversion, -⟩, -⟩ := hread
      exact absurd hversion hv

theorem make_returns
    (hn : ∀ n ∈ noticeList, Returns fit NoticeList.ofElement ctx v (ctx.ddmsName v "noticeList") n)
    (ha : ∀ a ∈ access, Returns fit Access.ofElement ctx v (ctx.ntkName Access.name) a)
    (hs : sd.commitAs ctx v = .ok s) (h : make ctx v noticeList access s = .ok c) :
    Returns fit ofElement ctx v (ctx.ddmsName v name) c := by
  obtain ⟨e', he'⟩ : ∃ e, e = (if v.atLeast .v3_0 then
      (ctx.ddmsElement v name).setAttribute (ctx.ismName v rollupName) rollupValue
      else ctx.ddmsElement v name).add
      ((noticeList.map (·.element)).toList ++ (access.map (·.element)).toList) := ⟨_, rfl⟩
  simp only [make, ← he', bind_ok, within_ok] at h
  obtain ⟨e, he, hmade⟩ := h
  have hother : rollupName ∉ SecurityAttributes.names := by decide
  have hattribute : ∀ l, e'.attribute? (some v.ismUri) l =
      if v.atLeast .v3_0 ∧ rollupName = l then some rollupValue else none := by
    intro l
    rw [he']
    by_cases hv : v.atLeast .v3_0 = true <;>
      simp [hv, Element.attribute?_setAttribute, Context.ismName]
  have hsec := SecurityAttributes.ofElement_addTo hs he fun l hl => by
    rw [hattribute, if_neg]
    rintro ⟨-, rfl⟩
    exact hother hl
  obtain ⟨-, rfl⟩ := SecurityAttributes.addTo_ok.1 he
  have hchildren : (SecurityAttributes.mark ctx v s.values e').children =
      (noticeList.map (·.element)).toList ++ (access.map (·.element)).toList := by
    rw [SecurityAttributes.children_mark, he', Element.children_add]
    split <;> simp
  have hname : e'.name = ctx.ddmsName v name := by
    rw [he', Element.name_add]
    split <;> simp
  have hnn : ∀ e ∈ (noticeList.map (·.element)).toList, e.name = _ := names_returns_option hn
  have han : ∀ e ∈ (access.map (·.element)).toList, e.name = _ := names_returns_option ha
  have hnotice : (SecurityAttributes.mark ctx v s.values e').child? v.ddmsUri "noticeList" =
      noticeList.map (·.element) := by
    rw [Element.child?_eq, Element.childrenNamed, hchildren, List.filter_append, filter_named hnn,
      filter_named han]
    simp [Context.ntkName, QName.isNamed, v.ntkUri_ne_ddmsUri]
  have haccess : (SecurityAttributes.mark ctx v s.values e').childrenNamed Version.ntkUri
      Access.name = (access.map (·.element)).toList := by
    rw [Element.childrenNamed, hchildren, List.filter_append, filter_named hnn, filter_named han]
    simp [Context.ddmsName, QName.isNamed, v.ntkUri_ne_ddmsUri.symm]
  have hexcluded : ((SecurityAttributes.mark ctx v s.values e').attribute? (some v.ismUri)
      rollupName).map (· == rollupValue) = if v.atLeast .v3_0 then some true else none := by
    rw [SecurityAttributes.attribute?_mark_other hs hother, hattribute]
    by_cases hv : v.atLeast .v3_0 = true <;> simp [hv]
  refine .of_made (e := SecurityAttributes.mark ctx v s.values e') hmade (fun _ => rfl) ?_
    (by simpa using hname) (.mark ?_ hs)
  · simp only [ofElement, hnotice, accessElements_eq ha haccess, hexcluded, bind_ok, within_ok]
    exact ⟨noticeList, readOption_returns hn, access, readOption_returns ha, s, hsec, hmade⟩
  · rw [he']
    refine Regular.add ?_ (List.forall_mem_append.2
      ⟨regular_returns_option hn, regular_returns_option ha⟩)
    split
    · exact (Regular.ddmsElement (by decide)).setAttribute (.listed (ctx.listed_ismName (by decide)))
    · exact .ddmsElement (by decide)

namespace Draft

/-- The texts of elements. -/
def texts (d : Draft) : List String := d.noticeList.texts ++ d.access.texts

/-- The items of lists. -/
def items (d : Draft) : List String := d.noticeList.items

end Draft

theorem noticeList_of_make (h : make ctx v noticeList access s = .ok c) :
    c.noticeList = noticeList := by
  simp only [make, checked, bind_ok, pure_ok] at h
  obtain ⟨_, -, _, -, rfl⟩ := h
  rfl

theorem forall_pocTypes {P : String → Prop} {d : Draft}
    (hd : ∀ t ∈ d.noticeList.noticeTexts, ∀ c, build ctx v t = .ok c → ∀ p ∈ c.pocTypes, P p)
    (h : build ctx v d = .ok c) : ∀ p ∈ c.pocTypes, P p := by
  obtain ⟨noticeList, hn, h⟩ := bind_ok.1 h
  obtain ⟨access, -, h⟩ := bind_ok.1 h
  obtain ⟨s, -, h⟩ := bind_ok.1 h
  rw [forall_mem_pocTypes, noticeList_of_make h]
  exact commitAs_all (fun _ => NoticeList.forall_pocTypes hd) hn

theorem isWord_of_items {d : Draft} (hi : ∀ t ∈ d.items, IsWord t) (h : build ctx v d = .ok c) :
    ∀ p ∈ c.pocTypes, IsWord p := by
  refine forall_pocTypes (fun t ht _ => NoticeText.isWord_of_items fun p hp => hi p ?_) h
  obtain ⟨n, hn, ht⟩ := List.mem_flatMap.1 ht
  exact List.mem_flatMap.2 ⟨n, hn, List.mem_flatMap.2 ⟨t, ht, hp⟩⟩

theorem build_returns {d : Draft} (ht : ∀ t ∈ d.texts, fit t)
    (hw : ∀ p ∈ c.pocTypes, IsWord p) (h : build ctx v d = .ok c) :
    Returns fit ofElement ctx v (ctx.ddmsName v name) c := by
  obtain ⟨hnotices, haccess⟩ := List.forall_mem_append.1 ht
  obtain ⟨noticeList, hn, h⟩ := bind_ok.1 h
  obtain ⟨access, ha, h⟩ := bind_ok.1 h
  obtain ⟨s, hs, h⟩ := bind_ok.1 h
  rw [forall_mem_pocTypes, noticeList_of_make h] at hw
  have hreturns : ∀ n ∈ noticeList, (∀ p ∈ n.pocTypes, IsWord p) →
      Returns fit NoticeList.ofElement ctx v (ctx.ddmsName v "noticeList") n :=
    commitAs_all (fun _ hc hp => NoticeList.build_returns hnotices hp hc) hn
  exact make_returns (fun n hmem => hreturns n hmem (hw n hmem))
    (commitAs_all (fun _ => Access.build_returns haccess) ha) hs h

end Security

end DiscoveryMetadata
