import DiscoveryMetadata.Proofs.Keeping.Resource
import DiscoveryMetadata.Proofs.Versions.Basic
/-
  How the groups of attributes share the element of a resource.

  A resource has markings, security attributes, notice attributes, and attributes from outside the
  schemas. All of them stand in one list, and each group is read from the whole of it. This file

    1. says by its name which attribute belongs to which group (`AttributeGroup.captures`), no name
       to two of them (`captures_unique`);
    2. shows that the reader of a group depends on the attributes of that group alone
       (`markings_part`, `security_part`, `notice_part`, `extensible_part`);
    3. shows that what a resource is made of is found again in the parts of its element
       (`Resource.groups_read`).

  The one exception are attributes in the namespace of `xml` itself, such as `xml:lang`. They can be
  given as extensible attributes and are put on the element, but they are of no group.
-/
namespace DiscoveryMetadata

open Xml (Element QName)

/-- The groups of attributes of a resource. -/
inductive AttributeGroup where
  | markings
  | security
  | notice
  | extensible
  deriving DecidableEq, Repr

namespace AttributeGroup

/-- The group is read from attributes of this name. -/
def captures (v : Version) (q : QName) : AttributeGroup → Bool
  | markings => (q.uri == some v.ismUri && Markings.names.contains q.localName) ||
      (v.atLeast .v4_0_1 && q.uri == some Version.ntkUri && q.localName == Markings.versionName)
  | security => q.uri == some v.ismUri && SecurityAttributes.names.contains q.localName
  | notice => q.uri == some v.ismUri && NoticeAttributes.names.contains q.localName
  | extensible => ExtensibleAttributes.isOutside v ⟨q, ""⟩

/-- An element with the attributes of one group, and without anything else. -/
def part (v : Version) (g : AttributeGroup) (e : Element) : Element :=
  { name := e.name, attributes := e.attributes.filter fun a => captures v a.name g }

variable {ctx : Context} {v : Version} {g g' : AttributeGroup} {q : QName} {e : Element}

/-- The names of the schemas of markings are reserved. -/
theorem reserved_names : (∀ l ∈ Markings.names, l ∈ ExtensibleAttributes.ismNames) ∧
    ∀ l ∈ NoticeAttributes.names, l ∈ ExtensibleAttributes.ismNames := by decide

theorem reserved_xml (v : Version) (l : String) :
    ExtensibleAttributes.isReserved v Xml.xmlNamespace l = false := by
  have hism : Xml.xmlNamespace ≠ v.ismUri := by cases v <;> decide
  have hntk : Xml.xmlNamespace ≠ Version.ntkUri := by decide
  simp [ExtensibleAttributes.isReserved, hism, hntk]

/-- What belongs to a group of the schemas is reserved. -/
theorem reserved_of_captures (hg : g ≠ extensible) (h : captures v q g = true) :
    ∃ u, q.uri = some u ∧ ExtensibleAttributes.isReserved v u q.localName = true := by
  obtain ⟨hmarkings, hnotices⟩ := reserved_names
  cases g with
  | extensible => exact absurd rfl hg
  | security =>
    simp only [captures, Bool.and_eq_true, beq_iff_eq, List.contains_eq_mem,
      decide_eq_true_eq] at h
    exact ⟨_, h.1, by simp [ExtensibleAttributes.isReserved, h.2]⟩
  | notice =>
    simp only [captures, Bool.and_eq_true, beq_iff_eq, List.contains_eq_mem,
      decide_eq_true_eq] at h
    exact ⟨_, h.1, by simp [ExtensibleAttributes.isReserved, hnotices _ h.2]⟩
  | markings =>
    simp only [captures, Bool.or_eq_true, Bool.and_eq_true, beq_iff_eq, List.contains_eq_mem,
      decide_eq_true_eq] at h
    rcases h with ⟨hu, hl⟩ | ⟨⟨hv, hu⟩, hl⟩
    · exact ⟨_, hu, by simp [ExtensibleAttributes.isReserved, hmarkings _ hl]⟩
    · exact ⟨_, hu, by
        simp [ExtensibleAttributes.isReserved, v.ntkUri_ne_ismUri, hv, hl, Markings.versionName]⟩

/-- What is of no group of the schemas though it is in a namespace is from outside, unless its
namespace is that of DDMS or of `xml`. -/
theorem captures_extensible : captures v q extensible = true ↔
    ∃ u, q.uri = some u ∧ u ≠ v.ddmsUri ∧ u ≠ Xml.xmlNamespace ∧
      ExtensibleAttributes.isReserved v u q.localName = false := by
  cases hu : q.uri with
  | none => simp [captures, ExtensibleAttributes.isOutside, hu]
  | some u => simp [captures, ExtensibleAttributes.isOutside, hu, and_assoc]

/-- The names of the markings are not those of security or notice attributes, which differ too. -/
theorem captures_disjoint :
    (captures v q markings = true → captures v q security = false ∧ captures v q notice = false) ∧
      (captures v q security = true → captures v q notice = false) := by
  simp only [captures, Bool.or_eq_true, Bool.and_eq_true, Bool.and_eq_false_iff, beq_iff_eq,
    beq_eq_false_iff_ne, List.contains_eq_mem, decide_eq_true_eq, decide_eq_false_iff_not]
  constructor
  · rintro (⟨-, hl⟩ | ⟨⟨-, hu⟩, -⟩)
    · obtain ⟨hsecurity, hnotice⟩ := Resource.markings_apart _ hl
      exact ⟨.inr hsecurity, .inr hnotice⟩
    · have hne : q.uri ≠ some v.ismUri := by simp [hu, v.ntkUri_ne_ismUri]
      exact ⟨.inl hne, .inl hne⟩
  · rintro ⟨-, hl⟩
    exact .inr (Resource.security_apart _ hl).1

/-- No name is of two groups. -/
theorem captures_unique (h : captures v q g = true) (h' : captures v q g' = true) : g = g' := by
  have hdisjoint := captures_disjoint (v := v) (q := q)
  have hreserved : ∀ k, k ≠ extensible → captures v q k = true →
      captures v q extensible = false := by
    intro k hk hcaptures
    obtain ⟨u, hu, hreserved⟩ := reserved_of_captures hk hcaptures
    rw [← Bool.not_eq_true, captures_extensible]
    rintro ⟨w, hw, -, -, hfree⟩
    obtain rfl := Option.some.inj (hu.symm.trans hw)
    rw [hreserved] at hfree
    cases hfree
  cases g <;> cases g' <;> first | rfl | simp_all

/-- An attribute that is captured is found in the part of its group. -/
theorem attribute?_part {u : Option String} {l : String}
    (h : ∀ q : QName, q.uri = u → q.localName = l → captures v q g = true) :
    (part v g e).attribute? u l = e.attribute? u l := by
  unfold Element.attribute? part
  rw [List.find?_filter]
  congr 2
  funext a
  by_cases ha : (a.name.localName == l && a.name.uri == u) = true
  · have ha' := ha
    rw [Bool.and_eq_true, beq_iff_eq, beq_iff_eq] at ha'
    simp [h a.name ha'.2 ha'.1, ha]
  · simp [Bool.eq_false_iff.2 ha]

theorem attribute?_security {l : String} (hl : l ∈ SecurityAttributes.names) :
    (part v security e).attribute? (some v.ismUri) l = e.attribute? (some v.ismUri) l :=
  attribute?_part fun q hu hq => by simp [captures, hu, hq, hl]

theorem attribute?_notice {l : String} (hl : l ∈ NoticeAttributes.names) :
    (part v notice e).attribute? (some v.ismUri) l = e.attribute? (some v.ismUri) l :=
  attribute?_part fun q hu hq => by simp [captures, hu, hq, hl]

theorem attribute?_markings {l : String} (hl : l ∈ Markings.names) :
    (part v markings e).attribute? (some v.ismUri) l = e.attribute? (some v.ismUri) l :=
  attribute?_part fun q hu hq => by simp [captures, hu, hq, hl]

/-- Security attributes are read from their own part. -/
theorem security_part : SecurityAttributes.ofElement ctx v (part v security e) =
    SecurityAttributes.ofElement ctx v e :=
  SecurityAttributes.ofElement_same fun _ hl => attribute?_security hl

/-- Notice attributes are read from their own part. -/
theorem notice_part : NoticeAttributes.ofElement ctx v (part v notice e) =
    NoticeAttributes.ofElement ctx v e := by
  have htext : ∀ l ∈ NoticeAttributes.names,
      (part v notice e).attributeText v.ismUri l = e.attributeText v.ismUri l := by
    intro l hl
    rw [Element.attributeText, attribute?_notice hl, Element.attributeText]
  have hexternal : NoticeAttributes.readExternal v (part v notice e) =
      NoticeAttributes.readExternal v e := by
    rw [NoticeAttributes.readExternal, attribute?_notice (by decide)]
    rfl
  simp only [NoticeAttributes.ofElement, hexternal, htext _ (show "noticeType" ∈ _ by decide),
    htext _ (show "noticeReason" ∈ _ by decide), htext _ (show "noticeDate" ∈ _ by decide),
    htext _ (show "unregisteredNoticeType" ∈ _ by decide)]

/-- Markings are read from their own part. -/
theorem markings_part : Markings.ofElement v (part v markings e) = Markings.ofElement v e := by
  have hntk : Markings.ntkVersionOf v (part v markings e) = Markings.ntkVersionOf v e := by
    unfold Markings.ntkVersionOf Version.uriOf
    by_cases hv : v.atLeast .v4_0_1 = true
    · simp only [if_pos hv]
      unfold Markings.versionOf
      rw [attribute?_part fun q hu hq => by simp [captures, hu, hq, hv]]
    · simp only [if_neg hv]
  simp only [Markings.ofElement, hntk, Markings.versionOf, Markings.flagOf, Element.attributeText,
    attribute?_markings (show Markings.versionName ∈ _ by decide),
    attribute?_markings (show "resourceElement" ∈ _ by decide),
    attribute?_markings (show "createDate" ∈ _ by decide)]

/-- Attributes from outside the schemas are read from their own part. -/
theorem extensible_part : ExtensibleAttributes.ofElement v (part v extensible e) =
    ExtensibleAttributes.ofElement v e := by
  have hsame : ∀ a : Xml.Attribute, captures v a.name extensible =
      ExtensibleAttributes.isOutside v a := fun _ => rfl
  simp only [ExtensibleAttributes.ofElement, part, hsame, List.filter_filter, Bool.and_self]

/-- In a part nothing is seen of attributes that are of other groups. -/
theorem part_append {h : Element} {as : List Xml.Attribute} {children : List Element}
    (has : ∀ a ∈ as, captures v a.name g = false) :
    part v g ({ h with attributes := h.attributes ++ as }.add children) = part v g h := by
  have hnone : as.filter (fun a => captures v a.name g) = [] :=
    List.filter_eq_nil_iff.2 fun a ha => by simp [has a ha]
  show ({ name := h.name, attributes := (h.attributes ++ as).filter _ } : Element) = _
  rw [List.filter_append, hnone, List.append_nil]
  rfl

end AttributeGroup

namespace NoticeAttributes

variable {ctx : Context} {v : Version} {n : NoticeAttributes} {e : Element}

/-- The group was had from values, by reading or by setting them. -/
def Accepted (ctx : Context) (n : NoticeAttributes) : Prop :=
  ∃ type reason date unregistered external,
    ofValues ctx n.version type reason date unregistered external = .ok n

/-- Notice attributes that can be put on an element of a version are read from it as equal ones. -/
theorem Accepted.again (h : n.Accepted ctx) (hv : n.isEmpty = false → n.version = v) :
    ∃ n', ofValues ctx v n.noticeType n.noticeReason n.noticeDate n.unregisteredNoticeType
      n.externalNotice = .ok n' ∧ (n' == n) = true := by
  obtain ⟨type, reason, date, unregistered, external, h⟩ := h
  have hagain := ofValues_toDraft h
  cases hempty : n.isEmpty with
  | false =>
    rw [← hv hempty]
    exact ⟨n, hagain, beq_self_eq_true n⟩
  | true =>
    simp only [isEmpty, Bool.and_eq_true, String.isEmpty_iff, Option.isNone_iff_eq_none] at hempty
    obtain ⟨⟨⟨⟨htype, hreason⟩, hdate⟩, hunregistered⟩, hexternal⟩ := hempty
    refine ⟨empty v, ?_, ?_⟩
    · rw [htype, hreason, hdate, hunregistered, hexternal]
      rfl
    · show ("" == n.noticeType && "" == n.noticeReason && "" == n.noticeDate &&
        "" == n.unregisteredNoticeType && none == n.externalNotice) = true
      rw [htype, hreason, hdate, hunregistered, hexternal]
      rfl

end NoticeAttributes

namespace ExtensibleAttributes

open AttributeGroup (captures)

variable {v : Version} {x : ExtensibleAttributes} {e e' : Element} {as : List Xml.Attribute}

/-- The group was had from attributes, by reading or by setting them. -/
def Accepted (x : ExtensibleAttributes) : Prop :=
  (∃ as, ofList x.version as = .ok x) ∨ ∃ e, x = ofElement x.version e

/-- All attributes of a group are in a namespace that is not that of DDMS. -/
theorem Accepted.namespaced (h : x.Accepted) :
    ∀ a ∈ x.attributes, ∃ u, a.name.uri = some u ∧ u ≠ x.version.ddmsUri := by
  intro a ha
  rcases h with ⟨as, h⟩ | ⟨e, h⟩
  · have hcheck := h
    simp only [ofList, bind_ok, exists_unit, forM_ok] at hcheck
    rw [(ofList_ok h).1] at ha
    have ha' := hcheck.1 a ha
    unfold checkNamespace at ha'
    split at ha'
    · cases ha'
    · rename_i u hu
      exact ⟨u, hu, by simpa [forbid_ok] using ha'⟩
  · rw [h] at ha
    obtain ⟨u, hu, hddms, -⟩ := AttributeGroup.captures_extensible.1 (List.mem_filter.1 ha).2
    exact ⟨u, hu, hddms⟩

/-- Reserved attributes are not put on an element. -/
theorem foldlM_free (h : as.foldlM (addOne v) e = .ok e') :
    ∀ a ∈ as, isReserved v (a.name.uri.getD "") a.name.localName = false := by
  induction as generalizing e with
  | nil => simp
  | cons a r ih =>
    rw [List.foldlM_cons, bind_ok] at h
    obtain ⟨e₁, h₁, h⟩ := h
    simp only [addOne, bind_ok, exists_unit, forbid_ok] at h₁
    exact List.forall_mem_cons.2 ⟨h₁.1, ih h⟩

/-- What is put on an element is from outside, or in the namespace of `xml`; it is of no group of the
schemas. -/
theorem Accepted.captures_added (hx : x.Accepted) (h : x.addTo v e = .ok e') :
    ∀ a ∈ x.attributes, (∀ g ≠ .extensible, captures v a.name g = false) ∧
      captures v a.name .extensible = (a.name.uri != some Xml.xmlNamespace) := by
  intro a ha
  have hversion : x.version = v := version_addTo h (by
    rw [isEmpty, List.isEmpty_eq_false_iff]
    exact List.ne_nil_of_mem ha)
  obtain ⟨u, hu, hddms⟩ := hx.namespaced a ha
  have hfree := foldlM_free (addTo_ok h) a ha
  rw [hu, Option.getD_some] at hfree
  constructor
  · intro g hg
    rw [← Bool.not_eq_true]
    intro hcaptures
    obtain ⟨w, hw, hreserved⟩ := AttributeGroup.reserved_of_captures hg hcaptures
    obtain rfl := Option.some.inj (hu.symm.trans hw)
    rw [hfree] at hreserved
    cases hreserved
  · rw [Bool.eq_iff_iff, AttributeGroup.captures_extensible, bne_iff_ne, hu]
    simp [hversion ▸ hddms, hfree]

end ExtensibleAttributes

namespace Resource

open AttributeGroup (captures part)

variable {ctx : Context} {v : Version} {ts : List TopLevel} {m : Markings} {s : SecurityAttributes}
  {n : NoticeAttributes} {x : ExtensibleAttributes} {r : Resource}

/-- All attributes of a heading are of one of the groups of the schemas. -/
theorem captures_heading (hs : s.Accepted ctx v)
    (hv : v.atLeast .v4_0_1 = false → m.ntkVersion = none) :
    ∀ a ∈ (heading ctx v m s n).attributes,
      ∃ g : AttributeGroup, g ≠ .extensible ∧ captures v a.name g = true := by
  let Captured := fun q : QName => ∃ g : AttributeGroup, g ≠ .extensible ∧ captures v q g = true
  refine Element.forall_name_putAll (P := Captured)
    (SecurityAttributes.forall_name_mark (P := Captured) (Markings.forall_name_put (P := Captured)
      (by simp) (fun l hl => ?_) ?_) fun p hp => ?_) fun p hp => ?_
  · exact ⟨.markings, by decide, by simp [captures, Context.ismName, hl]⟩
  · by_cases h : v.atLeast .v4_0_1 = true
    · exact .inr ⟨.markings, by decide, by simp [captures, Context.ntkName, h]⟩
    · exact .inl (hv (by simpa using h))
  · exact ⟨.security, by decide, by simp [captures, Context.ismName, hs.name_of_mem p hp]⟩
  · have hname : p.1 ∈ NoticeAttributes.names :=
      NoticeAttributes.names_pairs ▸ List.mem_map_of_mem hp
    exact ⟨.notice, by decide, by simp [captures, Context.ismName, hname]⟩

theorem notice_version (h : make ctx v ts m s n x = .ok r) : n.isEmpty = false → n.version = v := by
  intro hempty
  simp only [make, bind_ok, within_ok] at h
  obtain ⟨_, ⟨_, -, _, -, _, h, -⟩, -⟩ := h
  exact NoticeAttributes.agree_addTo h n.version (by simp [Part.version?, hempty])

/-- What a resource was made of is read again from its element: the markings, the security
attributes, equal notice attributes, and of the attributes from outside the schemas all that are not
in the namespace of `xml`. Each attribute of the element is of exactly one group, but for those:
they are of none. -/
theorem groups_read (ctx : Context) (v : Version) (ts : List TopLevel) (m : Markings)
    (s : SecurityAttributes) (n : NoticeAttributes) (x : ExtensibleAttributes) (r : Resource)
    (hm : ∀ i ∈ m.integers, Text.fits 64 i = true) (hs : s.Accepted ctx s.version)
    (hn : n.Accepted ctx) (hx : x.Accepted) (h : make ctx v ts m s n x = .ok r) :
    Markings.ofElement v r.element = .ok m ∧
      SecurityAttributes.ofElement ctx v r.element = .ok s ∧
      (∃ n', NoticeAttributes.ofElement ctx v r.element = .ok n' ∧ (n' == n) = true) ∧
      ExtensibleAttributes.ofElement v r.element =
        ⟨v, x.attributes.filter fun a => a.name.uri != some Xml.xmlNamespace⟩ ∧
      ∀ a ∈ r.element.attributes,
        (a.name.uri ≠ some Xml.xmlNamespace →
          ∃! g : AttributeGroup, captures v a.name g = true) ∧
        (a.name.uri = some Xml.xmlNamespace →
          a ∈ x.attributes ∧ ∀ g : AttributeGroup, captures v a.name g = false) := by
  obtain ⟨e, he, helement, -, hversion, hntk⟩ := make_heading h
  have hadded := hx.captures_added he
  obtain rfl := ExtensibleAttributes.foldlM_ok (ExtensibleAttributes.addTo_ok he)
  rw [hversion] at hs
  have hheading := captures_heading (m := m) (n := n) hs hntk
  -- each of the groups of the schemas has its part in the heading
  have hpart : ∀ g : AttributeGroup, g ≠ .extensible →
      part v g r.element = part v g (heading ctx v m s n) := by
    intro g hg
    rw [helement]
    exact AttributeGroup.part_append fun a ha => (hadded a ha).1 g hg
  refine ⟨?_, ?_, ?_, ?_, ?_⟩
  · rw [← AttributeGroup.markings_part, hpart _ (by decide), AttributeGroup.markings_part]
    exact markings_heading hs hm hntk
  · rw [← AttributeGroup.security_part, hpart _ (by decide), AttributeGroup.security_part]
    exact security_heading hs
  · obtain ⟨n', hagain, hsame⟩ := hn.again (notice_version h)
    refine ⟨n', ?_, hsame⟩
    rw [← AttributeGroup.notice_part, hpart _ (by decide), AttributeGroup.notice_part]
    exact notice_heading hs hagain
  · have hout : ∀ a ∈ x.attributes, ExtensibleAttributes.isOutside v a =
        (a.name.uri != some Xml.xmlNamespace) := fun a ha => (hadded a ha).2
    have hin : (heading ctx v m s n).attributes.filter (ExtensibleAttributes.isOutside v) = [] :=
      congrArg ExtensibleAttributes.attributes (extensible_heading hs hntk)
    rw [helement, ExtensibleAttributes.ofElement, Element.attributes_add, List.filter_append, hin,
      List.nil_append, List.filter_congr hout]
  · intro a ha
    rw [helement, Element.attributes_add, List.mem_append] at ha
    -- an attribute of the heading has its group there; an added one is in none of the schemas
    rcases ha with ha | ha
    · obtain ⟨g, hg, hcaptures⟩ := hheading a ha
      refine ⟨fun _ => ⟨g, hcaptures, fun _ h' => AttributeGroup.captures_unique h' hcaptures⟩, ?_⟩
      intro hxml
      obtain ⟨u, hu, hreserved⟩ := AttributeGroup.reserved_of_captures hg hcaptures
      obtain rfl := Option.some.inj (hu.symm.trans hxml)
      rw [AttributeGroup.reserved_xml] at hreserved
      cases hreserved
    · obtain ⟨hschemas, houtside⟩ := hadded a ha
      refine ⟨fun hne => ⟨.extensible, ?_, fun _ h' => AttributeGroup.captures_unique h' ?_⟩, ?_⟩
      · simp [houtside, hne]
      · simp [houtside, hne]
      · intro hxml
        refine ⟨ha, fun g => ?_⟩
        by_cases hg : g = .extensible
        · rw [hg, houtside, hxml]
          rfl
        · exact hschemas g hg

/-- The resource that was read, with a notice and with further attributes from outside the schemas,
and the attributes of the groups that it is made of. -/
def dressed (extra : List Xml.Attribute) :
    Outcome (Resource × NoticeAttributes × ExtensibleAttributes × Resource) := do
  let r ← ofElement {} .v5_0 (about [])
  let n ← NoticeAttributes.ofValues {} .v5_0 "DoD-Dist-A" "Reason" "2012-01-01" "" (some true)
  let x ← ExtensibleAttributes.ofList .v5_0 extra
  let r' ← make {} .v5_0 r.components r.markings r.security n x
  return (r, n, x, r')

theorem groups_read_dressed :
    ∃ r n x r', dressed [rankAttribute] = .ok (r, n, x, r') ∧ n.isEmpty = false ∧
      x.attributes = [rankAttribute] ∧
      Markings.ofElement .v5_0 r'.element = .ok r.markings ∧
      SecurityAttributes.ofElement {} .v5_0 r'.element = .ok r.security ∧
      ExtensibleAttributes.ofElement .v5_0 r'.element = ⟨.v5_0, [rankAttribute]⟩ := by
  have hmade : (dressed [rankAttribute]).toOption.map
      (fun t => t.1.markings.integers.all (Text.fits 64) && !t.2.1.isEmpty) = some true := by
    decide +kernel
  obtain ⟨⟨r, n, x, r'⟩, hdressed, hchecks⟩ := Option.map_eq_some_iff.1 hmade
  obtain ⟨hfits, hnotice⟩ := Bool.and_eq_true_iff.1 hchecks
  replace hdressed := toOption_ok.1 hdressed
  have hmade := hdressed
  simp only [dressed, bind_ok, pure_ok, Prod.mk.injEq] at hmade
  obtain ⟨r, hr, n, hn, x, hx, r', hmake, rfl, rfl, rfl, rfl⟩ := hmade
  have hsecurity := SecurityAttributes.accepted_of_read (readFrom hr).security
  have hattributes := (ExtensibleAttributes.ofList_ok hx).1
  have hversion : n.version = .v5_0 := by
    obtain ⟨ws, -, hn⟩ := bind_ok.1 hn
    rw [← pure_ok.1 hn]
  have haccepted : n.Accepted {} := by
    unfold NoticeAttributes.Accepted
    rw [hversion]
    exact ⟨_, _, _, _, _, hn⟩
  obtain ⟨hm, hs, -, houtside, -⟩ := groups_read {} .v5_0 r.components r.markings r.security n x r'
    (by simpa using hfits) (hsecurity.version_eq.symm ▸ hsecurity) haccepted
    (.inl ⟨_, by rw [hattributes] at hx ⊢; exact hx⟩) hmake
  refine ⟨r, n, x, r', hdressed, by simpa using hnotice, by rw [hattributes], hm, hs, ?_⟩
  rw [houtside, hattributes]
  rfl

/-- A language in the sense of XML. -/
def languageAttribute : Xml.Attribute := ⟨.prefixed "xml" Xml.xmlNamespace "lang", "en"⟩

/-- A language is given, stands on the element, and is not read from it. -/
theorem language_not_read :
    ∃ r n x r', dressed [languageAttribute] = .ok (r, n, x, r') ∧
      x.attributes = [languageAttribute] ∧ languageAttribute ∈ r'.element.attributes ∧
      (ExtensibleAttributes.ofElement .v5_0 r'.element).attributes = [] := by
  have hmade : (dressed [languageAttribute]).toOption.map
      (fun t => (t.2.2.1.attributes, t.2.2.2.element.attributes.contains languageAttribute,
        (ExtensibleAttributes.ofElement .v5_0 t.2.2.2.element).attributes)) =
      some ([languageAttribute], true, []) := by decide +kernel
  obtain ⟨⟨r, n, x, r'⟩, hdressed, hparts⟩ := Option.map_eq_some_iff.1 hmade
  simp only [Prod.mk.injEq, List.contains_eq_mem, decide_eq_true_eq] at hparts
  obtain ⟨hgiven, hthere, hread⟩ := hparts
  exact ⟨r, n, x, r', toOption_ok.1 hdressed, hgiven, hthere, hread⟩

end Resource

end DiscoveryMetadata
