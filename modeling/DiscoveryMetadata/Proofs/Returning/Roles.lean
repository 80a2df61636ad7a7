import DiscoveryMetadata.Proofs.Returning.Records
import DiscoveryMetadata.Proofs.Text.Words
import DiscoveryMetadata.Role.Tasking
/-
  Producers and taskings, with their entities, are read again from the elements that they are made
  into.

  `Draft.items` are the entries of a draft that are written as one list. They are told apart by
  white space, so they have to be words.
-/
namespace DiscoveryMetadata

open Buildable
open Text (IsWord)
open Xml (Element IsName)
open Xml.Element (Regular)

variable {fit : String → Prop} {ctx : Context} {v : Version} {s : SecurityAttributes}
  {sd : SecurityAttributes.Draft}

namespace Entity

/-- The names of the elements of entities. -/
def kinds : List String := ["organization", "person", "service", "unknown"]

theorem isName_name : ∀ kind ∈ kinds, IsName (name v kind) := by
  cases v <;> decide +kernel

theorem isElement_named {e : Element} {kind : String} (hk : kind ∈ kinds)
    (h : e.name.isNamed v.ddmsUri (name v kind) = true) : isElement e v = true := by
  have hany : kinds.any (fun k => name v kind == name v k) = true :=
    List.any_eq_true.2 ⟨kind, hk, beq_self_eq_true _⟩
  have hlocal := Element.localName_of_isNamed h
  rw [Xml.QName.isNamed, Bool.and_eq_true] at h
  rw [isElement, hlocal, h.2]
  simpa [kinds] using hany

end Entity

theorem Entity.name_beq : ∀ a ∈ kinds, ∀ b ∈ kinds, (name v a == name v b) = (a == b) := by
  cases v <;> decide +kernel

namespace Contact

variable {c : Contact}

/-- The texts of elements. -/
def texts (c : Contact) : List String := c.names ++ c.phones ++ c.emails

theorem fit_clean (h : ∀ t ∈ c.texts, fit t) : ∀ t ∈ c.clean.texts, fit t := by
  simp only [texts, List.forall_mem_append] at h ⊢
  exact ⟨⟨fit_dropBlank h.1.1, fit_dropBlank h.1.2⟩, fit_dropBlank h.2⟩

theorem regular_nameElements (h : ∀ t ∈ c.texts, fit t) :
    ∀ e ∈ c.nameElements ctx v, e.Regular fit (ctx.bindings v) := by
  simp only [texts, List.forall_mem_append] at h
  exact Regular.texts (by decide) h.1.1

theorem regular_reachElements (h : ∀ t ∈ c.texts, fit t) :
    ∀ e ∈ c.reachElements ctx v, e.Regular fit (ctx.bindings v) := by
  simp only [texts, List.forall_mem_append] at h
  exact List.forall_mem_append.2
    ⟨Regular.texts (by decide) h.1.2, Regular.texts (by decide) h.2⟩

/-- What is read as contact, where the elements are found that it was made into. -/
theorem ofElement_found (ctx : Context) (v : Version) {e : Element}
    (hn : e.ownChildren "name" = c.names.map (ctx.textElement v "name"))
    (hp : e.ownChildren "phone" = c.phones.map (ctx.textElement v "phone"))
    (he : e.ownChildren "email" = c.emails.map (ctx.textElement v "email")) :
    ofElement e = c := by
  simp only [ofElement, hn, hp, he, contents_texts]

end Contact

namespace SubOrganization

variable {c : SubOrganization} {value : String}

theorem make_element (h : make ctx v value s = .ok c) :
    c.element =
      SecurityAttributes.mark ctx v s.values (ctx.textElement v "subOrganization" value) := by
  simp only [make, checked, bind_ok, within_ok, check_ok, pure_ok, exists_unit] at h
  obtain ⟨e, he, -, rfl⟩ := h
  exact (SecurityAttributes.addTo_ok.1 he).2

/-- A part of an organization that was made is read from its element again. -/
theorem make_again (hs : s.Accepted ctx s.version) (h : make ctx v value s = .ok c) :
    ofElement ctx v c.element = .ok c := by
  have helement := make_element h
  simp only [make, bind_ok, within_ok] at h
  obtain ⟨e, he, hc⟩ := h
  have hsec := hs.ofElement_addTo he (by simp)
  obtain ⟨-, rfl⟩ := SecurityAttributes.addTo_ok.1 he
  rw [helement]
  simp only [ofElement, bind_ok, within_ok]
  exact ⟨s, hsec, by simpa using hc⟩

/-- Whatever is read as such a part keeps the version and the element, which has its name. -/
theorem ofElement_ok {e : Element} (h : ofElement ctx v e = .ok c) :
    c.version = v ∧ c.element = e ∧ e.name.isNamed v.ddmsUri "subOrganization" = true := by
  simp only [ofElement, checked, rules, bind_ok, within_ok, check_ok, exists_unit, requireDdms_ok,
    pure_ok] at h
  obtain ⟨_, -, ⟨hname, -⟩, rfl⟩ := h
  exact ⟨rfl, rfl, hname⟩

/-- The part was had with the context, by reading or by making it. -/
inductive Accepted (ctx : Context) (c : SubOrganization) : Prop
  | read {v : Version} {e : Element} (h : ofElement ctx v e = .ok c)
  | made {v : Version} {value : String} {s : SecurityAttributes} (hs : s.Accepted ctx s.version)
      (h : make ctx v value s = .ok c)

theorem Accepted.again (h : c.Accepted ctx) : ofElement ctx c.version c.element = .ok c := by
  cases h with
  | read h =>
    obtain ⟨hversion, helement, -⟩ := ofElement_ok h
    rwa [hversion, helement]
  | made hs h =>
    have hread := make_again hs h
    rwa [(ofElement_ok hread).1]

theorem make_returns (hv : fit value) (hs : sd.commitAs ctx v = .ok s)
    (h : make ctx v value s = .ok c) :
    Returns fit ofElement ctx v (ctx.ddmsName v "subOrganization") c := by
  have hread := make_again (SecurityAttributes.accepted_of_commit hs) h
  refine .of_read hread rfl ?_ ?_ <;> rw [make_element h]
  · simp
  · exact (Regular.textElement (by decide) hv).mark hs

/-- The texts of elements. -/
def Draft.texts (d : Draft) : List String := [d.value]

theorem build_returns {d : Draft} (ht : ∀ t ∈ d.texts, fit t) (h : build ctx v d = .ok c) :
    Returns fit ofElement ctx v (ctx.ddmsName v "subOrganization") c := by
  obtain ⟨s, hs, h⟩ := bind_ok.1 h
  exact make_returns (by simpa [Draft.texts] using ht) hs h

end SubOrganization

namespace Organization

variable {c : Organization} {contact : Contact} {subs : List SubOrganization} {acronym : String}

/-- The element that an organization is made into. -/
def whole (ctx : Context) (v : Version) (contact : Contact) (subs : List SubOrganization)
    (acronym : String) : Element :=
  ((ctx.ddmsElement v (Entity.name v "organization")).put (ctx.ddmsName v "acronym") acronym).add
    (contact.nameElements ctx v ++ contact.reachElements ctx v ++ subs.map (·.element))

theorem make_element (h : make ctx v contact subs acronym = .ok c) :
    c.element = whole ctx v contact subs acronym := by
  simp only [make, checked, bind_ok, pure_ok] at h
  obtain ⟨_, -, rfl⟩ := h
  rfl

/-- Whatever is read as an organization keeps the version and the element, which has its name. -/
theorem ofElement_ok {e : Element} (h : ofElement ctx v e = .ok c) :
    c.version = v ∧ c.element = e ∧
      e.name.isNamed v.ddmsUri (Entity.name v "organization") = true := by
  simp only [ofElement, checked, rules, bind_ok, within_ok, check_ok, exists_unit, requireDdms_ok,
    pure_ok] at h
  obtain ⟨_, -, ⟨hname, -⟩, rfl⟩ := h
  exact ⟨rfl, rfl, hname⟩

/-- An organization that was made is read from its element again, if its parts are. -/
theorem make_again (hs : ∀ s ∈ subs, SubOrganization.ofElement ctx v s.element = .ok s)
    (h : make ctx v contact subs acronym = .ok c) : ofElement ctx v c.element = .ok c := by
  have hnames : ∀ e ∈ subs.map (·.element), e.name.isNamed v.ddmsUri "subOrganization" = true :=
    List.forall_mem_map.2 fun s hmem => (SubOrganization.ofElement_ok (hs s hmem)).2.2
  have helement := make_element h
  obtain ⟨e, he⟩ : ∃ e, e = whole ctx v contact subs acronym := ⟨_, rfl⟩
  have hmade : checked ⟨⟨e, v, []⟩, contact, subs, acronym⟩ = .ok c := he ▸ h
  have hfind : ∀ l, e.ownChildren l =
      (if "name" = l then contact.names.map (ctx.textElement v "name") else []) ++
        (if "phone" = l then contact.phones.map (ctx.textElement v "phone") else []) ++
        (if "email" = l then contact.emails.map (ctx.textElement v "email") else []) ++
        (if "subOrganization" = l then subs.map (·.element) else []) := by
    intro l
    simp [he, whole, Element.ownChildren, Element.childrenNamed, Contact.nameElements,
      Contact.reachElements, filter_isNamed hnames, filter_named (names_texts ctx v _ _)]
  have hcontact : Contact.ofElement e = contact := by
    refine Contact.ofElement_found ctx v ?_ ?_ ?_ <;> simp [hfind]
  have hacronym : e.own "acronym" = acronym := by
    simp [he, whole, Element.own, Element.attributeText_put]
  rw [helement, ← he]
  simp only [ofElement, bind_ok, within_ok, hcontact, hacronym]
  have hall : readAll SubOrganization.ofElement ctx v (subs.map fun s => s.element) = .ok subs :=
    readAll_again hs
  refine ⟨subs, ?_, hmade⟩
  simpa [hfind] using hall

/-- The parts of an organization that was made are of its version. -/
theorem versions_of_make (h : make ctx v contact subs acronym = .ok c) :
    ∀ s ∈ subs, s.version = v := by
  simp only [make, checked, rules, bind_ok, check_ok, exists_unit, Base.requireSameVersions_ok] at h
  obtain ⟨⟨-, -, hsame, -⟩, -⟩ := h
  exact fun s hmem => hsame _ (List.mem_map_of_mem hmem)

/-- The organization was had with the context, by reading or by making it of such parts. -/
inductive Accepted (ctx : Context) (c : Organization) : Prop
  | read {v : Version} {e : Element} (h : ofElement ctx v e = .ok c)
  | made {v : Version} {contact : Contact} {subs : List SubOrganization} {acronym : String}
      (hs : ∀ s ∈ subs, s.Accepted ctx) (h : make ctx v contact subs acronym = .ok c)

theorem Accepted.again (h : c.Accepted ctx) : ofElement ctx c.version c.element = .ok c := by
  cases h with
  | read h =>
    obtain ⟨hversion, helement, -⟩ := ofElement_ok h
    rwa [hversion, helement]
  | made hs h =>
    have hread := make_again (fun s hmem => versions_of_make h s hmem ▸ (hs s hmem).again) h
    rwa [(ofElement_ok hread).1]

theorem make_returns (ht : ∀ t ∈ contact.texts, fit t)
    (hs : ∀ s ∈ subs,
      Returns fit SubOrganization.ofElement ctx v (ctx.ddmsName v "subOrganization") s)
    (h : make ctx v contact subs acronym = .ok c) :
    Returns fit ofElement ctx v (ctx.ddmsName v (Entity.name v "organization")) c := by
  refine .of_read (make_again (fun s hmem => (hs s hmem).again) h) rfl ?_ ?_ <;>
    rw [make_element h]
  · simp [whole]
  · refine ((Regular.ddmsElement (Entity.isName_name _ (by decide))).putDdms (by decide)).add ?_
    simp only [List.forall_mem_append]
    exact ⟨⟨Contact.regular_nameElements ht, Contact.regular_reachElements ht⟩,
      regular_returns hs⟩

/-- The texts of elements. -/
def Draft.texts (d : Draft) : List String := d.contact.texts ++ d.subOrganizations.flatMap (·.texts)

theorem build_returns {d : Draft} (ht : ∀ t ∈ d.texts, fit t) (h : build ctx v d = .ok c) :
    Returns fit ofElement ctx v (ctx.ddmsName v (Entity.name v "organization")) c := by
  obtain ⟨subs, hsubs, h⟩ := bind_ok.1 h
  simp only [Draft.texts, List.forall_mem_append, List.forall_mem_flatMap] at ht
  exact make_returns (Contact.fit_clean ht.1)
    (commitAll_all (fun a ha _ hc => SubOrganization.build_returns (ht.2 a ha) hc) hsubs) h

end Organization

namespace Person

variable {c : Person} {contact : Contact} {surname userId affiliation : String}

/-- The element that a person is made into. -/
def whole (ctx : Context) (v : Version) (contact : Contact) (surname userId affiliation : String) :
    Element :=
  (ctx.ddmsElement v (Entity.name v "person")).add
    (contact.nameElements ctx v ++ ctx.textElements v "surname" surname ++
      ctx.textElements v "userID" userId ++ ctx.textElements v "affiliation" affiliation ++
      contact.reachElements ctx v)

theorem make_element (h : make ctx v contact surname userId affiliation = .ok c) :
    c.element = whole ctx v contact surname userId affiliation := by
  simp only [make, checked, bind_ok, pure_ok] at h
  obtain ⟨_, -, rfl⟩ := h
  rfl

/-- Whatever is read as a person keeps the version and the element, which has its name. -/
theorem ofElement_ok {e : Element} (h : ofElement ctx v e = .ok c) :
    c.version = v ∧ c.element = e ∧
      e.name.isNamed v.ddmsUri (Entity.name v "person") = true := by
  simp only [ofElement, checked, rules, bind_ok, check_ok, exists_unit, requireDdms_ok,
    pure_ok] at h
  obtain ⟨⟨hname, -⟩, rfl⟩ := h
  exact ⟨rfl, rfl, hname⟩

/-- A person that was made is read from its element again. -/
theorem make_again (h : make ctx v contact surname userId affiliation = .ok c) :
    ofElement ctx v c.element = .ok c := by
  have helement := make_element h
  obtain ⟨e, he⟩ : ∃ e, e = whole ctx v contact surname userId affiliation := ⟨_, rfl⟩
  have hmade : checked ⟨⟨e, v, []⟩, contact, surname, userId, affiliation⟩ = .ok c := he ▸ h
  have hfind : ∀ l, e.ownChildren l =
      (if "name" = l then contact.names.map (ctx.textElement v "name") else []) ++
        (if "surname" = l then ctx.textElements v "surname" surname else []) ++
        (if "userID" = l then ctx.textElements v "userID" userId else []) ++
        (if "affiliation" = l then ctx.textElements v "affiliation" affiliation else []) ++
        (if "phone" = l then contact.phones.map (ctx.textElement v "phone") else []) ++
        (if "email" = l then contact.emails.map (ctx.textElement v "email") else []) := by
    intro l
    simp [he, whole, Element.ownChildren, Element.childrenNamed, Contact.nameElements,
      Contact.reachElements, filter_named (names_texts ctx v _ _),
      filter_named (names_textElements ctx v _ _)]
  have hcontact : Contact.ofElement e = contact := by
    refine Contact.ofElement_found ctx v ?_ ?_ ?_ <;> simp [hfind]
  rw [helement, ← he]
  simpa [ofElement, hcontact, Element.ownText, Element.ownChild?_eq, hfind,
    content_textElements] using hmade

/-- The person was had with the context, by reading or by making it. -/
inductive Accepted (ctx : Context) (c : Person) : Prop
  | read {v : Version} {e : Element} (h : ofElement ctx v e = .ok c)
  | made {v : Version} {contact : Contact} {surname userId affiliation : String}
      (h : make ctx v contact surname userId affiliation = .ok c)

theorem Accepted.again (h : c.Accepted ctx) : ofElement ctx c.version c.element = .ok c := by
  cases h with
  | read h =>
    obtain ⟨hversion, helement, -⟩ := ofElement_ok h
    rwa [hversion, helement]
  | made h =>
    have hread := make_again h
    rwa [(ofElement_ok hread).1]

theorem make_returns (ht : ∀ t ∈ contact.texts, fit t) (hs : fit surname) (hu : fit userId)
    (ha : fit affiliation) (h : make ctx v contact surname userId affiliation = .ok c) :
    Returns fit ofElement ctx v (ctx.ddmsName v (Entity.name v "person")) c := by
  refine .of_read (make_again h) rfl ?_ ?_ <;> rw [make_element h]
  · simp [whole]
  · refine (Regular.ddmsElement (Entity.isName_name _ (by decide))).add ?_
    simp only [List.forall_mem_append]
    exact ⟨⟨⟨⟨Contact.regular_nameElements ht, Regular.textElements (by decide) hs⟩,
      Regular.textElements (by decide) hu⟩, Regular.textElements (by decide) ha⟩,
      Contact.regular_reachElements ht⟩

/-- The texts of elements. -/
def Draft.texts (d : Draft) : List String := d.contact.texts ++ [d.surname, d.userId, d.affiliation]

theorem build_returns {d : Draft} (ht : ∀ t ∈ d.texts, fit t) (h : build ctx v d = .ok c) :
    Returns fit ofElement ctx v (ctx.ddmsName v (Entity.name v "person")) c := by
  simp only [Draft.texts, List.forall_mem_append, List.forall_mem_cons] at ht
  obtain ⟨hcontact, hs, hu, ha, -⟩ := ht
  exact make_returns (Contact.fit_clean hcontact) hs hu ha h

end Person

namespace NamedEntity

variable {c : NamedEntity} {contact : Contact} {kind : Kind}

/-- The kind is told from the name of the element, whichever way the version writes it. -/
theorem kind_name (kind : Kind) :
    (if (Entity.name v kind.name).toLower = "unknown" then Kind.unknown else .service) = kind := by
  cases kind <;> cases v <;> decide +kernel

/-- The element that such an entity is made into. -/
def whole (ctx : Context) (v : Version) (kind : Kind) (contact : Contact) : Element :=
  (ctx.ddmsElement v (Entity.name v kind.name)).add
    (contact.nameElements ctx v ++ contact.reachElements ctx v)

theorem make_element (h : make ctx v kind contact = .ok c) :
    c.element = whole ctx v kind contact := by
  simp only [make, checked, bind_ok, pure_ok] at h
  obtain ⟨_, -, rfl⟩ := h
  rfl

/-- Whatever is read as such an entity keeps the version and the element, which has the name of its
kind. -/
theorem ofElement_ok {e : Element} (h : ofElement ctx v e = .ok c) :
    c.version = v ∧ c.element = e ∧
      e.name.isNamed v.ddmsUri (Entity.name v c.kind.name) = true := by
  simp only [ofElement, checked, rules, bind_ok, check_ok, exists_unit, requireDdms_ok,
    pure_ok] at h
  obtain ⟨⟨hname, -⟩, rfl⟩ := h
  exact ⟨rfl, rfl, hname⟩

/-- Such an entity that was made is read from its element again. -/
theorem make_again (h : make ctx v kind contact = .ok c) : ofElement ctx v c.element = .ok c := by
  have helement := make_element h
  obtain ⟨e, he⟩ : ∃ e, e = whole ctx v kind contact := ⟨_, rfl⟩
  have hmade : checked ⟨⟨e, v, []⟩, kind, contact⟩ = .ok c := he ▸ h
  have hfind : ∀ l, e.ownChildren l =
      (if "name" = l then contact.names.map (ctx.textElement v "name") else []) ++
        (if "phone" = l then contact.phones.map (ctx.textElement v "phone") else []) ++
        (if "email" = l then contact.emails.map (ctx.textElement v "email") else []) := by
    intro l
    simp [he, whole, Element.ownChildren, Element.childrenNamed, Contact.nameElements,
      Contact.reachElements, filter_named (names_texts ctx v _ _)]
  have hcontact : Contact.ofElement e = contact := by
    refine Contact.ofElement_found ctx v ?_ ?_ ?_ <;> simp [hfind]
  have hname : e.localName = Entity.name v kind.name := by simp [he, whole, Element.localName]
  rw [helement, ← he]
  simpa only [ofElement, hcontact, hname, kind_name] using hmade

/-- The entity was had with the context, by reading or by making it. -/
inductive Accepted (ctx : Context) (c : NamedEntity) : Prop
  | read {v : Version} {e : Element} (h : ofElement ctx v e = .ok c)
  | made {v : Version} {kind : Kind} {contact : Contact} (h : make ctx v kind contact = .ok c)

theorem Accepted.again (h : c.Accepted ctx) : ofElement ctx c.version c.element = .ok c := by
  cases h with
  | read h =>
    obtain ⟨hversion, helement, -⟩ := ofElement_ok h
    rwa [hversion, helement]
  | made h =>
    have hread := make_again h
    rwa [(ofElement_ok hread).1]

theorem make_returns (ht : ∀ t ∈ contact.texts, fit t) (h : make ctx v kind contact = .ok c) :
    Returns fit ofElement ctx v (ctx.ddmsName v (Entity.name v kind.name)) c := by
  have hkind : kind.name ∈ Entity.kinds := by cases kind <;> decide
  refine .of_read (make_again h) rfl ?_ ?_ <;> rw [make_element h]
  · simp [whole]
  · refine (Regular.ddmsElement (Entity.isName_name _ hkind)).add ?_
    exact List.forall_mem_append.2
      ⟨Contact.regular_nameElements ht, Contact.regular_reachElements ht⟩

/-- The texts of elements. -/
def Draft.texts (d : Draft) : List String := d.contact.texts

theorem build_returns {d : Draft} (ht : ∀ t ∈ d.texts, fit t) (h : build ctx v d = .ok c) :
    Returns fit ofElement ctx v (ctx.ddmsName v (Entity.name v d.kind.name)) c :=
  make_returns (Contact.fit_clean ht) h

end NamedEntity

namespace Producer

/-- The entity is read again from its element, which is known for that of an entity. -/
structure Again (ctx : Context) (v : Version) (p : Producer) : Prop where
  isElement : Entity.isElement p.base.element v = true
  again : ofElement ctx v p.base.element = .ok p

/-- The same, and the element can be written and read. -/
structure Returned (fit : String → Prop) (ctx : Context) (v : Version) (p : Producer) : Prop extends
    Again ctx v p where
  regular : p.base.element.Regular fit (ctx.bindings v)

/-- The name of the element tells which entity is read. -/
theorem ofElement_named {e : Element} {kind : String} (hk : kind ∈ Entity.kinds)
    (hn : e.name.isNamed v.ddmsUri (Entity.name v kind) = true) :
    ofElement ctx v e =
      if kind = "organization" then (Organization.ofElement ctx v e).map organization
      else if kind = "person" then (Person.ofElement ctx v e).map person
      else (NamedEntity.ofElement ctx v e).map named := by
  have hname : e.localName = Entity.name v kind := Element.localName_of_isNamed hn
  have hsame : ∀ k ∈ Entity.kinds, (e.localName == Entity.name v k) = (kind == k) :=
    fun k hkk => by rw [hname, Entity.name_beq _ hk _ hkk]
  simp only [ofElement, hsame "organization" (by decide), hsame "person" (by decide),
    hsame "service" (by decide), hsame "unknown" (by decide)]
  simp only [Entity.kinds, List.mem_cons, List.not_mem_nil, or_false] at hk
  rcases hk with rfl | rfl | rfl | rfl <;> rfl

theorem again_organization {o : Organization}
    (h : Organization.ofElement ctx v o.element = .ok o) : Again ctx v (.organization o) := by
  have hn := (Organization.ofElement_ok h).2.2
  refine ⟨Entity.isElement_named (by decide) hn, (ofElement_named (by decide) hn).trans ?_⟩
  rw [if_pos rfl]
  exact map_ok.2 ⟨o, h, rfl⟩

theorem again_person {p : Person} (h : Person.ofElement ctx v p.element = .ok p) :
    Again ctx v (.person p) := by
  have hn := (Person.ofElement_ok h).2.2
  refine ⟨Entity.isElement_named (by decide) hn, (ofElement_named (by decide) hn).trans ?_⟩
  rw [if_neg (by decide), if_pos rfl]
  exact map_ok.2 ⟨p, h, rfl⟩

theorem again_named {n : NamedEntity} (h : NamedEntity.ofElement ctx v n.element = .ok n) :
    Again ctx v (.named n) := by
  have hn := (NamedEntity.ofElement_ok h).2.2
  have hk : n.kind.name ∈ Entity.kinds ∧ n.kind.name ≠ "organization" ∧
      n.kind.name ≠ "person" := by
    cases n.kind <;> decide
  refine ⟨Entity.isElement_named hk.1 hn, (ofElement_named hk.1 hn).trans ?_⟩
  rw [if_neg hk.2.1, if_neg hk.2.2]
  exact map_ok.2 ⟨n, h, rfl⟩

/-- The entity was had with the context, by reading or by making it. -/
def Accepted (ctx : Context) : Producer → Prop
  | organization o => o.Accepted ctx
  | person p => p.Accepted ctx
  | named n => n.Accepted ctx

theorem Accepted.again {p : Producer} (h : p.Accepted ctx) : Again ctx p.base.version p := by
  cases p with
  | organization o => exact again_organization (Organization.Accepted.again h)
  | person p => exact again_person (Person.Accepted.again h)
  | named n => exact again_named (NamedEntity.Accepted.again h)

theorem returned_organization {o : Organization} (h : Returns fit Organization.ofElement ctx v
    (ctx.ddmsName v (Entity.name v "organization")) o) : Returned fit ctx v (.organization o) :=
  ⟨again_organization h.again, h.regular⟩

theorem returned_person {p : Person} (h : Returns fit Person.ofElement ctx v
    (ctx.ddmsName v (Entity.name v "person")) p) : Returned fit ctx v (.person p) :=
  ⟨again_person h.again, h.regular⟩

theorem returned_named {n : NamedEntity} {kind : NamedEntity.Kind} (h : Returns fit
    NamedEntity.ofElement ctx v (ctx.ddmsName v (Entity.name v kind.name)) n) :
    Returned fit ctx v (.named n) :=
  ⟨again_named h.again, h.regular⟩

end Producer

namespace ProducerRole

variable {c : ProducerRole} {kind : Kind} {entity : Producer} {pocTypes : List String}
  {e e' : Element}

/-- The name under which kinds of contact stand is not that of a security attribute. -/
theorem pocTypeName_ok {q : Xml.QName} (h : pocTypeName ctx v = .ok q) :
    q = (if v.atLeast .v4_1 then ctx.ismName v "pocType" else ctx.ddmsName v "POCType") := by
  unfold pocTypeName at h
  split_ifs at h ⊢ <;> cases h <;> rfl

theorem addPocTypes_ok (h : addPocTypes ctx v pocTypes e = .ok e') :
    e' = if pocTypes = [] then e else e.setAttribute
      (if v.atLeast .v4_1 then ctx.ismName v "pocType" else ctx.ddmsName v "POCType")
      (Text.unwords pocTypes) := by
  unfold addPocTypes at h
  cases pocTypes with
  | nil => exact (Except.ok.inj h).symm
  | cons t ts =>
    simp only [List.isEmpty_cons, Bool.false_eq_true, if_false, bind_ok, pure_ok] at h
    obtain ⟨q, hq, rfl⟩ := h
    rw [if_neg (by simp), pocTypeName_ok hq]

/-- From an element that kinds of contact were put on their words are read. -/
theorem pocTypesOf_addPocTypes (hs : s.Accepted ctx v) (he : e.attributes = [])
    (h : addPocTypes ctx v pocTypes e = .ok e') :
    pocTypesOf v (SecurityAttributes.mark ctx v s.values e') = pocTypes.flatMap Text.words := by
  have hnone : ∀ u l, e.attribute? u l = none := by simp [Element.attribute?, he]
  have hother : "pocType" ∉ SecurityAttributes.names := by decide
  have htext : (if v.atLeast .v4_1 then e'.attributeText v.ismUri "pocType"
      else e'.attributeText v.ddmsUri "POCType") = Text.unwords pocTypes := by
    rw [addPocTypes_ok h]
    by_cases hn : pocTypes = []
    · simp [hn, Element.attributeText, hnone, Text.unwords]
    · by_cases hv : v.atLeast .v4_1 <;>
        simp [hn, hv, Element.attributeText, Element.attribute?_setAttribute, Context.ismName]
  have hmark : (if v.atLeast .v4_1 then
      (SecurityAttributes.mark ctx v s.values e').attributeText v.ismUri "pocType"
      else (SecurityAttributes.mark ctx v s.values e').attributeText v.ddmsUri "POCType") =
        Text.unwords pocTypes := by
    rw [SecurityAttributes.attributeText_mark v.ddmsUri_ne_ismUri, Element.attributeText,
      hs.attribute?_mark hother]
    exact htext
  rw [pocTypesOf, hmark, Text.words_unwords_eq]

/-- What is known of a role that was made: its element has the entity as its only child, and from it
the words of the kinds of contact and the security attributes are read. -/
structure Made (ctx : Context) (v : Version) (kind : Kind) (entity : Producer)
    (pocTypes : List String) (s : SecurityAttributes) (c : ProducerRole) : Prop where
  name : c.element.name = ctx.ddmsName v kind.name
  children : c.element.children = [entity.base.element]
  pocTypes_read : pocTypesOf v c.element = pocTypes.flatMap Text.words
  security : SecurityAttributes.ofElement ctx v c.element = .ok s
  rules : checked ctx ⟨⟨c.element, v, []⟩, kind, some entity, pocTypes, s⟩ = .ok c

theorem made_of_make (hs : s.Accepted ctx s.version)
    (h : make ctx v kind entity pocTypes s = .ok c) : Made ctx v kind entity pocTypes s c := by
  simp only [make, bind_ok, within_ok] at h
  obtain ⟨e, ⟨e', he', he⟩, hc⟩ := h
  have hadd := addPocTypes_ok he'
  have hsec := hs.ofElement_addTo he fun name hn => by
    have hother : "pocType" ≠ name := by
      rintro rfl
      exact absurd hn (by decide)
    rw [hadd]
    split
    · simp
    · split <;> simp [Element.attribute?_setAttribute, Context.ismName, hother,
        v.ddmsUri_ne_ismUri]
  obtain ⟨rfl, rfl⟩ := SecurityAttributes.addTo_ok.1 he
  have hname : e'.name = ctx.ddmsName s.version kind.name := by
    rw [hadd]
    split <;> simp
  have hchildren : e'.children = [entity.base.element] := by
    rw [hadd]
    split <;> simp
  have helement : c.element = SecurityAttributes.mark ctx s.version s.values e' := by
    simp only [checked, bind_ok, check_ok, pure_ok] at hc
    obtain ⟨_, -, rfl⟩ := hc
    rfl
  exact ⟨by simp [helement, hname], by simp [helement, hchildren],
    helement ▸ pocTypesOf_addPocTypes hs rfl he', helement ▸ hsec, helement ▸ hc⟩

/-- A role is read as it was made but for its kinds of contact, which are read word by word. -/
theorem Made.ofElement_eq (hm : Made ctx v kind entity pocTypes s c)
    (hentity : entity.Again ctx v) :
    ofElement ctx v c.element =
      checked ctx ⟨⟨c.element, v, []⟩, kind, some entity, pocTypes.flatMap Text.words, s⟩ := by
  have hkind : Kind.ofName? kind.name = some kind := by cases kind <;> decide
  have hlocal : c.element.localName = kind.name := by rw [Element.localName, hm.name]; rfl
  have hread : entityOf ctx v c.element = .ok (some entity) := by
    simp only [entityOf, hm.children, hentity.isElement, if_true]
    exact map_ok.2 ⟨entity, hentity.again, rfl⟩
  simp only [ofElement, hlocal, hkind, hread, hm.security, hm.pocTypes_read]
  rfl

theorem make_returns (hentity : entity.Returned fit ctx v) (hp : ∀ t ∈ pocTypes, IsWord t)
    (hs : sd.commitAs ctx v = .ok s) (h : make ctx v kind entity pocTypes s = .ok c) :
    Returns fit ofElement ctx v (ctx.ddmsName v kind.name) c := by
  have hm := made_of_make (SecurityAttributes.accepted_of_commit hs) h
  have hread : ofElement ctx v c.element = .ok c := by
    rw [hm.ofElement_eq hentity.toAgain, Text.flatMap_words_eq_self.2 hp]
    exact hm.rules
  refine .of_read hread rfl hm.name ?_
  simp only [make, checked, bind_ok, within_ok, check_ok, pure_ok] at h
  obtain ⟨e, ⟨e', he', he⟩, _, -, rfl⟩ := h
  obtain ⟨-, rfl⟩ := SecurityAttributes.addTo_ok.1 he
  have hkind : IsName kind.name := by cases kind <;> decide
  have hbare : (ctx.ddmsElement v kind.name).Regular fit (ctx.bindings v) := .ddmsElement hkind
  have hregular := hbare.add (List.forall_mem_singleton.2 hentity.regular)
  refine Regular.mark ?_ hs
  rw [addPocTypes_ok he']
  split
  · exact hregular
  · refine hregular.setAttribute (.listed ?_)
    split
    · exact Context.listed_ismName (by decide)
    · exact Context.listed_ddmsName (by decide)

namespace Draft

/-- The texts of elements. -/
def texts (d : Draft) : List String := d.organization.texts ++ d.person.texts ++ d.named.texts

/-- The entries that are written as one list. -/
def items (d : Draft) : List String := d.pocTypes

theorem commitEntity_returned {d : Draft} (ht : ∀ t ∈ d.texts, fit t)
    (h : d.commitEntity ctx v = .ok (some entity)) : entity.Returned fit ctx v := by
  simp only [texts, List.forall_mem_append] at ht
  obtain ⟨⟨ho, hp⟩, hn⟩ := ht
  unfold commitEntity at h
  cases hd : d.entityType <;> simp only [hd, bind_ok, pure_ok, Option.map_eq_some_iff] at h <;>
    obtain ⟨_, hc, c, rfl, rfl⟩ := h <;> have hb := (commitAs_some.1 hc).2
  · exact Producer.returned_organization (Organization.build_returns ho hb)
  · exact Producer.returned_person (Person.build_returns hp hb)
  · exact Producer.returned_named
      (NamedEntity.build_returns (d := { d.named with kind := .service }) hn hb)
  · exact Producer.returned_named
      (NamedEntity.build_returns (d := { d.named with kind := .unknown }) hn hb)

end Draft

theorem build_returns {d : Draft} (ht : ∀ t ∈ d.texts, fit t) (hi : ∀ t ∈ d.items, IsWord t)
    (h : build ctx v d = .ok c) : Returns fit ofElement ctx v (ctx.ddmsName v d.kind.name) c := by
  obtain ⟨o, ho, h⟩ := bind_ok.1 h
  cases o with
  | none => simp only [within_ok, error_ok] at h
  | some entity =>
    obtain ⟨s, hs, h⟩ := bind_ok.1 h
    exact make_returns (Draft.commitEntity_returned ht ho)
      (fun t h => hi t (List.mem_filter.1 h).1) hs h

end ProducerRole

namespace TaskingEntity

/-- The entity is read again from its element, which is known for that of an entity. -/
structure Returned (fit : String → Prop) (ctx : Context) (v : Version) (t : TaskingEntity) :
    Prop where
  isElement : Entity.isElement t.base.element v = true
  again : ofElement ctx v t.base.element = .ok t
  regular : t.base.element.Regular fit (ctx.bindings v)

theorem returned_organization {o : Organization} (h : Returns fit Organization.ofElement ctx v
    (ctx.ddmsName v (Entity.name v "organization")) o) : Returned fit ctx v (.organization o) := by
  obtain ⟨-, hread, hr⟩ := h
  have hn := (Organization.ofElement_ok hread).2.2
  refine ⟨Entity.isElement_named (by decide) hn, ?_, hr⟩
  have hname : o.element.localName = Entity.name v "organization" := Element.localName_of_isNamed hn
  simp only [ofElement, base, hname, beq_self_eq_true, if_true]
  exact map_ok.2 ⟨o, hread, rfl⟩

theorem returned_person {p : Person} (h : Returns fit Person.ofElement ctx v
    (ctx.ddmsName v (Entity.name v "person")) p) : Returned fit ctx v (.person p) := by
  obtain ⟨-, hread, hr⟩ := h
  have hn := (Person.ofElement_ok hread).2.2
  refine ⟨Entity.isElement_named (by decide) hn, ?_, hr⟩
  have hname : p.element.localName = Entity.name v "person" := Element.localName_of_isNamed hn
  have hother : (Entity.name v "person" == Entity.name v "organization") = false :=
    Entity.name_beq _ (by decide) _ (by decide)
  simp only [ofElement, base, hname, hother, beq_self_eq_true, Bool.false_eq_true, if_true,
    if_false]
  exact map_ok.2 ⟨p, hread, rfl⟩

end TaskingEntity

namespace TaskingRole

variable {c : TaskingRole} {kind : Kind} {entity : TaskingEntity}

theorem make_returns (hentity : entity.Returned fit ctx v) (hs : sd.commitAs ctx v = .ok s)
    (h : make ctx v kind entity s = .ok c) :
    Returns fit ofElement ctx v (ctx.ddmsName v kind.name) c := by
  simp only [make, bind_ok, within_ok] at h
  obtain ⟨e, he, hc⟩ := h
  have hsec := SecurityAttributes.ofElement_addTo hs he (by simp)
  obtain ⟨-, rfl⟩ := SecurityAttributes.addTo_ok.1 he
  have hkind : IsName kind.name ∧ Kind.ofName? kind.name = some kind := by cases kind <;> decide
  refine .of_made hc (fun _ => rfl) ?_ (by simp [Component.base])
    (((Regular.ddmsElement hkind.1).add (List.forall_mem_singleton.2 hentity.regular)).mark hs)
  have hread : entityOf ctx v (SecurityAttributes.mark ctx v s.values
      ((ctx.ddmsElement v kind.name).add [entity.base.element])) = .ok (some entity) := by
    simp only [entityOf, SecurityAttributes.children_mark, Element.children_add,
      Context.children_ddmsElement, List.nil_append, hentity.isElement, if_true]
    exact map_ok.2 ⟨entity, hentity.again, rfl⟩
  simp only [Component.base, ofElement, Element.localName, SecurityAttributes.name_mark,
    Element.name_add, Context.name_ddmsElement, Context.localName_ddmsName, hkind.2, bind_ok,
    within_ok]
  exact ⟨some entity, hread, s, hsec, hc⟩

namespace Draft

/-- The texts of elements. -/
def texts (d : Draft) : List String := d.organization.texts ++ d.person.texts

theorem commitEntity_returned {d : Draft} (ht : ∀ t ∈ d.texts, fit t)
    (h : d.commitEntity ctx v = .ok (some entity)) : entity.Returned fit ctx v := by
  simp only [texts, List.forall_mem_append] at ht
  unfold commitEntity at h
  cases hd : d.entityType <;>
    simp only [hd, bind_ok, pure_ok, within_ok, error_ok, Option.map_eq_some_iff] at h <;>
    obtain ⟨_, hc, c, rfl, rfl⟩ := h <;> have hb := (commitAs_some.1 hc).2
  · exact TaskingEntity.returned_organization (Organization.build_returns ht.1 hb)
  · exact TaskingEntity.returned_person (Person.build_returns ht.2 hb)

end Draft

theorem build_returns {d : Draft} (ht : ∀ t ∈ d.texts, fit t) (h : build ctx v d = .ok c) :
    Returns fit ofElement ctx v (ctx.ddmsName v d.kind.name) c := by
  obtain ⟨o, ho, h⟩ := bind_ok.1 h
  cases o with
  | none => simp only [within_ok, error_ok] at h
  | some entity =>
    obtain ⟨s, hs, h⟩ := bind_ok.1 h
    exact make_returns (Draft.commitEntity_returned ht ho) hs h

end TaskingRole

end DiscoveryMetadata
