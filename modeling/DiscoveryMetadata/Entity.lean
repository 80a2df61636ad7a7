import DiscoveryMetadata.Component.Basic
/-
  Entities: organizations and their parts, persons, services, and since version 4.0.1 entities of an
  unknown kind.

  All of them can be reached by names, phone numbers and mail addresses; of services and unknown
  entities nothing else is known. Entities describe themselves directly under the stem of the role
  that holds them; their own name is a line of its own.
-/
namespace DiscoveryMetadata

open Xml (Element)

namespace Entity

/-- The name of an entity's element, which began with a capital before version 4.0.1. -/
def name (v : Version) (lowercase : String) : String :=
  if v.atLeast .v4_0_1 then lowercase else lowercase.capitalize

/-- The element is one of an entity. -/
def isElement (e : Element) (v : Version) : Bool :=
  e.name.uri == some v.ddmsUri &&
    ["organization", "person", "service", "unknown"].any fun kind => e.localName == name v kind

end Entity

/-- The ways to reach an entity. -/
structure Contact where
  names : List String := []
  phones : List String := []
  emails : List String := []
  deriving DecidableEq, Inhabited

namespace Contact

/-- Reads the contact from the children of an entity. -/
def ofElement (e : Element) : Contact :=
  let texts := fun name => (e.ownChildren name).map Element.content
  ⟨texts "name", texts "phone", texts "email"⟩

/-- The elements of the names. -/
def nameElements (ctx : Context) (v : Version) (c : Contact) : List Element :=
  c.names.map (ctx.textElement v "name")

/-- The elements of the phone numbers and mail addresses. -/
def reachElements (ctx : Context) (v : Version) (c : Contact) : List Element :=
  c.phones.map (ctx.textElement v "phone") ++ c.emails.map (ctx.textElement v "email")

/-- Refuses a contact without a name that says something. -/
def rules (c : Contact) : Outcome Unit := do
  forbid c.names.isEmpty (.rule "At least 1 name element must exist.")
  forbid (allBlank c.names) (.rule "At least 1 name element must have a non-empty value.")

/-- The warnings about phone numbers and mail addresses that say nothing. -/
def remarks (b : Base) (c : Contact) : List Finding :=
  b.warnIf (c.phones.any (·.isEmpty)) "A ddms:phone element was found with no value." ++
    b.warnIf (c.emails.any (·.isEmpty)) "A ddms:email element was found with no value."

/-- Nothing is given. -/
def isEmpty (c : Contact) : Bool := allBlank c.names && allBlank c.phones && allBlank c.emails

/-- The contact without the texts that are blank. -/
def clean (c : Contact) : Contact := ⟨dropBlank c.names, dropBlank c.phones, dropBlank c.emails⟩

/-- The lines of the names under a stem. -/
def nameLines (c : Contact) (stem : String) : List Line := Line.ofAll (stem ++ "name") c.names

/-- The lines of the phone numbers and mail addresses under a stem. -/
def reachLines (c : Contact) (stem : String) : List Line :=
  Line.ofAll (stem ++ "phone") c.phones ++ Line.ofAll (stem ++ "email") c.emails

/-- The output of the names under a stem. -/
def nameOutput (html : Bool) (c : Contact) (stem : String) : String :=
  Output.entries html (stem ++ "name") c.names

/-- The output of the phone numbers and mail addresses under a stem. -/
def reachOutput (html : Bool) (c : Contact) (stem : String) : String :=
  Output.entries html (stem ++ "phone") c.phones ++ Output.entries html (stem ++ "email") c.emails

end Contact

/-- A part of an organization. -/
structure SubOrganization extends Base where
  value : String
  security : SecurityAttributes
  deriving BEq, Inhabited

namespace SubOrganization

/-- The rules of a part of an organization. -/
def rules (c : SubOrganization) : Outcome Unit := do
  requireDdms c.element c.version "subOrganization"
  requireValue "subOrganization value" c.value
  requireVersion c.version .v4_0_1 "ddms:subOrganization element"

/-- The warnings about the component. -/
def findings (c : SubOrganization) : List Finding :=
  c.absorb c.security.warnings

/-- The component, if it keeps the rules, with the warnings about it. -/
def checked (c : SubOrganization) : Outcome SubOrganization := do
  c.check c.rules
  return { c with warnings := c.findings }

/-- Reads a part of an organization. -/
def ofElement (ctx : Context) (v : Version) (e : Element) : Outcome SubOrganization := do
  let security ← within e.writtenName (SecurityAttributes.ofElement ctx v e)
  checked ⟨⟨e, v, []⟩, e.content, security⟩

/-- Makes a part of an organization. -/
def make (ctx : Context) (v : Version) (value : String) (security : SecurityAttributes) :
    Outcome SubOrganization := do
  let e := ctx.textElement v "subOrganization" value
  let e ← within e.writtenName (security.addTo ctx v e)
  checked ⟨⟨e, v, []⟩, value, security⟩

instance : Component SubOrganization where
  base c := c.toBase
  security? c := some c.security
  lines c stem index :=
    let name := c.lineName stem index
    Line.of name c.value ++ c.security.lines (name ++ ".")
  output html c stem index :=
    let name := c.lineName stem index
    Output.entry html name c.value ++ c.security.output html (name ++ ".")

/-- The contents of a part of an organization to be made. -/
structure Draft where
  version : Option Version := none
  value : String := ""
  security : SecurityAttributes.Draft := {}
  deriving BEq, Inhabited

instance : Buildable Draft SubOrganization where
  isEmpty d := Text.isBlank d.value && d.security.isEmpty
  version? d := d.version
  build ctx v d := do make ctx v d.value (← d.security.commitAs ctx v)

/-- The draft that leads to the component again. -/
def toDraft (c : SubOrganization) : Draft := ⟨some c.version, c.value, c.security.toDraft⟩

end SubOrganization

/-- An organization. -/
structure Organization extends Base where
  contact : Contact
  subOrganizations : List SubOrganization
  acronym : String
  deriving BEq, Inhabited

namespace Organization

/-- The rules of an organization. -/
def rules (c : Organization) : Outcome Unit := do
  requireDdms c.element c.version (Entity.name c.version "organization")
  c.contact.rules
  c.requireSameVersions (c.subOrganizations.map (·.toBase))
  demand (c.version.atLeast .v4_0_1 || c.acronym.isEmpty)
    (.rule "An organization cannot have an acronym until DDMS 4.0.1 or later.")

/-- The warnings about the organization. -/
def findings (c : Organization) : List Finding :=
  c.warnIf (c.version.atLeast .v4_0_1 && c.acronym.isEmpty &&
      (c.element.attribute? c.element.name.uri "acronym").isSome)
    "A ddms:acronym attribute was found with no value." ++
  c.contact.remarks c.toBase ++
  c.absorbAll (c.subOrganizations.map (·.toBase))

/-- The organization, if it keeps the rules, with the warnings about it. -/
def checked (c : Organization) : Outcome Organization := do
  c.check c.rules
  return { c with warnings := c.findings }

/-- Reads an organization. -/
def ofElement (ctx : Context) (v : Version) (e : Element) : Outcome Organization := do
  let subs ← within e.writtenName
    (readAll SubOrganization.ofElement ctx v (e.ownChildren "subOrganization"))
  checked ⟨⟨e, v, []⟩, Contact.ofElement e, subs, e.own "acronym"⟩

/-- Makes an organization. -/
def make (ctx : Context) (v : Version) (contact : Contact)
    (subOrganizations : List SubOrganization) (acronym : String) : Outcome Organization :=
  let e := (ctx.ddmsElement v (Entity.name v "organization")).put (ctx.ddmsName v "acronym") acronym
  let e := e.add (contact.nameElements ctx v ++ contact.reachElements ctx v ++
    subOrganizations.map (·.element))
  checked ⟨⟨e, v, []⟩, contact, subOrganizations, acronym⟩

instance : Component Organization where
  base c := c.toBase
  security? _ := none
  lines c stem _ :=
    Line.of (stem ++ "entityType") c.localName ++ c.contact.nameLines stem ++
      c.contact.reachLines stem ++ Component.linesOfAll c.subOrganizations stem ++
      Line.of (stem ++ "acronym") c.acronym
  output html c stem _ :=
    Output.entry html (stem ++ "entityType") c.localName ++ c.contact.nameOutput html stem ++
      c.contact.reachOutput html stem ++ Component.outputOfAll html c.subOrganizations stem ++
      Output.entry html (stem ++ "acronym") c.acronym

/-- The contents of an organization to be made. -/
structure Draft where
  version : Option Version := none
  contact : Contact := {}
  subOrganizations : List SubOrganization.Draft := []
  acronym : String := ""
  deriving BEq, Inhabited

instance : Buildable Draft Organization where
  isEmpty d :=
    d.contact.isEmpty && Buildable.allEmpty d.subOrganizations && Text.isBlank d.acronym
  version? d := d.version
  build ctx v d := do
    make ctx v d.contact.clean (← Buildable.commitAll ctx v d.subOrganizations) d.acronym

/-- The draft that leads to the component again. -/
def toDraft (c : Organization) : Draft :=
  ⟨some c.version, c.contact, c.subOrganizations.map (·.toDraft), c.acronym⟩

end Organization

/-- A person. -/
structure Person extends Base where
  contact : Contact
  surname : String
  userId : String
  affiliation : String
  deriving BEq, Inhabited

namespace Person

/-- The rules of a person. -/
def rules (c : Person) : Outcome Unit := do
  requireDdms c.element c.version (Entity.name c.version "person")
  c.contact.rules
  requireValue "surname" c.surname
  requireChildren c.element "surname" 1 1
  requireChildren c.element "userID" 0 1
  requireChildren c.element "affiliation" 0 1

/-- The element has exactly one child of the name. -/
def hasOne (c : Person) (name : String) : Bool := (c.element.ownChildren name).length == 1

/-- The warnings about the person. -/
def findings (c : Person) : List Finding :=
  c.warnIf (c.userId.isEmpty && c.hasOne "userID")
    "A ddms:userID element was found with no value." ++
  c.warnIf (c.affiliation.isEmpty && c.hasOne "affiliation")
    "A ddms:affiliation element was found with no value." ++
  c.contact.remarks c.toBase

/-- The person, if it keeps the rules, with the warnings about it. -/
def checked (c : Person) : Outcome Person := do
  c.check c.rules
  return { c with warnings := c.findings }

/-- Reads a person. -/
def ofElement (_ : Context) (v : Version) (e : Element) : Outcome Person :=
  checked ⟨⟨e, v, []⟩, Contact.ofElement e, e.ownText "surname", e.ownText "userID",
    e.ownText "affiliation"⟩

/-- Makes a person. -/
def make (ctx : Context) (v : Version) (contact : Contact) (surname userId affiliation : String) :
    Outcome Person :=
  let e := (ctx.ddmsElement v (Entity.name v "person")).add
    (contact.nameElements ctx v ++ ctx.textElements v "surname" surname ++
      ctx.textElements v "userID" userId ++ ctx.textElements v "affiliation" affiliation ++
      contact.reachElements ctx v)
  checked ⟨⟨e, v, []⟩, contact, surname, userId, affiliation⟩

instance : Component Person where
  base c := c.toBase
  security? _ := none
  lines c stem _ :=
    Line.of (stem ++ "entityType") c.localName ++ c.contact.nameLines stem ++
      Line.of (stem ++ "surname") c.surname ++ Line.of (stem ++ "userID") c.userId ++
      Line.of (stem ++ "affiliation") c.affiliation ++ c.contact.reachLines stem
  output html c stem _ :=
    Output.entry html (stem ++ "entityType") c.localName ++ c.contact.nameOutput html stem ++
      Output.entry html (stem ++ "surname") c.surname ++
      Output.entry html (stem ++ "userID") c.userId ++
      Output.entry html (stem ++ "affiliation") c.affiliation ++ c.contact.reachOutput html stem

/-- The contents of a person to be made. -/
structure Draft where
  version : Option Version := none
  contact : Contact := {}
  surname : String := ""
  userId : String := ""
  affiliation : String := ""
  deriving BEq, Inhabited

instance : Buildable Draft Person where
  isEmpty d := d.contact.isEmpty && allBlank [d.surname, d.userId, d.affiliation]
  version? d := d.version
  build ctx v d := make ctx v d.contact.clean d.surname d.userId d.affiliation

/-- The draft that leads to the component again. -/
def toDraft (c : Person) : Draft := ⟨some c.version, c.contact, c.surname, c.userId, c.affiliation⟩

end Person

namespace NamedEntity

/-- The kinds of such entities. -/
inductive Kind where
  | service
  | unknown
  deriving DecidableEq, Repr, Inhabited

namespace Kind

/-- The name of the kind, in lower case. -/
def name : Kind → String
  | service => "service"
  | unknown => "unknown"

end Kind

end NamedEntity

/-- A service or an unknown entity. -/
structure NamedEntity extends Base where
  kind : NamedEntity.Kind
  contact : Contact
  deriving BEq, Inhabited

namespace NamedEntity

/-- The rules of such an entity. -/
def rules (c : NamedEntity) : Outcome Unit := do
  requireDdms c.element c.version (Entity.name c.version c.kind.name)
  if c.kind = .unknown then requireVersion c.version .v4_0_1 "ddms:unknown element"
  c.contact.rules

/-- The warnings about the entity. -/
def findings (c : NamedEntity) : List Finding :=
  c.contact.remarks c.toBase

/-- The entity, if it keeps the rules, with the warnings about it. -/
def checked (c : NamedEntity) : Outcome NamedEntity := do
  c.check c.rules
  return { c with warnings := c.findings }

/-- Reads such an entity; whatever does not call itself unknown is taken as a service. -/
def ofElement (_ : Context) (v : Version) (e : Element) : Outcome NamedEntity :=
  let kind := if e.localName.toLower = "unknown" then Kind.unknown else Kind.service
  checked ⟨⟨e, v, []⟩, kind, Contact.ofElement e⟩

/-- Makes such an entity. -/
def make (ctx : Context) (v : Version) (kind : Kind) (contact : Contact) : Outcome NamedEntity :=
  let e := (ctx.ddmsElement v (Entity.name v kind.name)).add
    (contact.nameElements ctx v ++ contact.reachElements ctx v)
  checked ⟨⟨e, v, []⟩, kind, contact⟩

instance : Component NamedEntity where
  base c := c.toBase
  security? _ := none
  lines c stem _ :=
    Line.of (stem ++ "entityType") c.localName ++ c.contact.nameLines stem ++
      c.contact.reachLines stem
  output html c stem _ :=
    Output.entry html (stem ++ "entityType") c.localName ++ c.contact.nameOutput html stem ++
      c.contact.reachOutput html stem

/-- The contents of such an entity to be made. -/
structure Draft where
  version : Option Version := none
  kind : Kind := .service
  contact : Contact := {}
  deriving BEq, Inhabited

instance : Buildable Draft NamedEntity where
  isEmpty d := d.contact.isEmpty
  version? d := d.version
  build ctx v d := make ctx v d.kind d.contact.clean

/-- The draft that leads to the component again. -/
def toDraft (c : NamedEntity) : Draft := ⟨some c.version, c.kind, c.contact⟩

end NamedEntity

end DiscoveryMetadata
