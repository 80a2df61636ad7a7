import DiscoveryMetadata.Entity
import DiscoveryMetadata.Form.Attributes
import DiscoveryMetadata.Relation
import DiscoveryMetadata.Role.Producer
import DiscoveryMetadata.Role.Tasking
/-
  The forms of entities, of the roles that hold them, and of relations. The source of an entity may
  name its type.
-/
namespace DiscoveryMetadata

open Data (Value)

/-- Ways to be reached, from a form. -/
def Contact.ofForm (v : Value) : Contact :=
  ⟨v.textsAt "names", v.textsAt "phones", v.textsAt "emails"⟩

/-- Ways to be reached, as a form. -/
def Contact.toForm (c : Contact) : Value :=
  .record [("names", .ofTexts c.names), ("phones", .ofTexts c.phones),
    ("emails", .ofTexts c.emails)]

/-- The contact of a form in the place of the old one. -/
def Form.contactOver (v : Value) (old : Contact) : Contact := v.readOver "contact" old .ofForm

/-- The words for the kinds. -/
def NamedEntity.Kind.words : List (String × NamedEntity.Kind) :=
  [("service", .service), ("unknown", .unknown)]

open Form

instance : Form SubOrganization SubOrganization.Draft where
  read := SubOrganization.ofElement
  draft c := c.toDraft
  blank := {}
  contents c := [("value", .text c.value)]
  fill d v := do return { d with
    version := ← v.versionOver d.version
    value := v.textOver "value" d.value
    security := securityOver v d.security }
  make ctx v f := do
    let s ← security ctx f
    SubOrganization.make ctx v (f.textAt "value") s

instance : Form Organization Organization.Draft where
  read := Organization.ofElement
  draft c := c.toDraft
  blank := {}
  contents c := [("contact", c.contact.toForm), ("names", .ofTexts c.contact.names),
    ("sub_organizations", namesOf c.subOrganizations), ("acronym", .text c.acronym)]
  fill d v := do return { d with
    version := ← v.versionOver d.version
    contact := contactOver v d.contact
    subOrganizations := ← draftsOver v "sub_organizations" d.subOrganizations
    acronym := v.textOver "acronym" d.acronym }
  make ctx v f := do
    let units ← parts ctx f "sub_organizations"
    Organization.make ctx v (.ofForm (f.entry "contact")) units (f.textAt "acronym")

instance : Form Person Person.Draft where
  read := Person.ofElement
  draft c := c.toDraft
  blank := {}
  contents c := [("contact", c.contact.toForm), ("names", .ofTexts c.contact.names),
    ("surname", .text c.surname), ("user_id", .text c.userId),
    ("affiliation", .text c.affiliation)]
  fill d v := do return { d with
    version := ← v.versionOver d.version
    contact := contactOver v d.contact
    surname := v.textOver "surname" d.surname
    userId := v.textOver "user_id" d.userId
    affiliation := v.textOver "affiliation" d.affiliation }
  make ctx v f :=
    Person.make ctx v (.ofForm (f.entry "contact")) (f.textAt "surname") (f.textAt "user_id")
      (f.textAt "affiliation")

instance : Form NamedEntity NamedEntity.Draft where
  read := NamedEntity.ofElement
  draft c := c.toDraft
  blank := {}
  contents c := [("kind", .wordFor NamedEntity.Kind.words c.kind), ("contact", c.contact.toForm),
    ("names", .ofTexts c.contact.names)]
  fill d v := do return { d with
    version := ← v.versionOver d.version
    kind := v.wordOver NamedEntity.Kind.words "kind" d.kind
    contact := contactOver v d.contact }
  make ctx v f :=
    NamedEntity.make ctx v ((f.entry "kind").meaning NamedEntity.Kind.words .service)
      (.ofForm (f.entry "contact"))

/-- The words for the types of entities. -/
def EntityType.words : List (String × EntityType) :=
  [("organization", .organization), ("person", .person), ("service", .service),
    ("unknown", .unknown)]

/-- The words for the kinds of producers. -/
def ProducerRole.Kind.words : List (String × ProducerRole.Kind) :=
  [("creator", .creator), ("contributor", .contributor), ("publisher", .publisher),
    ("pointOfContact", .pointOfContact)]

/-- The words for the kinds of taskings. -/
def TaskingRole.Kind.words : List (String × TaskingRole.Kind) :=
  [("requesterInfo", .requesterInfo), ("addressee", .addressee)]

/-- The entity of a producer, from its source. -/
def Form.producer (ctx : Context) (v : Value) : Outcome Producer :=
  match v.textAt "type" with
  | "organization" => (readSource Organization.ofElement ctx v).map .organization
  | "person" => (readSource Person.ofElement ctx v).map .person
  | "namedEntity" => (readSource NamedEntity.ofElement ctx v).map .named
  | _ => readSource Producer.ofElement ctx v

/-- The entity of a tasking, from its source. -/
def Form.taskingEntity (ctx : Context) (v : Value) : Outcome TaskingEntity :=
  match v.textAt "type" with
  | "organization" => (readSource Organization.ofElement ctx v).map .organization
  | "person" => (readSource Person.ofElement ctx v).map .person
  | _ => readSource TaskingEntity.ofElement ctx v

instance : Form ProducerRole ProducerRole.Draft where
  read := ProducerRole.ofElement
  draft c := c.toDraft
  blank := {}
  contents c := [("kind", .wordFor ProducerRole.Kind.words c.kind),
    ("entity", .optional (fun p => .record [("entity", .text p.base.writtenName),
      ("names", .ofTexts p.names)]) c.entity),
    ("poc_types", .ofTexts c.pocTypes)]
  fill d v := do return { d with
    version := ← v.versionOver d.version
    kind := v.wordOver ProducerRole.Kind.words "kind" d.kind
    entityType := v.wordOver EntityType.words "entity_type" d.entityType
    organization := ← draftOver v "organization" d.organization
    person := ← draftOver v "person" d.person
    named := ← draftOver v "named" d.named
    pocTypes := v.textsOver "poc_types" d.pocTypes
    security := securityOver v d.security }
  make ctx v f := do
    let entity ← producer ctx (f.entry "entity")
    let s ← security ctx f
    ProducerRole.make ctx v ((f.entry "kind").meaning ProducerRole.Kind.words .creator) entity
      (f.textsAt "poc_types") s

instance : Form TaskingRole TaskingRole.Draft where
  read := TaskingRole.ofElement
  draft c := c.toDraft
  blank := {}
  contents c := [("kind", .wordFor TaskingRole.Kind.words c.kind),
    ("entity", .optional (fun t => .text t.base.writtenName) c.entity)]
  fill d v := do return { d with
    version := ← v.versionOver d.version
    kind := v.wordOver TaskingRole.Kind.words "kind" d.kind
    entityType := v.wordOver EntityType.words "entity_type" d.entityType
    organization := ← draftOver v "organization" d.organization
    person := ← draftOver v "person" d.person
    security := securityOver v d.security }
  make ctx v f := do
    let entity ← taskingEntity ctx (f.entry "entity")
    let s ← security ctx f
    TaskingRole.make ctx v ((f.entry "kind").meaning TaskingRole.Kind.words .requesterInfo) entity
      s

instance : Form Link Link.Draft where
  read := Link.ofElement
  draft c := c.toDraft
  blank := {}
  contents c := [("xlink_attributes", c.link.toForm)]
  fill d v := do return { d with
    version := ← v.versionOver d.version
    href := v.textOver "href" d.href
    role := v.textOver "role" d.role
    title := v.textOver "title" d.title
    label := v.textOver "label" d.label
    security := securityOver v d.security }
  make ctx v f := do
    let link ← LinkAttributes.ofForm (f.entry "xlink")
    let s ← security ctx f
    Link.make ctx v link s

instance : Form RelatedResource RelatedResource.Draft where
  read := RelatedResource.ofElement
  draft c := c.toDraft
  blank := {}
  contents c := [("relationship", .text c.relationship), ("direction", .text c.direction),
    ("qualifier", .text c.qualifier), ("value", .text c.value), ("links", namesOf c.links)]
  fill d v := do return { d with
    version := ← v.versionOver d.version
    relationship := v.textOver "relationship" d.relationship
    direction := v.textOver "direction" d.direction
    qualifier := v.textOver "qualifier" d.qualifier
    value := v.textOver "value" d.value
    links := ← draftsOver v "links" d.links
    security := securityOver v d.security }
  make ctx v f := do
    let links ← parts ctx f "links"
    let s ← security ctx f
    RelatedResource.make ctx v links (f.textAt "relationship") (f.textAt "direction")
      (f.textAt "qualifier") (f.textAt "value") s

end DiscoveryMetadata
