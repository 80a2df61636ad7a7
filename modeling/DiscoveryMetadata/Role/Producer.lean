import DiscoveryMetadata.Entity
/-
  Producers of a resource: who created, published or contributed to it, and who can be asked
  about it. Each role is held by one entity, which stands first among the children.
-/
namespace DiscoveryMetadata

open Xml (Element QName)

/-- The kinds of entities that a draft of a role can ask for. -/
inductive EntityType where
  | organization
  | person
  | service
  | unknown
  deriving DecidableEq, Repr, Inhabited

/-- An entity that produces a resource. -/
inductive Producer where
  | organization (o : Organization)
  | person (p : Person)
  | named (n : NamedEntity)
  deriving BEq, Inhabited

namespace Producer

/-- What the entity has as a component. -/
def base : Producer → Base
  | organization o => o.toBase
  | person p => p.toBase
  | named n => n.toBase

/-- The names of the entity. -/
def names : Producer → List String
  | organization o => o.contact.names
  | person p => p.contact.names
  | named n => n.contact.names

/-- The lines of the entity under a stem. -/
def lines (p : Producer) (stem : String) : List Line :=
  match p with
  | organization o => Component.lines o stem ""
  | person p => Component.lines p stem ""
  | named n => Component.lines n stem ""

/-- The output of the entity under a stem. -/
def output (html : Bool) (p : Producer) (stem : String) : String :=
  match p with
  | organization o => Component.output html o stem ""
  | person p => Component.output html p stem ""
  | named n => Component.output html n stem ""

/-- Reads an entity of whatever kind its name says. -/
def ofElement (ctx : Context) (v : Version) (e : Element) : Outcome Producer :=
  let is := fun kind => e.localName == Entity.name v kind
  if is "organization" then (Organization.ofElement ctx v e).map organization
  else if is "person" then (Person.ofElement ctx v e).map person
  else if is "service" || is "unknown" then (NamedEntity.ofElement ctx v e).map named
  else .error (.unexpectedName e.name.clark)

end Producer

namespace ProducerRole

/-- The roles that a producer can have. -/
inductive Kind where
  | creator
  | contributor
  | publisher
  | pointOfContact
  deriving DecidableEq, Repr, Inhabited

namespace Kind

/-- All kinds, in the order in which their elements stand in a resource. -/
def all : List Kind := [creator, publisher, contributor, pointOfContact]

/-- The local name of the element. -/
def name : Kind → String
  | creator => "creator"
  | contributor => "contributor"
  | publisher => "publisher"
  | pointOfContact => "pointOfContact"

/-- The kind with this local name. -/
def ofName? (name : String) : Option Kind := all.find? (·.name = name)

end Kind

end ProducerRole

/-- A producer in its role. -/
structure ProducerRole extends Base where
  kind : ProducerRole.Kind
  entity : Option Producer
  pocTypes : List String
  security : SecurityAttributes
  deriving BEq, Inhabited

namespace ProducerRole

/-- The kinds of contact cannot be given yet. -/
def pocTypeTooEarly : Fault :=
  .rule "This component cannot have a POCType until DDMS 4.0.1 or later."

/-- No entity holds the role. -/
def missingEntity : Fault := .required "producer entity"

/-- The name of the attribute with the kinds of contact. -/
def pocTypeName (ctx : Context) (v : Version) : Outcome QName :=
  if v.atLeast .v4_1 then .ok (ctx.ismName v "pocType")
  else if v.atLeast .v4_0_1 then .ok (ctx.ddmsName v "POCType")
  else .error pocTypeTooEarly

/-- Reads the kinds of contact from an element. -/
def pocTypesOf (v : Version) (e : Element) : List String :=
  Text.words (if v.atLeast .v4_1 then e.attributeText v.ismUri "pocType"
    else e.attributeText v.ddmsUri "POCType")

/-- The rules of a role; gives the warnings about the kinds of contact. -/
def rules (ctx : Context) (c : ProducerRole) : Outcome (List Finding) := do
  requireDdmsUri c.element c.version
  match c.entity with
  | none => throw missingEntity
  | some entity => c.requireSameVersion entity.base
  demand (c.pocTypes.isEmpty || c.version.atLeast .v4_0_1) pocTypeTooEarly
  if c.version.atLeast .v4_1 then
    ctx.checkTokens Vocabulary.Key.pocType c.version c.pocTypes
  else return []

/-- The warnings about the role; `remarks` are those about its kinds of contact. -/
def findings (c : ProducerRole) (remarks : List Finding) : List Finding :=
  c.absorb remarks ++ c.absorbAll (c.entity.map (·.base)).toList ++
    c.absorb c.security.warnings

/-- The role, if it keeps the rules, with the warnings about it. -/
def checked (ctx : Context) (c : ProducerRole) : Outcome ProducerRole := do
  let remarks ← c.check (c.rules ctx)
  return { c with warnings := c.findings remarks }

/-- Reads the entity that holds a role: the first child, if it is an entity. -/
def entityOf (ctx : Context) (v : Version) (e : Element) : Outcome (Option Producer) :=
  match e.children with
  | child :: _ =>
    if Entity.isElement child v then (Producer.ofElement ctx v child).map some else .ok none
  | [] => .ok none

/-- Reads a role. -/
def ofElement (ctx : Context) (v : Version) (e : Element) : Outcome ProducerRole := do
  match Kind.ofName? e.localName with
  | none => within e.writtenName (.error (.unexpectedName e.name.clark))
  | some kind =>
    let entity ← within e.writtenName (entityOf ctx v e)
    let security ← within e.writtenName (SecurityAttributes.ofElement ctx v e)
    checked ctx ⟨⟨e, v, []⟩, kind, entity, pocTypesOf v e, security⟩

/-- Puts the kinds of contact on the element of a role, if there are any. -/
def addPocTypes (ctx : Context) (v : Version) (pocTypes : List String) (e : Element) :
    Outcome Element :=
  if pocTypes.isEmpty then .ok e
  else do return e.setAttribute (← pocTypeName ctx v) (Text.unwords pocTypes)

/-- Makes a role. -/
def make (ctx : Context) (v : Version) (kind : Kind) (entity : Producer) (pocTypes : List String)
    (security : SecurityAttributes) : Outcome ProducerRole := do
  let e := (ctx.ddmsElement v kind.name).add [entity.base.element]
  let e ← within e.writtenName do security.addTo ctx v (← addPocTypes ctx v pocTypes e)
  checked ctx ⟨⟨e, v, []⟩, kind, some entity, pocTypes, security⟩

instance : Component ProducerRole where
  base c := c.toBase
  security? c := some c.security
  lines c stem index :=
    let name := c.lineName stem index ++ "."
    (c.entity.map (·.lines name)).getD [] ++
      Line.of (name ++ "pocType") (Text.unwords c.pocTypes) ++ c.security.lines name
  output html c stem index :=
    let name := c.lineName stem index ++ "."
    (c.entity.map (·.output html name)).getD "" ++
      Output.entry html (name ++ "pocType") (Text.unwords c.pocTypes) ++ c.security.output html name

/-- The contents of a role to be made; the entity type says which of the entities counts. -/
structure Draft where
  version : Option Version := none
  kind : Kind := .creator
  entityType : EntityType := .organization
  organization : Organization.Draft := {}
  person : Person.Draft := {}
  named : NamedEntity.Draft := {}
  pocTypes : List String := []
  security : SecurityAttributes.Draft := {}
  deriving BEq, Inhabited

namespace Draft

/-- The entity that counts is empty. -/
def entityIsEmpty (d : Draft) : Bool :=
  match d.entityType with
  | .organization => Buildable.isEmpty d.organization
  | .person => Buildable.isEmpty d.person
  | .service | .unknown => Buildable.isEmpty d.named

/-- Makes the entity that counts. -/
def commitEntity (ctx : Context) (v : Version) (d : Draft) : Outcome (Option Producer) := do
  match d.entityType with
  | .organization => return (← Buildable.commitAs ctx v d.organization).map .organization
  | .person => return (← Buildable.commitAs ctx v d.person).map .person
  | .service => return (← Buildable.commitAs ctx v { d.named with kind := .service }).map .named
  | .unknown => return (← Buildable.commitAs ctx v { d.named with kind := .unknown }).map .named

end Draft

instance : Buildable Draft ProducerRole where
  isEmpty d := d.entityIsEmpty && allBlank d.pocTypes && d.security.isEmpty
  version? d := d.version
  build ctx v d := do
    match ← d.commitEntity ctx v with
    | none => within (ctx.prefixes.ddms ++ ":" ++ d.kind.name) (.error missingEntity)
    | some entity =>
      make ctx v d.kind entity (dropBlank d.pocTypes) (← d.security.commitAs ctx v)

/-- The draft that leads to the component again. -/
def toDraft (c : ProducerRole) : Draft :=
  let d : Draft :=
    { version := some c.version, kind := c.kind, pocTypes := c.pocTypes
      security := c.security.toDraft }
  match c.entity with
  | none => d
  | some (.organization o) => { d with organization := o.toDraft }
  | some (.person p) => { d with entityType := .person, person := p.toDraft }
  | some (.named n) =>
    { d with
      entityType := match n.kind with
        | .service => .service
        | .unknown => .unknown
      named := n.toDraft }

end ProducerRole

end DiscoveryMetadata
