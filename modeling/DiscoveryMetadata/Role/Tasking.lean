import DiscoveryMetadata.Role.Producer
/-
  Roles in a tasking: who asked for a resource, and whom it is addressed to. Each role is held by
  an organization or a person, and exists since version 4.0.1.
-/
namespace DiscoveryMetadata

open Xml (Element)

/-- An entity in a tasking. -/
inductive TaskingEntity where
  | organization (o : Organization)
  | person (p : Person)
  deriving BEq, Inhabited

namespace TaskingEntity

/-- An entity of a kind that has no role in a tasking. -/
def unfit : Fault := .rule "The entity must be a person or an organization."

/-- What the entity has as a component. -/
def base : TaskingEntity → Base
  | organization o => o.toBase
  | person p => p.toBase

/-- The lines of the entity under a stem. -/
def lines (t : TaskingEntity) (stem : String) : List Line :=
  match t with
  | organization o => Component.lines o stem ""
  | person p => Component.lines p stem ""

/-- The output of the entity under a stem. -/
def output (html : Bool) (t : TaskingEntity) (stem : String) : String :=
  match t with
  | organization o => Component.output html o stem ""
  | person p => Component.output html p stem ""

/-- Reads an entity of the kind that its name says. -/
def ofElement (ctx : Context) (v : Version) (e : Element) : Outcome TaskingEntity :=
  if e.localName == Entity.name v "organization" then
    (Organization.ofElement ctx v e).map organization
  else if e.localName == Entity.name v "person" then (Person.ofElement ctx v e).map person
  else .error unfit

end TaskingEntity

namespace TaskingRole

/-- The roles in a tasking. -/
inductive Kind where
  | requesterInfo
  | addressee
  deriving DecidableEq, Repr, Inhabited

namespace Kind

/-- All kinds. -/
def all : List Kind := [requesterInfo, addressee]

/-- The local name of the element. -/
def name : Kind → String
  | requesterInfo => "requesterInfo"
  | addressee => "addressee"

/-- The kind with this local name. -/
def ofName? (name : String) : Option Kind := all.find? (·.name = name)

end Kind

end TaskingRole

/-- An entity in its role in a tasking. -/
structure TaskingRole extends Base where
  kind : TaskingRole.Kind
  entity : Option TaskingEntity
  security : SecurityAttributes
  deriving BEq, Inhabited

namespace TaskingRole

/-- No entity holds the role. -/
def missingEntity : Fault := .required "entity"

/-- The rules of a role in a tasking. -/
def rules (c : TaskingRole) : Outcome Unit := do
  requireDdmsUri c.element c.version
  match c.entity with
  | none => throw missingEntity
  | some entity => c.requireSameVersion entity.base
  c.security.requireClassification
  requireVersion c.version .v4_0_1 s!"ddms:{c.kind.name} element"

/-- The warnings about the role. -/
def findings (c : TaskingRole) : List Finding :=
  c.absorbAll (c.entity.map (·.base)).toList ++ c.absorb c.security.warnings

/-- The role, if it keeps the rules, with the warnings about it. -/
def checked (c : TaskingRole) : Outcome TaskingRole := do
  c.check c.rules
  return { c with warnings := c.findings }

/-- Reads the entity that holds a role: the first child, if it is an entity. -/
def entityOf (ctx : Context) (v : Version) (e : Element) : Outcome (Option TaskingEntity) :=
  match e.children with
  | child :: _ =>
    if Entity.isElement child v then (TaskingEntity.ofElement ctx v child).map some else .ok none
  | [] => .ok none

/-- Reads a role in a tasking. -/
def ofElement (ctx : Context) (v : Version) (e : Element) : Outcome TaskingRole := do
  match Kind.ofName? e.localName with
  | none => within e.writtenName (.error (.unexpectedName e.name.clark))
  | some kind =>
    let entity ← within e.writtenName (entityOf ctx v e)
    let security ← within e.writtenName (SecurityAttributes.ofElement ctx v e)
    checked ⟨⟨e, v, []⟩, kind, entity, security⟩

/-- Makes a role in a tasking. -/
def make (ctx : Context) (v : Version) (kind : Kind) (entity : TaskingEntity)
    (security : SecurityAttributes) : Outcome TaskingRole := do
  let e := (ctx.ddmsElement v kind.name).add [entity.base.element]
  let e ← within e.writtenName (security.addTo ctx v e)
  checked ⟨⟨e, v, []⟩, kind, some entity, security⟩

instance : Component TaskingRole where
  base c := c.toBase
  security? c := some c.security
  lines c stem index :=
    let name := c.lineName stem index ++ "."
    (c.entity.map (·.lines name)).getD [] ++ c.security.lines name
  output html c stem index :=
    let name := c.lineName stem index ++ "."
    (c.entity.map (·.output html name)).getD "" ++ c.security.output html name

/-- The contents of a role to be made; the entity type says which of the entities counts. -/
structure Draft where
  version : Option Version := none
  kind : Kind := .requesterInfo
  entityType : EntityType := .organization
  organization : Organization.Draft := {}
  person : Person.Draft := {}
  security : SecurityAttributes.Draft := {}
  deriving BEq, Inhabited

namespace Draft

/-- Makes the entity that counts. -/
def commitEntity (ctx : Context) (v : Version) (d : Draft) : Outcome (Option TaskingEntity) := do
  match d.entityType with
  | .organization => return (← Buildable.commitAs ctx v d.organization).map .organization
  | .person => return (← Buildable.commitAs ctx v d.person).map .person
  | .service | .unknown =>
    within (ctx.prefixes.ddms ++ ":" ++ d.kind.name) (.error TaskingEntity.unfit)

end Draft

instance : Buildable Draft TaskingRole where
  isEmpty d :=
    Buildable.isEmpty d.organization && Buildable.isEmpty d.person && d.security.isEmpty
  version? d := d.version
  build ctx v d := do
    match ← d.commitEntity ctx v with
    | none => within (ctx.prefixes.ddms ++ ":" ++ d.kind.name) (.error missingEntity)
    | some entity => make ctx v d.kind entity (← d.security.commitAs ctx v)

/-- The draft that leads to the component again. -/
def toDraft (c : TaskingRole) : Draft :=
  let d : Draft := { version := some c.version, kind := c.kind, security := c.security.toDraft }
  match c.entity with
  | none => d
  | some (.organization o) => { d with organization := o.toDraft }
  | some (.person p) => { d with entityType := .person, person := p.toDraft }

end TaskingRole

end DiscoveryMetadata
