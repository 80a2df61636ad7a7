import DiscoveryMetadata.Protection.AccessText
/-
  Who may have access by a need-to-know rule, since version 4.0.1: individuals, groups and
  profiles, each known to a system by some values.
-/
namespace DiscoveryMetadata

open Xml (Element)

namespace AccessEntity

/-- The kinds of those that may have access. -/
inductive Kind where
  | individual
  | group
  | profile
  deriving DecidableEq, Repr, Inhabited

namespace Kind

/-- All kinds. -/
def all : List Kind := [individual, group, profile]

/-- The local name of the element. -/
def name : Kind → String
  | individual => "AccessIndividual"
  | group => "AccessGroup"
  | profile => "AccessProfile"

/-- The kind of the values by which a system knows it. -/
def valueKind : Kind → AccessText.Kind
  | individual => .individualValue
  | group => .groupValue
  | profile => .profileValue

/-- The name in the lines for a reader. -/
def lineName : Kind → String
  | individual => "individual"
  | group => "group"
  | profile => "profile"

/-- The kind with this local name. -/
def ofName? (name : String) : Option Kind := all.find? (·.name = name)

end Kind

end AccessEntity

/-- An individual, a group or a profile. -/
structure AccessEntity extends Base where
  kind : AccessEntity.Kind
  systemName : Option AccessText
  values : List AccessText
  security : SecurityAttributes
  deriving BEq, Inhabited

namespace AccessEntity

/-- The parts of the entity. -/
def parts (c : AccessEntity) : List Base :=
  (c.systemName.map (·.toBase)).toList ++ c.values.map (·.toBase)

/-- Refuses a system name that does not fit into the entity. -/
def checkSystemName (c : AccessEntity) : Outcome Unit :=
  match c.systemName with
  | none => .error (.required "systemName")
  | some system => do
    demand (system.kind = .systemName)
      (.rule "The system name must be an ntk:AccessSystemName element.")
    c.requireSameVersion system.toBase

/-- Refuses a value that does not fit into the entity. -/
def checkValue (c : AccessEntity) (value : AccessText) : Outcome Unit := do
  demand (value.kind = c.kind.valueKind) (.rule
    s!"An ntk:{c.kind.name} element can only hold ntk:{c.kind.valueKind.name} values.")
  c.requireSameVersion value.toBase

/-- The rules of an entity. -/
def rules (c : AccessEntity) : Outcome Unit := do
  requireIn c.element c.version .ntk c.kind.name
  c.checkSystemName
  forbid c.values.isEmpty (.rule s!"At least one {c.kind.lineName} value is required.")
  c.values.forM c.checkValue
  c.security.requireClassification

/-- The warnings about the entity. -/
def findings (c : AccessEntity) : List Finding :=
  c.absorbAll c.parts ++ c.absorb c.security.warnings

/-- The entity, if it keeps the rules, with the warnings about it. -/
def checked (c : AccessEntity) : Outcome AccessEntity := do
  c.check c.rules
  return { c with warnings := c.findings }

/-- Reads an entity. -/
def ofElement (ctx : Context) (v : Version) (e : Element) : Outcome AccessEntity := do
  match Kind.ofName? e.localName with
  | none => within e.writtenName (.error (.unexpectedName e.name.clark))
  | some kind =>
    let uri ← within e.writtenName (Ntk.uriFor v kind.name)
    let systemName ← within e.writtenName (readOption AccessText.ofElement ctx v
      (e.child? uri AccessText.Kind.systemName.name))
    let values ← within e.writtenName (readAll AccessText.ofElement ctx v
      (e.childrenNamed uri kind.valueKind.name))
    let security ← within e.writtenName (SecurityAttributes.ofElement ctx v e)
    checked ⟨⟨e, v, []⟩, kind, systemName, values, security⟩

/-- Makes an entity. -/
def make (ctx : Context) (v : Version) (kind : Kind) (systemName : Option AccessText)
    (values : List AccessText) (security : SecurityAttributes) : Outcome AccessEntity := do
  let e := (← Ntk.element ctx v kind.name).add
    ((systemName.map (·.element)).toList ++ values.map (·.element))
  let e ← within e.writtenName (security.addTo ctx v e)
  checked ⟨⟨e, v, []⟩, kind, systemName, values, security⟩

instance : Component AccessEntity where
  base c := c.toBase
  security? c := some c.security
  lines c stem index :=
    let name := stem ++ c.kind.lineName ++ index ++ "."
    Component.linesOfOption c.systemName name ++ Component.linesOfAll c.values name ++
      c.security.lines name
  output html c stem index :=
    let name := stem ++ c.kind.lineName ++ index ++ "."
    Component.outputOfOption html c.systemName name ++ Component.outputOfAll html c.values name ++
      c.security.output html name

/-- The contents of an entity to be made. -/
structure Draft where
  version : Option Version := none
  kind : Kind := .individual
  systemName : AccessText.Draft := {}
  values : List AccessText.Draft := []
  security : SecurityAttributes.Draft := {}
  deriving BEq, Inhabited

instance : Buildable Draft AccessEntity where
  isEmpty d :=
    Buildable.isEmpty d.systemName && Buildable.allEmpty d.values && d.security.isEmpty
  version? d := d.version
  build ctx v d := do
    let systemName ← Buildable.commitAs ctx v { d.systemName with kind := .systemName }
    let values ← Buildable.commitAll ctx v
      (d.values.map fun t => { t with kind := d.kind.valueKind })
    make ctx v d.kind systemName values (← d.security.commitAs ctx v)

namespace Draft

/-- The drafts as drafts of one kind of entity. -/
def allOf (kind : Kind) (ds : List Draft) : List Draft := ds.map fun d => { d with kind }

end Draft

/-- The draft that leads to the component again. -/
def toDraft (c : AccessEntity) : Draft :=
  ⟨some c.version, c.kind, (c.systemName.map (·.toDraft)).getD {}, c.values.map (·.toDraft),
    c.security.toDraft⟩

end AccessEntity

end DiscoveryMetadata
