import DiscoveryMetadata.Protection.AccessEntity
/-
  The need-to-know rules of a resource, since version 4.0.1: the individuals and groups that may
  have access, each kind in a list of its own, and the list of profiles.
-/
namespace DiscoveryMetadata

open Xml (Element)

/-- The profiles that may have access. -/
structure ProfileList extends Base where
  profiles : List AccessEntity
  security : SecurityAttributes
  deriving BEq, Inhabited

namespace ProfileList

/-- The local name of the element. -/
def name : String := "AccessProfileList"

/-- Refuses an entity that does not fit into the list. -/
def checkProfile (b : Base) (profile : AccessEntity) : Outcome Unit := do
  demand (profile.kind = .profile)
    (.rule "An ntk:AccessProfileList can only hold ntk:AccessProfile elements.")
  b.requireSameVersion profile.toBase

/-- The rules of a list. -/
def rules (c : ProfileList) : Outcome Unit := do
  requireIn c.element c.version .ntk name
  forbid c.profiles.isEmpty (.rule "At least one profile is required.")
  c.profiles.forM (checkProfile c.toBase)
  c.security.requireClassification

/-- The warnings about the list. -/
def findings (c : ProfileList) : List Finding :=
  c.absorbAll (c.profiles.map (·.toBase)) ++ c.absorb c.security.warnings

/-- The list, if it keeps the rules, with the warnings about it. -/
def checked (c : ProfileList) : Outcome ProfileList := do
  c.check c.rules
  return { c with warnings := c.findings }

/-- Reads a list. -/
def ofElement (ctx : Context) (v : Version) (e : Element) : Outcome ProfileList := do
  let uri ← within e.writtenName (Ntk.uriFor v name)
  let profiles ← within e.writtenName (readAll AccessEntity.ofElement ctx v
    (e.childrenNamed uri AccessEntity.Kind.profile.name))
  let security ← within e.writtenName (SecurityAttributes.ofElement ctx v e)
  checked ⟨⟨e, v, []⟩, profiles, security⟩

/-- Makes a list. -/
def make (ctx : Context) (v : Version) (profiles : List AccessEntity)
    (security : SecurityAttributes) : Outcome ProfileList := do
  let e := (← Ntk.element ctx v name).add (profiles.map (·.element))
  let e ← within e.writtenName (security.addTo ctx v e)
  checked ⟨⟨e, v, []⟩, profiles, security⟩

instance : Component ProfileList where
  base c := c.toBase
  security? c := some c.security
  lines c stem index :=
    let name := stem ++ "profileList" ++ index ++ "."
    Component.linesOfAll c.profiles name ++ c.security.lines name
  output html c stem index :=
    let name := stem ++ "profileList" ++ index ++ "."
    Component.outputOfAll html c.profiles name ++ c.security.output html name

/-- The contents of a list to be made. -/
structure Draft where
  version : Option Version := none
  profiles : List AccessEntity.Draft := []
  security : SecurityAttributes.Draft := {}
  deriving BEq, Inhabited

instance : Buildable Draft ProfileList where
  isEmpty d := Buildable.allEmpty d.profiles && d.security.isEmpty
  version? d := d.version
  build ctx v d := do
    let profiles ← Buildable.commitAll ctx v (AccessEntity.Draft.allOf .profile d.profiles)
    make ctx v profiles (← d.security.commitAs ctx v)

/-- The draft that leads to the component again. -/
def toDraft (c : ProfileList) : Draft :=
  ⟨some c.version, c.profiles.map (·.toDraft), c.security.toDraft⟩

end ProfileList

/-- The need-to-know rules of a resource. -/
structure Access extends Base where
  individuals : List AccessEntity
  groups : List AccessEntity
  profileList : Option ProfileList
  security : SecurityAttributes
  deriving BEq, Inhabited

namespace Access

/-- The local name of the element. -/
def name : String := "Access"

/-- The local name of the list of individuals. -/
def individualList : String := "AccessIndividualList"

/-- The local name of the list of groups. -/
def groupList : String := "AccessGroupList"

/-- The parts of the rules. -/
def parts (c : Access) : List Base :=
  c.individuals.map (·.toBase) ++ c.groups.map (·.toBase) ++
    (c.profileList.map (·.toBase)).toList

/-- Refuses an entity that does not belong into the list of a kind. -/
def checkEntry (b : Base) (kind : AccessEntity.Kind) (entity : AccessEntity) : Outcome Unit := do
  demand (entity.kind = kind) (.rule s!"Only ntk:{kind.name} elements can be listed here.")
  b.requireSameVersion entity.toBase

/-- The rules about need-to-know rules. -/
def rules (c : Access) : Outcome Unit := do
  requireIn c.element c.version .ntk name
  c.individuals.forM (checkEntry c.toBase .individual)
  c.groups.forM (checkEntry c.toBase .group)
  c.requireSameVersions (c.profileList.map (·.toBase)).toList
  c.security.requireClassification

/-- The warnings about the need-to-know rules. -/
def findings (c : Access) : List Finding :=
  c.warnIf c.parts.isEmpty
    "An ntk:Access element was found with no individual, group, or profile information." ++
  c.absorbAll c.parts ++ c.absorb c.security.warnings

/-- The need-to-know rules, if they are well formed, with the warnings about them. -/
def checked (c : Access) : Outcome Access := do
  c.check c.rules
  return { c with warnings := c.findings }

/-- Reads the entries of a list, whatever their names; the list may be absent. -/
def entriesOf (ctx : Context) (v : Version) (list : Option Element) :
    Outcome (List AccessEntity) :=
  match list with
  | some list => within list.writtenName (readAll AccessEntity.ofElement ctx v list.children)
  | none => .ok []

/-- Reads need-to-know rules. -/
def ofElement (ctx : Context) (v : Version) (e : Element) : Outcome Access := do
  let uri ← within e.writtenName (Ntk.uriFor v name)
  let individuals ← within e.writtenName (entriesOf ctx v (e.child? uri individualList))
  let groups ← within e.writtenName (entriesOf ctx v (e.child? uri groupList))
  let profileList ← within e.writtenName
    (readOption ProfileList.ofElement ctx v (e.child? uri ProfileList.name))
  let security ← within e.writtenName (SecurityAttributes.ofElement ctx v e)
  checked ⟨⟨e, v, []⟩, individuals, groups, profileList, security⟩

/-- The list of some entities, unless there are none. -/
def listOf (ctx : Context) (v : Version) (listName : String) (entries : List AccessEntity) :
    Outcome (List Element) :=
  if entries.isEmpty then .ok []
  else do return [(← ctx.elementIn v .ntk listName).add (entries.map (·.element))]

/-- Makes need-to-know rules. -/
def make (ctx : Context) (v : Version) (individuals groups : List AccessEntity)
    (profileList : Option ProfileList) (security : SecurityAttributes) : Outcome Access := do
  let e ← Ntk.element ctx v name
  let inner ← listOf ctx v individualList individuals
  let outer ← listOf ctx v groupList groups
  let e := e.add (inner ++ outer ++ (profileList.map (·.element)).toList)
  let e ← within e.writtenName (security.addTo ctx v e)
  checked ⟨⟨e, v, []⟩, individuals, groups, profileList, security⟩

instance : Component Access where
  base c := c.toBase
  security? c := some c.security
  lines c stem index :=
    let name := stem ++ "access" ++ index ++ "."
    Component.linesOfAll c.individuals (name ++ "individualList.") ++
      Component.linesOfAll c.groups (name ++ "groupList.") ++
      Component.linesOfOption c.profileList name ++ c.security.lines name
  output html c stem index :=
    let name := stem ++ "access" ++ index ++ "."
    Component.outputOfAll html c.individuals (name ++ "individualList.") ++
      Component.outputOfAll html c.groups (name ++ "groupList.") ++
      Component.outputOfOption html c.profileList name ++ c.security.output html name

/-- The contents of need-to-know rules to be made. -/
structure Draft where
  version : Option Version := none
  individuals : List AccessEntity.Draft := []
  groups : List AccessEntity.Draft := []
  profileList : ProfileList.Draft := {}
  security : SecurityAttributes.Draft := {}
  deriving BEq, Inhabited

instance : Buildable Draft Access where
  isEmpty d :=
    Buildable.allEmpty d.individuals && Buildable.allEmpty d.groups &&
      Buildable.isEmpty d.profileList && d.security.isEmpty
  version? d := d.version
  build ctx v d := do
    let individuals ← Buildable.commitAll ctx v (AccessEntity.Draft.allOf .individual d.individuals)
    let groups ← Buildable.commitAll ctx v (AccessEntity.Draft.allOf .group d.groups)
    let profileList ← Buildable.commitAs ctx v d.profileList
    make ctx v individuals groups profileList (← d.security.commitAs ctx v)

/-- The draft that leads to the component again. -/
def toDraft (c : Access) : Draft :=
  ⟨some c.version, c.individuals.map (·.toDraft), c.groups.map (·.toDraft),
    (c.profileList.map (·.toDraft)).getD {}, c.security.toDraft⟩

end Access

end DiscoveryMetadata
