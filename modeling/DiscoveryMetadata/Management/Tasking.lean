import DiscoveryMetadata.Marking
import DiscoveryMetadata.Record.Plain
import DiscoveryMetadata.Relation
import DiscoveryMetadata.Role.Tasking
/-
  The taskings that led to a resource.
-/
namespace DiscoveryMetadata

open Xml (Element QName)

/-- The identifier of a task in the system that assigned it. -/
structure TaskId extends Base where
  value : String
  taskingSystem : String
  network : String
  otherNetwork : String
  link : LinkAttributes
  deriving BEq, Inhabited

namespace TaskId

/-- The type of a link on a task identifier. -/
def linkType : String := "simple"

/-- A network, if given, is one of those that are known. -/
def checkNetwork (network : String) : Outcome Unit := ifPresent network Network.check

/-- The rules of a task identifier. -/
def rules (c : TaskId) : Outcome Unit := do
  requireDdms c.element c.version "taskID"
  requireValue "value" c.value
  demand (c.link.linkType.isEmpty || c.link.linkType == linkType)
    (LinkAttributes.wrongType linkType)
  checkNetwork c.network
  demand (!c.version.atLeast .v5_0 || c.otherNetwork.isEmpty)
    (.rule "The otherNetwork attribute cannot be used after DDMS 4.1.")
  requireVersion c.version .v4_0_1 "ddms:taskID element"

/-- The name of the attribute with the network; since version 5.0 it has a namespace. -/
def networkName (ctx : Context) (v : Version) : QName :=
  if v.atLeast .v5_0 then .prefixed ctx.prefixes.virt Version.virtUri "network"
  else .unqualified "network"

/-- Reads a task identifier. -/
def ofElement (_ : Context) (v : Version) (e : Element) : Outcome TaskId := do
  let link ← within e.writtenName (LinkAttributes.ofElement v e)
  let networkUri := if v.atLeast .v5_0 then some Version.virtUri else none
  let c : TaskId := ⟨⟨e, v, []⟩, e.content, e.own "taskingSystem",
    (e.attribute? networkUri "network").getD "", (e.attribute? none "otherNetwork").getD "", link⟩
  c.check c.rules
  return c

/-- Makes a task identifier. -/
def make (ctx : Context) (v : Version) (value taskingSystem network otherNetwork : String)
    (link : LinkAttributes) : Outcome TaskId :=
  let e := ((ctx.textElement v "taskID" value).put (ctx.ddmsName v "taskingSystem")
    taskingSystem).put (networkName ctx v) network
  ofElement ctx v (link.addTo ctx (e.put (.unqualified "otherNetwork") otherNetwork))

instance : Component TaskId where
  base c := c.toBase
  security? _ := none
  lines c stem index :=
    let name := c.lineName stem index
    Line.of name c.value ++ Line.of (name ++ ".taskingSystem") c.taskingSystem ++
      Line.of (name ++ ".network") c.network ++ Line.of (name ++ ".otherNetwork") c.otherNetwork ++
      c.link.lines (name ++ ".")
  output html c stem index :=
    let name := c.lineName stem index
    Output.entry html name c.value ++
      Output.entry html (name ++ ".taskingSystem") c.taskingSystem ++
      Output.entry html (name ++ ".network") c.network ++
      Output.entry html (name ++ ".otherNetwork") c.otherNetwork ++ c.link.output html (name ++ ".")

/-- The contents of a task identifier to be made. -/
structure Draft where
  version : Option Version := none
  value : String := ""
  taskingSystem : String := ""
  network : String := ""
  otherNetwork : String := ""
  href : String := ""
  role : String := ""
  title : String := ""
  arcrole : String := ""
  show_ : String := ""
  actuate : String := ""
  deriving BEq, Inhabited

namespace Draft

/-- No part of the link is given. -/
def linkIsEmpty (d : Draft) : Bool :=
  allBlank [d.href, d.role, d.title, d.arcrole, d.show_, d.actuate]

/-- Makes the link, unless no part of it is given. -/
def commitLink (v : Version) (d : Draft) : Outcome LinkAttributes :=
  if d.linkIsEmpty then .ok {}
  else LinkAttributes.simple v d.href d.role d.title d.arcrole d.show_ d.actuate

end Draft

instance : Buildable Draft TaskId where
  isEmpty d :=
    allBlank [d.value, d.taskingSystem, d.network, d.otherNetwork] && d.linkIsEmpty
  version? d := d.version
  build ctx v d := do
    make ctx v d.value d.taskingSystem d.network d.otherNetwork (← d.commitLink v)

/-- The draft that leads to the component again. -/
def toDraft (c : TaskId) : Draft :=
  ⟨some c.version, c.value, c.taskingSystem, c.network, c.otherNetwork, c.link.href, c.link.role,
    c.link.title, c.link.arcrole, c.link.show_, c.link.actuate⟩

end TaskId

/-- A tasking: who asked for it, whom it is addressed to, what it is about. -/
structure TaskingInfo extends Base where
  requesters : List TaskingRole
  addressees : List TaskingRole
  description : Option Caption
  taskId : Option TaskId
  security : SecurityAttributes
  deriving BEq, Inhabited

namespace TaskingInfo

/-- The parts of a tasking. -/
def parts (c : TaskingInfo) : List Base :=
  c.requesters.map (·.toBase) ++ c.addressees.map (·.toBase) ++
    (c.description.map (·.toBase)).toList ++ (c.taskId.map (·.toBase)).toList

/-- The rules of a tasking. -/
def rules (c : TaskingInfo) : Outcome Unit := do
  requireDdms c.element c.version "taskingInfo"
  requireChildren c.element "description" 0 1
  requireChildren c.element "taskID" 1 1
  c.requireSameVersions c.parts
  c.security.requireClassification
  requireVersion c.version .v4_0_1 "ddms:taskingInfo element"

/-- The warnings about the tasking. -/
def findings (c : TaskingInfo) : List Finding :=
  c.absorbAll c.parts ++ c.absorb c.security.warnings

/-- The tasking, if it keeps the rules, with the warnings about it. -/
def checked (c : TaskingInfo) : Outcome TaskingInfo := do
  c.check c.rules
  return { c with warnings := c.findings }

/-- Reads a tasking. -/
def ofElement (ctx : Context) (v : Version) (e : Element) : Outcome TaskingInfo :=
  let children := e.childrenNamed v.ddmsUri
  let child := e.child? v.ddmsUri
  let inside := fun {α : Type} (r : Outcome α) => within e.writtenName r
  do
    let requesters ← inside (readAll TaskingRole.ofElement ctx v (children "requesterInfo"))
    let addressees ← inside (readAll TaskingRole.ofElement ctx v (children "addressee"))
    let description ← inside (readOption Caption.ofElement ctx v (child "description"))
    let taskId ← inside (readOption TaskId.ofElement ctx v (child "taskID"))
    let security ← inside (SecurityAttributes.ofElement ctx v e)
    checked ⟨⟨e, v, []⟩, requesters, addressees, description, taskId, security⟩

/-- Makes a tasking. -/
def make (ctx : Context) (v : Version) (requesters addressees : List TaskingRole)
    (description : Option Caption) (taskId : TaskId) (security : SecurityAttributes) :
    Outcome TaskingInfo := do
  let e := (ctx.ddmsElement v "taskingInfo").add
    (requesters.map (·.element) ++ addressees.map (·.element) ++
      (description.map (·.element)).toList ++ [taskId.element])
  let e ← within e.writtenName (security.addTo ctx v e)
  checked ⟨⟨e, v, []⟩, requesters, addressees, description, some taskId, security⟩

instance : Component TaskingInfo where
  base c := c.toBase
  security? c := some c.security
  lines c stem index :=
    let name := c.lineName stem index ++ "."
    Component.linesOfAll c.requesters name ++ Component.linesOfAll c.addressees name ++
      Component.linesOfOption c.description name ++ Component.linesOfOption c.taskId name ++
      c.security.lines name
  output html c stem index :=
    let name := c.lineName stem index ++ "."
    Component.outputOfAll html c.requesters name ++ Component.outputOfAll html c.addressees name ++
      Component.outputOfOption html c.description name ++
      Component.outputOfOption html c.taskId name ++ c.security.output html name

/-- The contents of a tasking to be made. -/
structure Draft where
  version : Option Version := none
  requesters : List TaskingRole.Draft := []
  addressees : List TaskingRole.Draft := []
  description : Caption.Draft := {}
  taskId : TaskId.Draft := {}
  security : SecurityAttributes.Draft := {}
  deriving BEq, Inhabited

/-- A tasking needs the identifier of its task. -/
def missingTaskId : Fault := miscounted "ddms:taskID" 1 1

instance : Buildable Draft TaskingInfo where
  isEmpty d :=
    Buildable.allEmpty d.requesters && Buildable.allEmpty d.addressees &&
      Buildable.isEmpty d.description && Buildable.isEmpty d.taskId && d.security.isEmpty
  version? d := d.version
  build ctx v d := do
    let requesters ← Buildable.commitAll ctx v
      (d.requesters.map fun r => { r with kind := .requesterInfo })
    let addressees ← Buildable.commitAll ctx v
      (d.addressees.map fun r => { r with kind := .addressee })
    match ← Buildable.commitAs ctx v d.taskId with
    | none => within "ddms:taskingInfo" (.error missingTaskId)
    | some taskId =>
      let description ← Buildable.commitAs ctx v { d.description with kind := .description }
      make ctx v requesters addressees description taskId (← d.security.commitAs ctx v)

/-- The draft that leads to the component again. -/
def toDraft (c : TaskingInfo) : Draft :=
  { version := some c.version
    requesters := c.requesters.map (·.toDraft)
    addressees := c.addressees.map (·.toDraft)
    description := (c.description.map (·.toDraft)).getD { kind := .description }
    taskId := (c.taskId.map (·.toDraft)).getD {}
    security := c.security.toDraft }

end TaskingInfo

end DiscoveryMetadata
