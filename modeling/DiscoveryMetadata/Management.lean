import DiscoveryMetadata.Management.Processing
import DiscoveryMetadata.Management.Records
import DiscoveryMetadata.Management.Revision
/-
  The management of a resource over its life, since version 4.0.1.
-/
namespace DiscoveryMetadata

open Xml (Element)

/-- Records, revision, taskings and processing of a resource. -/
structure Management extends Base where
  recordsInfo : Option RecordsInfo
  revisionRecall : Option RevisionRecall
  taskingInfos : List TaskingInfo
  processingInfos : List ProcessingInfo
  security : SecurityAttributes
  deriving BEq, Inhabited

namespace Management

/-- The parts of the management. -/
def parts (c : Management) : List Base :=
  (c.recordsInfo.map (·.toBase)).toList ++ (c.revisionRecall.map (·.toBase)).toList ++
    c.taskingInfos.map (·.toBase) ++ c.processingInfos.map (·.toBase)

/-- The rules of the management. -/
def rules (c : Management) : Outcome Unit := do
  requireDdms c.element c.version "resourceManagement"
  requireChildren c.element "recordsManagementInfo" 0 1
  requireChildren c.element "revisionRecall" 0 1
  c.requireSameVersions c.parts
  requireVersion c.version .v4_0_1 "ddms:resourceManagement element"

/-- The warnings about the management. -/
def findings (c : Management) : List Finding :=
  c.absorbAll c.parts ++ c.absorb c.security.warnings

/-- The management, if it keeps the rules, with the warnings about it. -/
def checked (c : Management) : Outcome Management := do
  c.check c.rules
  return { c with warnings := c.findings }

/-- Reads the management. -/
def ofElement (ctx : Context) (v : Version) (e : Element) : Outcome Management :=
  let children := e.childrenNamed v.ddmsUri
  let child := e.child? v.ddmsUri
  within e.writtenName (do
    let records ← readOption RecordsInfo.ofElement ctx v (child "recordsManagementInfo")
    let revision ← readOption RevisionRecall.ofElement ctx v (child "revisionRecall")
    let taskings ← readAll TaskingInfo.ofElement ctx v (children "taskingInfo")
    let processings ← readAll ProcessingInfo.ofElement ctx v (children "processingInfo")
    let security ← SecurityAttributes.ofElement ctx v e
    return ⟨⟨e, v, []⟩, records, revision, taskings, processings, security⟩) >>= checked

/-- Makes the management. -/
def make (ctx : Context) (v : Version) (recordsInfo : Option RecordsInfo)
    (revisionRecall : Option RevisionRecall) (taskingInfos : List TaskingInfo)
    (processingInfos : List ProcessingInfo) (security : SecurityAttributes) :
    Outcome Management := do
  let e := (ctx.ddmsElement v "resourceManagement").add
    ((recordsInfo.map (·.element)).toList ++ (revisionRecall.map (·.element)).toList ++
      taskingInfos.map (·.element) ++ processingInfos.map (·.element))
  let e ← within e.writtenName (security.addTo ctx v e)
  checked ⟨⟨e, v, []⟩, recordsInfo, revisionRecall, taskingInfos, processingInfos, security⟩

instance : Component Management where
  base c := c.toBase
  security? c := some c.security
  lines c stem index :=
    let name := c.lineName stem index ++ "."
    Component.linesOfOption c.recordsInfo name ++ Component.linesOfOption c.revisionRecall name ++
      Component.linesOfAll c.taskingInfos name ++ Component.linesOfAll c.processingInfos name ++
      c.security.lines name
  output html c stem index :=
    let name := c.lineName stem index ++ "."
    Component.outputOfOption html c.recordsInfo name ++
      Component.outputOfOption html c.revisionRecall name ++
      Component.outputOfAll html c.taskingInfos name ++
      Component.outputOfAll html c.processingInfos name ++ c.security.output html name

/-- The contents of a management to be made. -/
structure Draft where
  version : Option Version := none
  recordsInfo : RecordsInfo.Draft := {}
  revisionRecall : RevisionRecall.Draft := {}
  taskingInfos : List TaskingInfo.Draft := []
  processingInfos : List ProcessingInfo.Draft := []
  security : SecurityAttributes.Draft := {}
  deriving BEq, Inhabited

instance : Buildable Draft Management where
  isEmpty d :=
    Buildable.isEmpty d.recordsInfo && Buildable.isEmpty d.revisionRecall &&
      Buildable.allEmpty d.taskingInfos && Buildable.allEmpty d.processingInfos &&
      d.security.isEmpty
  version? d := d.version
  build ctx v d := do
    let records ← Buildable.commitAs ctx v d.recordsInfo
    let revision ← Buildable.commitAs ctx v d.revisionRecall
    let taskings ← Buildable.commitAll ctx v d.taskingInfos
    let processings ← Buildable.commitAll ctx v d.processingInfos
    make ctx v records revision taskings processings (← d.security.commitAs ctx v)

/-- The draft that leads to the component again. -/
def toDraft (c : Management) : Draft :=
  { version := some c.version
    recordsInfo := (c.recordsInfo.map (·.toDraft)).getD {}
    revisionRecall := (c.revisionRecall.map (·.toDraft)).getD {}
    taskingInfos := c.taskingInfos.map (·.toDraft)
    processingInfos := c.processingInfos.map (·.toDraft)
    security := c.security.toDraft }

end Management

end DiscoveryMetadata
