import DiscoveryMetadata.Entity
import DiscoveryMetadata.Management.ManagedText
/-
  The keeping of records about a resource.
-/
namespace DiscoveryMetadata

open Xml (Element)

/-- The organization that keeps the records. -/
structure RecordKeeper extends Base where
  recordKeeperId : String
  organization : Option Organization
  deriving BEq, Inhabited

namespace RecordKeeper

/-- A record keeper without organization. -/
def missingOrganization : Fault := .required "organization"

/-- The rules of a record keeper. -/
def rules (c : RecordKeeper) : Outcome Unit := do
  requireDdms c.element c.version "recordKeeper"
  requireValue "record keeper ID" c.recordKeeperId
  match c.organization with
  | none => throw missingOrganization
  | some o => c.requireSameVersion o.toBase
  requireVersion c.version .v4_0_1 "ddms:recordKeeper element"

/-- The warnings about the record keeper. -/
def findings (c : RecordKeeper) : List Finding :=
  c.absorbAll (c.organization.map (·.toBase)).toList

/-- The record keeper, if it keeps the rules, with the warnings about it. -/
def checked (c : RecordKeeper) : Outcome RecordKeeper := do
  c.check c.rules
  return { c with warnings := c.findings }

/-- Reads a record keeper. -/
def ofElement (ctx : Context) (v : Version) (e : Element) : Outcome RecordKeeper := do
  let organization ← within e.writtenName (readOption Organization.ofElement ctx v
    (e.child? v.ddmsUri (Entity.name v "organization")))
  checked ⟨⟨e, v, []⟩, e.ownText "recordKeeperID", organization⟩

/-- Makes a record keeper. -/
def make (ctx : Context) (v : Version) (recordKeeperId : String) (organization : Organization) :
    Outcome RecordKeeper :=
  let e := (ctx.ddmsElement v "recordKeeper").add
    (ctx.textElements v "recordKeeperID" recordKeeperId ++ [organization.element])
  checked ⟨⟨e, v, []⟩, recordKeeperId, some organization⟩

instance : Component RecordKeeper where
  base c := c.toBase
  security? _ := none
  lines c stem index :=
    let name := c.lineName stem index ++ "."
    Line.of (name ++ "recordKeeperID") c.recordKeeperId ++
      Component.linesOfOption c.organization name
  output html c stem index :=
    let name := c.lineName stem index ++ "."
    Output.entry html (name ++ "recordKeeperID") c.recordKeeperId ++
      Component.outputOfOption html c.organization name

/-- The contents of a record keeper to be made. -/
structure Draft where
  version : Option Version := none
  recordKeeperId : String := ""
  organization : Organization.Draft := {}
  deriving BEq, Inhabited

instance : Buildable Draft RecordKeeper where
  isEmpty d := Text.isBlank d.recordKeeperId && Buildable.isEmpty d.organization
  version? d := d.version
  build ctx v d := do
    match ← Buildable.commitAs ctx v d.organization with
    | none => within "ddms:recordKeeper" (.error missingOrganization)
    | some organization => make ctx v d.recordKeeperId organization

/-- The draft that leads to the component again. -/
def toDraft (c : RecordKeeper) : Draft :=
  ⟨some c.version, c.recordKeeperId, (c.organization.map (·.toDraft)).getD {}⟩

end RecordKeeper

/-- How the records about a resource are kept. -/
structure RecordsInfo extends Base where
  recordKeeper : Option RecordKeeper
  applicationSoftware : Option ManagedText
  vitalRecord : Bool
  deriving BEq, Inhabited

namespace RecordsInfo

/-- The parts of the information. -/
def parts (c : RecordsInfo) : List Base :=
  (c.recordKeeper.map (·.toBase)).toList ++ (c.applicationSoftware.map (·.toBase)).toList

/-- The rules of the information. -/
def rules (c : RecordsInfo) : Outcome Unit := do
  requireDdms c.element c.version "recordsManagementInfo"
  requireChildren c.element "recordKeeper" 0 1
  requireChildren c.element "applicationSoftware" 0 1
  c.requireSameVersions (c.recordKeeper.map (·.toBase)).toList
  demand (c.applicationSoftware.all (·.kind == .applicationSoftware))
    (.rule "The software must be a ddms:applicationSoftware element.")
  c.requireSameVersions (c.applicationSoftware.map (·.toBase)).toList
  requireVersion c.version .v4_0_1 "ddms:recordsManagementInfo element"

/-- The warnings about the information. -/
def findings (c : RecordsInfo) : List Finding :=
  c.absorbAll c.parts

/-- The information, if it keeps the rules, with the warnings about it. -/
def checked (c : RecordsInfo) : Outcome RecordsInfo := do
  c.check c.rules
  return { c with warnings := c.findings }

/-- Reads whether the resource is a vital record. -/
def vitalOf (text : String) : Outcome Bool :=
  match Text.truth? text with
  | some b => .ok b
  | none => .error (.notBoolean "vitalRecordIndicator")

/-- Reads the information. -/
def ofElement (ctx : Context) (v : Version) (e : Element) : Outcome RecordsInfo :=
  within e.writtenName (do
    let recordKeeper ← readOption RecordKeeper.ofElement ctx v (e.child? v.ddmsUri "recordKeeper")
    let software ← readOption ManagedText.ofElement ctx v
      (e.child? v.ddmsUri "applicationSoftware")
    let vital ← (e.attribute? (some v.ddmsUri) "vitalRecordIndicator").mapM vitalOf
    return ⟨⟨e, v, []⟩, recordKeeper, software, vital.getD false⟩) >>= checked

/-- Makes the information. -/
def make (ctx : Context) (v : Version) (recordKeeper : Option RecordKeeper)
    (applicationSoftware : Option ManagedText) (vitalRecord : Bool) : Outcome RecordsInfo :=
  let e := ((ctx.ddmsElement v "recordsManagementInfo").add
    ((recordKeeper.map (·.element)).toList ++ (applicationSoftware.map (·.element)).toList)).put
    (ctx.ddmsName v "vitalRecordIndicator") (Text.ofTruth vitalRecord)
  checked ⟨⟨e, v, []⟩, recordKeeper, applicationSoftware, vitalRecord⟩

instance : Component RecordsInfo where
  base c := c.toBase
  security? _ := none
  lines c stem index :=
    let name := c.lineName stem index ++ "."
    Component.linesOfOption c.recordKeeper name ++
      Component.linesOfOption c.applicationSoftware name ++
      [⟨name ++ "vitalRecordIndicator", Text.ofTruth c.vitalRecord⟩]
  output html c stem index :=
    let name := c.lineName stem index ++ "."
    Component.outputOfOption html c.recordKeeper name ++
      Component.outputOfOption html c.applicationSoftware name ++
      Output.always html (name ++ "vitalRecordIndicator") (Text.ofTruth c.vitalRecord)

/-- The contents of such information to be made. -/
structure Draft where
  version : Option Version := none
  recordKeeper : RecordKeeper.Draft := {}
  applicationSoftware : ManagedText.Draft := {}
  vitalRecord : Bool := false
  deriving BEq, Inhabited

instance : Buildable Draft RecordsInfo where
  isEmpty d :=
    Buildable.isEmpty d.recordKeeper && Buildable.isEmpty d.applicationSoftware && !d.vitalRecord
  version? d := d.version
  build ctx v d := do
    let keeper ← Buildable.commitAs ctx v d.recordKeeper
    let software ← Buildable.commitAs ctx v
      { d.applicationSoftware with kind := .applicationSoftware }
    make ctx v keeper software d.vitalRecord

/-- The draft that leads to the component again. -/
def toDraft (c : RecordsInfo) : Draft :=
  ⟨some c.version, (c.recordKeeper.map (·.toDraft)).getD {},
    (c.applicationSoftware.map (·.toDraft)).getD {}, c.vitalRecord⟩

end RecordsInfo

end DiscoveryMetadata
