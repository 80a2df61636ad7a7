import DiscoveryMetadata.Management.ManagedText
import DiscoveryMetadata.Management.Tasking
import DiscoveryMetadata.Relation
/-
  Revisions and recalls of a resource. Such a record holds either a text or links and details.
-/
namespace DiscoveryMetadata

open Xml (Element QName)

/-- A revision or recall. -/
structure RevisionRecall extends Base where
  value : String
  revisionId : Option Int
  revisionType : String
  network : String
  otherNetwork : String
  links : List Link
  details : List ManagedText
  link : LinkAttributes
  security : SecurityAttributes
  deriving BEq, Inhabited

namespace RevisionRecall

/-- The types of revisions and recalls. -/
def types : List String :=
  ["ADMINISTRATIVE RECALL", "ADMINISTRATIVE REVISION", "SUBSTANTIVE RECALL",
   "SUBSTANTIVE REVISION"]

/-- The type of a link on such a record. -/
def linkType : String := "resource"

/-- A record without a number. -/
def missingId : Fault := .required "revision ID"

/-- The record holds links or details. -/
def hasNested (c : RevisionRecall) : Bool := !c.links.isEmpty || !c.details.isEmpty

/-- The parts of the record. -/
def parts (c : RevisionRecall) : List Base :=
  c.links.map (·.toBase) ++ c.details.map (·.toBase)

/-- Refuses a link that does not fit into such a record. -/
def checkLink (b : Base) (l : Link) : Outcome Unit := do
  b.requireSameVersion l.toBase
  l.security.requireClassification

/-- The rules of such a record. -/
def rules (c : RevisionRecall) : Outcome Unit := do
  requireDdms c.element c.version "revisionRecall"
  forbid (!Text.isBlank c.value && c.hasNested) (.rule
    "A ddms:revisionRecall element cannot have both child text and nested elements.")
  c.links.forM (checkLink c.toBase)
  c.requireSameVersions (c.details.map (·.toBase))
  demand c.revisionId.isSome missingId
  demand (types.contains c.revisionType) (.notOneOf "revisionType" types)
  demand (c.link.linkType.isEmpty || c.link.linkType == linkType)
    (LinkAttributes.wrongType linkType)
  TaskId.checkNetwork c.network
  c.security.requireClassification
  requireVersion c.version .v4_0_1 "ddms:revisionRecall element"

/-- The warnings about the record. -/
def findings (c : RevisionRecall) : List Finding :=
  c.absorbAll c.parts ++ c.absorb c.security.warnings

/-- The record, if it keeps the rules, with the warnings about it. -/
def checked (c : RevisionRecall) : Outcome RevisionRecall := do
  c.check c.rules
  return { c with warnings := c.findings }

/-- Reads the number of a record. -/
def idOf (text : String) : Outcome Int :=
  match Text.int64? (Text.trim text) with
  | some n => .ok n
  | none => .error (.rule s!"The revisionID must be an integer: {text}")

/-- Reads such a record. -/
def ofElement (ctx : Context) (v : Version) (e : Element) : Outcome RevisionRecall :=
  let children := e.childrenNamed v.ddmsUri
  let inside := fun {α : Type} (r : Outcome α) => within e.writtenName r
  do
    let links ← inside (readAll Link.ofElement ctx v (children "link"))
    let details ← inside (readAll ManagedText.ofElement ctx v (children "details"))
    let revisionId ← inside ((e.attribute? (some v.ddmsUri) "revisionID").mapM idOf)
    let link ← inside (LinkAttributes.ofElement v e)
    let security ← inside (SecurityAttributes.ofElement ctx v e)
    checked ⟨⟨e, v, []⟩, e.content, revisionId, e.own "revisionType",
      (e.attribute? none "network").getD "", (e.attribute? none "otherNetwork").getD "", links,
      details, link, security⟩

/-- Makes such a record. -/
def make (ctx : Context) (v : Version) (value : String) (links : List Link)
    (details : List ManagedText) (revisionId : Int) (revisionType network otherNetwork : String)
    (link : LinkAttributes) (security : SecurityAttributes) : Outcome RevisionRecall := do
  let e := (ctx.textElement v "revisionRecall" value).add
    (links.map (·.element) ++ details.map (·.element))
  let e := ((e.put (ctx.ddmsName v "revisionID") (toString revisionId)).put
    (ctx.ddmsName v "revisionType") revisionType)
  let e := (e.put (.unqualified "network") network).put (.unqualified "otherNetwork") otherNetwork
  let e ← within e.writtenName (security.addTo ctx v (link.addTo ctx e))
  checked ⟨⟨e, v, []⟩, value, some revisionId, revisionType, network, otherNetwork, links, details,
    link, security⟩

instance : Component RevisionRecall where
  base c := c.toBase
  security? c := some c.security
  lines c stem index :=
    let name := c.lineName stem index
    (if c.hasNested then [] else Line.of name c.value) ++
      (c.revisionId.map fun n => Line.of (name ++ ".revisionID") (toString n)).getD [] ++
      Line.of (name ++ ".revisionType") c.revisionType ++
      Line.of (name ++ ".network") c.network ++ Line.of (name ++ ".otherNetwork") c.otherNetwork ++
      Component.linesOfAll c.links (name ++ ".") ++ Component.linesOfAll c.details (name ++ ".") ++
      c.link.lines (name ++ ".") ++ c.security.lines (name ++ ".")
  output html c stem index :=
    let name := c.lineName stem index
    (if c.hasNested then "" else Output.entry html name c.value) ++
      (c.revisionId.map fun n => Output.entry html (name ++ ".revisionID") (toString n)).getD "" ++
      Output.entry html (name ++ ".revisionType") c.revisionType ++
      Output.entry html (name ++ ".network") c.network ++
      Output.entry html (name ++ ".otherNetwork") c.otherNetwork ++
      Component.outputOfAll html c.links (name ++ ".") ++
      Component.outputOfAll html c.details (name ++ ".") ++ c.link.output html (name ++ ".") ++
      c.security.output html (name ++ ".")

/-- The contents of such a record to be made. -/
structure Draft where
  version : Option Version := none
  value : String := ""
  revisionId : Option Int := none
  revisionType : String := ""
  network : String := ""
  otherNetwork : String := ""
  links : List Link.Draft := []
  details : List ManagedText.Draft := []
  role : String := ""
  title : String := ""
  label : String := ""
  security : SecurityAttributes.Draft := {}
  deriving BEq, Inhabited

namespace Draft

/-- No part of the link is given. -/
def linkIsEmpty (d : Draft) : Bool := allBlank [d.role, d.title, d.label]

/-- Makes the link, unless no part of it is given. -/
def commitLink (v : Version) (d : Draft) : Outcome LinkAttributes :=
  if d.linkIsEmpty then .ok {} else LinkAttributes.resource v d.role d.title d.label

end Draft

instance : Buildable Draft RevisionRecall where
  isEmpty d :=
    allBlank [d.value, d.revisionType, d.network, d.otherNetwork] && d.revisionId.isNone &&
      Buildable.allEmpty d.links && Buildable.allEmpty d.details && d.linkIsEmpty &&
      d.security.isEmpty
  version? d := d.version
  build ctx v d := do
    match d.revisionId with
    | none => within "ddms:revisionRecall" (.error missingId)
    | some revisionId =>
      let link ← d.commitLink v
      let security ← d.security.commitAs ctx v
      let links ← Buildable.commitAll ctx v d.links
      let details ← Buildable.commitAll ctx v (d.details.map fun t => { t with kind := .details })
      let value := if links.isEmpty && details.isEmpty then d.value else ""
      make ctx v value links details revisionId d.revisionType d.network d.otherNetwork link
        security

/-- The draft that leads to the component again. -/
def toDraft (c : RevisionRecall) : Draft :=
  { version := some c.version
    value := c.value
    revisionId := c.revisionId
    revisionType := c.revisionType
    network := c.network
    otherNetwork := c.otherNetwork
    links := c.links.map (·.toDraft)
    details := c.details.map (·.toDraft)
    role := c.link.role
    title := c.link.title
    label := c.link.label
    security := c.security.toDraft }

end RevisionRecall

end DiscoveryMetadata
