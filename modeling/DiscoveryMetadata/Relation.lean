import DiscoveryMetadata.Attributes.Link
import DiscoveryMetadata.Component.Basic
/-
  Links to other resources, and the resources that a resource is related to. Before version 4.0.1
  the qualifier, the value and the links of a related resource stand in a wrapper, of which only the
  first counts.
-/
namespace DiscoveryMetadata

open Xml (Element)

/-- A link that leads to another resource. -/
structure Link extends Base where
  link : LinkAttributes
  security : SecurityAttributes
  deriving BEq, Inhabited

namespace LinkAttributes

/-- The type of a link is not the one that its element is fixed to. -/
def wrongType (fixed : String) : Fault :=
  .rule s!"The type attribute must have a fixed value of \"{fixed}\"."

end LinkAttributes

namespace Link

/-- The type of all links. -/
def fixedType : String := "locator"

/-- The rules of a link. -/
def rules (c : Link) : Outcome Unit := do
  requireDdms c.element c.version "link"
  requireValue "type attribute" c.link.linkType
  requireValue "href attribute" c.link.href
  demand (c.link.linkType == fixedType) (LinkAttributes.wrongType fixedType)

/-- The warnings about the link. -/
def findings (c : Link) : List Finding :=
  c.absorb c.security.warnings

/-- The link, if it keeps the rules, with the warnings about it. -/
def checked (c : Link) : Outcome Link := do
  c.check c.rules
  return { c with warnings := c.findings }

/-- Reads a link. -/
def ofElement (ctx : Context) (v : Version) (e : Element) : Outcome Link := do
  let link ← within e.writtenName (LinkAttributes.ofElement v e)
  let security ← within e.writtenName (SecurityAttributes.ofElement ctx v e)
  checked ⟨⟨e, v, []⟩, link, security⟩

/-- Makes a link. -/
def make (ctx : Context) (v : Version) (link : LinkAttributes) (security : SecurityAttributes) :
    Outcome Link := do
  let e := link.addTo ctx (ctx.ddmsElement v "link")
  let e ← within e.writtenName (security.addTo ctx v e)
  checked ⟨⟨e, v, []⟩, link, security⟩

instance : Component Link where
  base c := c.toBase
  security? c := some c.security
  lines c stem index :=
    let name := c.lineName stem index ++ "."
    c.link.lines name ++ c.security.lines name
  output html c stem index :=
    let name := c.lineName stem index ++ "."
    c.link.output html name ++ c.security.output html name

/-- The contents of a link to be made. -/
structure Draft where
  version : Option Version := none
  href : String := ""
  role : String := ""
  title : String := ""
  label : String := ""
  security : SecurityAttributes.Draft := {}
  deriving BEq, Inhabited

instance : Buildable Draft Link where
  isEmpty d := allBlank [d.href, d.role, d.title, d.label] && d.security.isEmpty
  version? d := d.version
  build ctx v d := do
    let link ← LinkAttributes.locator v d.href d.role d.title d.label
    make ctx v link (← d.security.commitAs ctx v)

/-- The draft that leads to the component again. -/
def toDraft (c : Link) : Draft :=
  ⟨some c.version, c.link.href, c.link.role, c.link.title, c.link.label, c.security.toDraft⟩

end Link

/-- A related resource, with the relationship and the links to it. -/
structure RelatedResource extends Base where
  relationship : String
  direction : String
  qualifier : String
  value : String
  links : List Link
  security : SecurityAttributes
  deriving BEq, Inhabited

namespace RelatedResource

/-- The wrapper of the content before version 4.0.1. -/
def wrapper : String := "RelatedResource"

/-- The local name of the element. -/
def name (v : Version) : String :=
  if v.atLeast .v4_0_1 then "relatedResource" else "relatedResources"

/-- The directions of a relationship. -/
def directions : List String := ["inbound", "outbound", "bidirectional"]

/-- Refuses a direction that is not known. -/
def checkDirection (direction : String) : Outcome Unit := do
  requireValue "relationship direction" direction
  demand (directions.contains direction) (.notOneOf "direction" directions)

/-- Refuses a link that does not fit into a related resource. -/
def checkLink (b : Base) (l : Link) : Outcome Unit := do
  b.requireSameVersion l.toBase
  demand l.security.isEmpty
    (.rule "Security attributes cannot be applied to links in a related resource.")

/-- The rules of a related resource. -/
def rules (c : RelatedResource) : Outcome Unit := do
  requireDdms c.element c.version (name c.version)
  requireValue "relationship attribute" c.relationship
  Uri.check c.relationship
  ifPresent c.direction checkDirection
  requireValue "qualifier attribute" c.qualifier
  requireValue "value attribute" c.value
  Uri.check c.qualifier
  forbid c.links.isEmpty (.rule "At least 1 link must exist.")
  c.links.forM (checkLink c.toBase)

/-- What is said of several wrappers. -/
def severalWrappers : String :=
  "A ddms:RelatedResources element contains more than 1 ddms:relatedResource. " ++
    "To ensure consistency between versions of DDMS, each ddms:RelatedResources element should " ++
    "contain only 1 ddms:RelatedResource. Only the first child is processed."

/-- The warnings about the related resource. -/
def findings (c : RelatedResource) : List Finding :=
  c.warnIf (!c.version.atLeast .v4_0_1 && 1 < (c.element.ownChildren wrapper).length)
    severalWrappers ++
  c.absorbAll (c.links.map (·.toBase)) ++ c.absorb c.security.warnings

/-- The related resource, if it keeps the rules, with the warnings about it. -/
def checked (c : RelatedResource) : Outcome RelatedResource := do
  c.check c.rules
  return { c with warnings := c.findings }

/-- Reads a related resource. -/
def ofElement (ctx : Context) (v : Version) (e : Element) : Outcome RelatedResource := do
  let holder := e.holder? v wrapper
  let links ← within e.writtenName <| match holder with
    | some h => withinHolder h wrapper (readAll Link.ofElement ctx v (h.ownChildren "link"))
    | none => .ok []
  let security ← within e.writtenName (SecurityAttributes.ofElement ctx v e)
  let text := fun name => (holder.map (·.own name)).getD ""
  checked ⟨⟨e, v, []⟩, e.own "relationship", e.own "direction", text "qualifier", text "value",
    links, security⟩

/-- Makes a related resource. -/
def make (ctx : Context) (v : Version) (links : List Link)
    (relationship direction qualifier value : String) (security : SecurityAttributes) :
    Outcome RelatedResource := do
  let outer := ((ctx.ddmsElement v (name v)).put (ctx.ddmsName v "relationship") relationship).put
    (ctx.ddmsName v "direction") direction
  let fill := fun (e : Element) =>
    ((e.put (ctx.ddmsName v "qualifier") qualifier).put (ctx.ddmsName v "value") value).add
      (links.map (·.element))
  let e := if v.atLeast .v4_0_1 then fill outer
    else outer.add [fill (ctx.ddmsElement v wrapper)]
  let e ← within e.writtenName (security.addTo ctx v e)
  checked ⟨⟨e, v, []⟩, relationship, direction, qualifier, value, links, security⟩

instance : Component RelatedResource where
  base c := c.toBase
  security? c := some c.security
  lines c stem index :=
    let name := c.lineName stem index ++ "." ++
      (if c.version.atLeast .v4_0_1 then "" else wrapper ++ ".")
    Line.of (name ++ "relationship") c.relationship ++ Line.of (name ++ "direction") c.direction ++
      Line.of (name ++ "qualifier") c.qualifier ++ Line.of (name ++ "value") c.value ++
      Component.linesOfAll c.links name ++ c.security.lines name
  output html c stem index :=
    let name := c.lineName stem index ++ "." ++
      (if c.version.atLeast .v4_0_1 then "" else wrapper ++ ".")
    Output.entry html (name ++ "relationship") c.relationship ++
      Output.entry html (name ++ "direction") c.direction ++
      Output.entry html (name ++ "qualifier") c.qualifier ++
      Output.entry html (name ++ "value") c.value ++ Component.outputOfAll html c.links name ++
      c.security.output html name

/-- The contents of a related resource to be made. -/
structure Draft where
  version : Option Version := none
  relationship : String := ""
  direction : String := ""
  qualifier : String := ""
  value : String := ""
  links : List Link.Draft := []
  security : SecurityAttributes.Draft := {}
  deriving BEq, Inhabited

instance : Buildable Draft RelatedResource where
  isEmpty d :=
    allBlank [d.relationship, d.direction, d.qualifier, d.value] && Buildable.allEmpty d.links &&
      d.security.isEmpty
  version? d := d.version
  build ctx v d := do
    let links ← Buildable.commitAll ctx v d.links
    make ctx v links d.relationship d.direction d.qualifier d.value (← d.security.commitAs ctx v)

/-- The draft that leads to the component again. -/
def toDraft (c : RelatedResource) : Draft :=
  ⟨some c.version, c.relationship, c.direction, c.qualifier, c.value, c.links.map (·.toDraft),
    c.security.toDraft⟩

end RelatedResource

end DiscoveryMetadata
