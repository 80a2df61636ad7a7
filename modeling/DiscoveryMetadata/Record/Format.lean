import DiscoveryMetadata.Component.Basic
import DiscoveryMetadata.Uri
/-
  The format of a resource and its extent. Before version 4.0.1 the content of a format stands in
  a wrapper.
-/
namespace DiscoveryMetadata

open Xml (Element)

/-- How large a resource is, in the unit that the qualifier names. -/
structure Extent extends Base where
  qualifier : String
  value : String
  deriving BEq, Inhabited

namespace Extent

/-- The rules of an extent: a value needs a qualifier, which is a reference. -/
def rules (c : Extent) : Outcome Unit := do
  requireDdms c.element c.version "extent"
  ifPresent c.value fun _ => requireValue "qualifier attribute" c.qualifier
  ifPresent c.qualifier Uri.check

/-- The warnings about the extent. -/
def findings (c : Extent) : List Finding :=
  c.warnIf (!c.qualifier.isEmpty && c.value.isEmpty)
    "A qualifier has been set without an accompanying value attribute." ++
  c.warnIf (c.qualifier.isEmpty && c.value.isEmpty)
    "A completely empty ddms:extent element was found."

/-- The extent, if it keeps the rules, with the warnings about it. -/
def checked (c : Extent) : Outcome Extent := do
  c.check c.rules
  return { c with warnings := c.findings }

/-- Reads an extent. -/
def ofElement (_ : Context) (v : Version) (e : Element) : Outcome Extent :=
  checked ⟨⟨e, v, []⟩, e.own "qualifier", e.own "value"⟩

/-- Makes an extent. -/
def make (ctx : Context) (v : Version) (qualifier value : String) : Outcome Extent :=
  ofElement ctx v (((ctx.ddmsElement v "extent").put (ctx.ddmsName v "qualifier") qualifier).put
    (ctx.ddmsName v "value") value)

instance : Component Extent where
  base c := c.toBase
  security? _ := none
  lines c stem index :=
    let name := c.lineName stem index ++ "."
    Line.of (name ++ "qualifier") c.qualifier ++ Line.of (name ++ "value") c.value
  output html c stem index :=
    let name := c.lineName stem index ++ "."
    Output.entry html (name ++ "qualifier") c.qualifier ++
      Output.entry html (name ++ "value") c.value

/-- The contents of an extent to be made. -/
structure Draft where
  version : Option Version := none
  qualifier : String := ""
  value : String := ""
  deriving BEq, Inhabited

instance : Buildable Draft Extent where
  isEmpty d := allBlank [d.qualifier, d.value]
  version? d := d.version
  build ctx v d := make ctx v d.qualifier d.value

/-- The draft that leads to the component again. -/
def toDraft (c : Extent) : Draft := ⟨some c.version, c.qualifier, c.value⟩

end Extent

/-- The format of a resource. -/
structure Format extends Base where
  mimeType : String
  extent : Option Extent
  medium : String
  deriving BEq, Inhabited

namespace Format

/-- The wrapper of the content before version 4.0.1. -/
def wrapper : String := "Media"

/-- The element that holds the content, or the element itself if that is missing. -/
def holder (c : Base) : Element := (c.element.holder? c.version wrapper).getD c.element

/-- The rules of a format. -/
def rules (c : Format) : Outcome Unit := do
  requireDdms c.element c.version "format"
  match c.element.holder? c.version wrapper with
  | none => throw (.rule "Media element is required.")
  | some media =>
    requireValue "mimeType" c.mimeType
    requireChildren media "mimeType" 1 1
    requireChildren media "extent" 0 1
    requireChildren media "medium" 0 1
    c.requireSameVersions (c.extent.map (·.toBase)).toList

/-- The warnings about the format. -/
def findings (c : Format) : List Finding :=
  c.warnIf (c.medium.isEmpty && ((holder c.toBase).ownChildren "medium").length == 1)
    "A ddms:medium element was found with no value." ++
  c.absorbAll (c.extent.map (·.toBase)).toList

/-- The format, if it keeps the rules, with the warnings about it. -/
def checked (c : Format) : Outcome Format := do
  c.check c.rules
  return { c with warnings := c.findings }

/-- Reads a format. -/
def ofElement (ctx : Context) (v : Version) (e : Element) : Outcome Format := do
  let media := holder ⟨e, v, []⟩
  let extent ← within e.writtenName (withinHolder media wrapper
    (readOption Extent.ofElement ctx v (media.ownChild? "extent")))
  checked ⟨⟨e, v, []⟩, media.ownText "mimeType", extent, media.ownText "medium"⟩

/-- Makes a format. -/
def make (ctx : Context) (v : Version) (mimeType : String) (extent : Option Extent)
    (medium : String) : Outcome Format :=
  let e := ctx.addWrapped v wrapper
    (ctx.textElements v "mimeType" mimeType ++ (extent.map (·.element)).toList ++
      ctx.textElements v "medium" medium) (ctx.ddmsElement v "format")
  checked ⟨⟨e, v, []⟩, mimeType, extent, medium⟩

instance : Component Format where
  base c := c.toBase
  security? _ := none
  lines c stem index :=
    let name := c.lineName stem index ++ "."
    Line.of (name ++ "mimeType") c.mimeType ++ Component.linesOfOption c.extent name ++
      Line.of (name ++ "medium") c.medium
  output html c stem index :=
    let name := c.lineName stem index ++ "."
    Output.entry html (name ++ "mimeType") c.mimeType ++
      Component.outputOfOption html c.extent name ++ Output.entry html (name ++ "medium") c.medium

/-- The contents of a format to be made. -/
structure Draft where
  version : Option Version := none
  mimeType : String := ""
  extent : Extent.Draft := {}
  medium : String := ""
  deriving BEq, Inhabited

instance : Buildable Draft Format where
  isEmpty d := allBlank [d.mimeType, d.medium] && Buildable.isEmpty d.extent
  version? d := d.version
  build ctx v d := do
    make ctx v d.mimeType (← Buildable.commitAs ctx v d.extent) d.medium

/-- The draft that leads to the component again. -/
def toDraft (c : Format) : Draft :=
  ⟨some c.version, c.mimeType, (c.extent.map (·.toDraft)).getD {}, c.medium⟩

end Format

end DiscoveryMetadata
