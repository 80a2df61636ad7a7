import DiscoveryMetadata.Component.Basic
/-
  The processing that a resource went through.
-/
namespace DiscoveryMetadata

open Xml (Element)

/-- One step of processing and its date. -/
structure ProcessingInfo extends Base where
  value : String
  dateProcessed : String
  security : SecurityAttributes
  deriving BEq, Inhabited

namespace ProcessingInfo

/-- The rules of a processing step. -/
def rules (c : ProcessingInfo) : Outcome Unit := do
  requireDdms c.element c.version "processingInfo"
  requireValue "dateProcessed" c.dateProcessed
  let _ ← Calendar.requireKind c.dateProcessed
  c.security.requireClassification
  requireVersion c.version .v4_0_1 "ddms:processingInfo element"

/-- The warnings about the step. -/
def findings (c : ProcessingInfo) : List Finding :=
  c.warnIf c.value.isEmpty "A ddms:processingInfo element was found with no value." ++
  c.absorb c.security.warnings

/-- The step, if it keeps the rules, with the warnings about it. -/
def checked (c : ProcessingInfo) : Outcome ProcessingInfo := do
  c.check c.rules
  return { c with warnings := c.findings }

/-- Reads a processing step. -/
def ofElement (ctx : Context) (v : Version) (e : Element) : Outcome ProcessingInfo := do
  let security ← within e.writtenName (SecurityAttributes.ofElement ctx v e)
  checked ⟨⟨e, v, []⟩, e.content, e.own "dateProcessed", security⟩

/-- Makes a processing step. -/
def make (ctx : Context) (v : Version) (value dateProcessed : String)
    (security : SecurityAttributes) : Outcome ProcessingInfo := do
  let e := (ctx.textElement v "processingInfo" value).put (ctx.ddmsName v "dateProcessed")
    dateProcessed
  let e ← within e.writtenName (security.addTo ctx v e)
  checked ⟨⟨e, v, []⟩, value, dateProcessed, security⟩

instance : Component ProcessingInfo where
  base c := c.toBase
  security? c := some c.security
  lines c stem index :=
    let name := c.lineName stem index
    Line.of name c.value ++ Line.of (name ++ ".dateProcessed") c.dateProcessed ++
      c.security.lines (name ++ ".")
  output html c stem index :=
    let name := c.lineName stem index
    Output.entry html name c.value ++
      Output.entry html (name ++ ".dateProcessed") c.dateProcessed ++
      c.security.output html (name ++ ".")

/-- The contents of a processing step to be made. -/
structure Draft where
  version : Option Version := none
  value : String := ""
  dateProcessed : String := ""
  security : SecurityAttributes.Draft := {}
  deriving BEq, Inhabited

instance : Buildable Draft ProcessingInfo where
  isEmpty d := allBlank [d.value, d.dateProcessed] && d.security.isEmpty
  version? d := d.version
  build ctx v d := do make ctx v d.value d.dateProcessed (← d.security.commitAs ctx v)

/-- The draft that leads to the component again. -/
def toDraft (c : ProcessingInfo) : Draft :=
  ⟨some c.version, c.value, c.dateProcessed, c.security.toDraft⟩

end ProcessingInfo

end DiscoveryMetadata
