import DiscoveryMetadata.Component.Basic
/-
  Texts in the management of a resource: the software that made it, and details of a revision.
-/
namespace DiscoveryMetadata

open Xml (Element)

namespace ManagedText

/-- The kinds of such texts. -/
inductive Kind where
  | applicationSoftware
  | details
  deriving DecidableEq, Repr, Inhabited

namespace Kind

/-- All kinds. -/
def all : List Kind := [applicationSoftware, details]

/-- The local name of the element. -/
def name : Kind → String
  | applicationSoftware => "applicationSoftware"
  | details => "details"

/-- The kind with this local name. -/
def ofName? (name : String) : Option Kind := all.find? (·.name = name)

end Kind

end ManagedText

/-- A text in the management of a resource. -/
structure ManagedText extends Base where
  kind : ManagedText.Kind
  value : String
  security : SecurityAttributes
  deriving BEq, Inhabited

namespace ManagedText

/-- The rules of such a text. -/
def rules (c : ManagedText) : Outcome Unit := do
  requireDdms c.element c.version c.kind.name
  c.security.requireClassification
  requireVersion c.version .v4_0_1 s!"ddms:{c.kind.name} element"

/-- The warnings about the text. Since version 5.0 the name of the software can be left out without
a warning. -/
def findings (c : ManagedText) : List Finding :=
  c.warnIf ((c.kind == .details || !c.version.atLeast .v5_0) && c.value.isEmpty)
    s!"A ddms:{c.kind.name} element was found with no value." ++
  c.absorb c.security.warnings

/-- The text, if it keeps the rules, with the warnings about it. -/
def checked (c : ManagedText) : Outcome ManagedText := do
  c.check c.rules
  return { c with warnings := c.findings }

/-- Reads such a text. -/
def ofElement (ctx : Context) (v : Version) (e : Element) : Outcome ManagedText := do
  match Kind.ofName? e.localName with
  | none => within e.writtenName (.error (.unexpectedName e.name.clark))
  | some kind =>
    let security ← within e.writtenName (SecurityAttributes.ofElement ctx v e)
    checked ⟨⟨e, v, []⟩, kind, e.content, security⟩

/-- Makes such a text. -/
def make (ctx : Context) (v : Version) (kind : Kind) (value : String)
    (security : SecurityAttributes) : Outcome ManagedText := do
  let e := ctx.textElement v kind.name value
  let e ← within e.writtenName (security.addTo ctx v e)
  checked ⟨⟨e, v, []⟩, kind, value, security⟩

instance : Component ManagedText where
  base c := c.toBase
  security? c := some c.security
  lines c stem index :=
    let name := c.lineName stem index
    Line.of name c.value ++ c.security.lines (name ++ ".")
  output html c stem index :=
    let name := c.lineName stem index
    Output.entry html name c.value ++ c.security.output html (name ++ ".")

/-- The contents of such a text to be made. -/
structure Draft where
  version : Option Version := none
  kind : Kind := .applicationSoftware
  value : String := ""
  security : SecurityAttributes.Draft := {}
  deriving BEq, Inhabited

instance : Buildable Draft ManagedText where
  isEmpty d := Text.isBlank d.value && d.security.isEmpty
  version? d := d.version
  build ctx v d := do make ctx v d.kind d.value (← d.security.commitAs ctx v)

/-- The draft that leads to the component again. -/
def toDraft (c : ManagedText) : Draft := ⟨some c.version, c.kind, c.value, c.security.toDraft⟩

end ManagedText

end DiscoveryMetadata
