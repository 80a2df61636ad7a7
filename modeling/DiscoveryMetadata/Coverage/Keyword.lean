import DiscoveryMetadata.Attributes.Extensible
import DiscoveryMetadata.Component.Basic
import DiscoveryMetadata.Uri
/-
  Keywords and categories: the terms that say what a resource is about. Both can carry security
  attributes since version 4.0.1 and extensible attributes since version 3.0.
-/
namespace DiscoveryMetadata

open Xml (Element)

/-- Refuses security attributes on a component of a version that does not allow them there yet. -/
def requireSecuritySince (v minimum : Version) (security : SecurityAttributes) : Outcome Unit :=
  demand (security.isEmpty || v.atLeast minimum) (.securityTooEarly minimum.number)

/-- Refuses extensible attributes on a term before version 3.0. -/
def requireExtensibleSince (v : Version) (localName : String)
    (extensible : ExtensibleAttributes) : Outcome Unit :=
  demand (extensible.isEmpty || v.atLeast .v3_0)
    (.rule s!"xs:anyAttribute cannot be applied to ddms:{localName} until DDMS 3.0 or later.")

/-- A keyword. -/
structure Keyword extends Base where
  value : String
  security : SecurityAttributes
  extensible : ExtensibleAttributes
  deriving BEq, Inhabited

namespace Keyword

/-- The local name of the element. -/
def name : String := "keyword"

/-- The rules of a keyword. -/
def rules (c : Keyword) : Outcome Unit := do
  requireDdms c.element c.version name
  requireValue "value attribute" c.value
  requireSecuritySince c.version .v4_0_1 c.security
  requireExtensibleSince c.version name c.extensible

/-- The warnings about the keyword. -/
def findings (c : Keyword) : List Finding :=
  c.absorb c.security.warnings

/-- The keyword, if it keeps the rules, with the warnings about it. -/
def checked (c : Keyword) : Outcome Keyword := do
  c.check c.rules
  return { c with warnings := c.findings }

/-- Reads a keyword. -/
def ofElement (ctx : Context) (v : Version) (e : Element) : Outcome Keyword := do
  let security ← within e.writtenName (SecurityAttributes.ofElement ctx v e)
  checked ⟨⟨e, v, []⟩, e.own "value", security, .ofElement v e⟩

/-- Makes a keyword. -/
def make (ctx : Context) (v : Version) (value : String) (security : SecurityAttributes)
    (extensible : ExtensibleAttributes) : Outcome Keyword := do
  let e := (ctx.ddmsElement v name).put (ctx.ddmsName v "value") value
  let e ← within e.writtenName do extensible.addTo v (← security.addTo ctx v e)
  checked ⟨⟨e, v, []⟩, value, security, extensible⟩

instance : Component Keyword where
  base c := c.toBase
  security? c := some c.security
  lines c stem index :=
    let name := c.lineName stem index
    Line.of name c.value ++ c.security.lines (name ++ ".") ++ c.extensible.lines (name ++ ".")
  output html c stem index :=
    let name := c.lineName stem index
    Output.entry html name c.value ++ c.security.output html (name ++ ".") ++
      c.extensible.output html (name ++ ".")

/-- The contents of a keyword to be made. -/
structure Draft where
  version : Option Version := none
  value : String := ""
  security : SecurityAttributes.Draft := {}
  deriving BEq, Inhabited

instance : Buildable Draft Keyword where
  isEmpty d := Text.isBlank d.value && d.security.isEmpty
  version? d := d.version
  build ctx v d := do make ctx v d.value (← d.security.commitAs ctx v) (.empty v)

/-- The draft that leads to the component again, without its extensible attributes. -/
def toDraft (c : Keyword) : Draft := ⟨some c.version, c.value, c.security.toDraft⟩

end Keyword

/-- A category of some taxonomy. -/
structure Category extends Base where
  qualifier : String
  code : String
  label : String
  security : SecurityAttributes
  extensible : ExtensibleAttributes
  deriving BEq, Inhabited

namespace Category

/-- The local name of the element. -/
def name : String := "category"

/-- The rules of a category. -/
def rules (c : Category) : Outcome Unit := do
  requireDdms c.element c.version name
  requireValue "label attribute" c.label
  ifPresent c.qualifier Uri.check
  requireSecuritySince c.version .v4_0_1 c.security
  requireExtensibleSince c.version name c.extensible

/-- The warnings about the category. -/
def findings (c : Category) : List Finding :=
  c.absorb c.security.warnings

/-- The category, if it keeps the rules, with the warnings about it. -/
def checked (c : Category) : Outcome Category := do
  c.check c.rules
  return { c with warnings := c.findings }

/-- Reads a category. -/
def ofElement (ctx : Context) (v : Version) (e : Element) : Outcome Category := do
  let security ← within e.writtenName (SecurityAttributes.ofElement ctx v e)
  checked ⟨⟨e, v, []⟩, e.own "qualifier", e.own "code", e.own "label", security, .ofElement v e⟩

/-- Makes a category. -/
def make (ctx : Context) (v : Version) (qualifier code label : String)
    (security : SecurityAttributes) (extensible : ExtensibleAttributes) : Outcome Category := do
  let e := (ctx.ddmsElement v name).put (ctx.ddmsName v "qualifier") qualifier
  let e := (e.put (ctx.ddmsName v "code") code).put (ctx.ddmsName v "label") label
  let e ← within e.writtenName do extensible.addTo v (← security.addTo ctx v e)
  checked ⟨⟨e, v, []⟩, qualifier, code, label, security, extensible⟩

instance : Component Category where
  base c := c.toBase
  security? c := some c.security
  lines c stem index :=
    let name := c.lineName stem index ++ "."
    Line.of (name ++ "qualifier") c.qualifier ++ Line.of (name ++ "code") c.code ++
      Line.of (name ++ "label") c.label ++ c.security.lines name ++ c.extensible.lines name
  output html c stem index :=
    let name := c.lineName stem index ++ "."
    Output.entry html (name ++ "qualifier") c.qualifier ++
      Output.entry html (name ++ "code") c.code ++ Output.entry html (name ++ "label") c.label ++
      c.security.output html name ++ c.extensible.output html name

/-- The contents of a category to be made. -/
structure Draft where
  version : Option Version := none
  qualifier : String := ""
  code : String := ""
  label : String := ""
  security : SecurityAttributes.Draft := {}
  deriving BEq, Inhabited

instance : Buildable Draft Category where
  isEmpty d := allBlank [d.qualifier, d.code, d.label] && d.security.isEmpty
  version? d := d.version
  build ctx v d := do
    make ctx v d.qualifier d.code d.label (← d.security.commitAs ctx v) (.empty v)

/-- The draft that leads to the component again, without its extensible attributes. -/
def toDraft (c : Category) : Draft :=
  ⟨some c.version, c.qualifier, c.code, c.label, c.security.toDraft⟩

end Category

end DiscoveryMetadata
