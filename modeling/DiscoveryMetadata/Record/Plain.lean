import DiscoveryMetadata.Component.Basic
import DiscoveryMetadata.Uri
/-
  Records without parts.

  An identifier is a value with the qualifier that says what kind of identifier it is. Captions are
  the titles, subtitles and description: each is a text with security attributes, and only a title
  must not be blank. Rights apply or do not. Sources are what a resource is derived from, and a type
  is named by a value within the scheme that a qualifier names.
-/
namespace DiscoveryMetadata

open Xml (Element)

/-- An identifier. -/
structure Identifier extends Base where
  qualifier : String
  value : String
  deriving BEq, Inhabited

namespace Identifier

/-- The rules of an identifier: both parts are there, and the qualifier is a reference. -/
def rules (c : Identifier) : Outcome Unit := do
  requireDdms c.element c.version "identifier"
  requireValue "qualifier attribute" c.qualifier
  requireValue "value attribute" c.value
  Uri.check c.qualifier

/-- Reads an identifier. -/
def ofElement (_ : Context) (v : Version) (e : Element) : Outcome Identifier := do
  let c : Identifier := ⟨⟨e, v, []⟩, e.own "qualifier", e.own "value"⟩
  c.check c.rules
  return c

/-- Makes an identifier. -/
def make (ctx : Context) (v : Version) (qualifier value : String) : Outcome Identifier :=
  ofElement ctx v (((ctx.ddmsElement v "identifier").put (ctx.ddmsName v "qualifier") qualifier).put
    (ctx.ddmsName v "value") value)

instance : Component Identifier where
  base c := c.toBase
  security? _ := none
  lines c stem index :=
    let name := c.lineName stem index ++ "."
    Line.of (name ++ "qualifier") c.qualifier ++ Line.of (name ++ "value") c.value
  output html c stem index :=
    let name := c.lineName stem index ++ "."
    Output.entry html (name ++ "qualifier") c.qualifier ++
      Output.entry html (name ++ "value") c.value

/-- The contents of an identifier to be made. -/
structure Draft where
  version : Option Version := none
  qualifier : String := ""
  value : String := ""
  deriving BEq, Inhabited

instance : Buildable Draft Identifier where
  isEmpty d := allBlank [d.qualifier, d.value]
  version? d := d.version
  build ctx v d := make ctx v d.qualifier d.value

/-- The draft that leads to the component again. -/
def toDraft (c : Identifier) : Draft := ⟨some c.version, c.qualifier, c.value⟩

end Identifier

namespace Caption

/-- The kinds of captions. -/
inductive Kind where
  | title
  | subtitle
  | description
  deriving DecidableEq, Repr, Inhabited

namespace Kind

/-- All kinds. -/
def all : List Kind := [title, subtitle, description]

/-- The local name of the element. -/
def name : Kind → String
  | title => "title"
  | subtitle => "subtitle"
  | description => "description"

/-- The kind with this local name. -/
def ofName? (name : String) : Option Kind := all.find? (·.name = name)

end Kind

end Caption

/-- A title, subtitle or description. -/
structure Caption extends Base where
  kind : Caption.Kind
  value : String
  security : SecurityAttributes
  deriving BEq, Inhabited

namespace Caption

/-- The rules of a caption. -/
def rules (c : Caption) : Outcome Unit := do
  requireDdms c.element c.version c.kind.name
  if c.kind = .title then requireValue "title value" c.value
  if c.version.atLeast .v3_0 then c.security.requireClassification

/-- The warnings about the caption. -/
def findings (c : Caption) : List Finding :=
  let name := c.kind.name
  c.warnIf (c.kind != .title && c.value.isEmpty)
    s!"A ddms:{name} element was found with no {name} value." ++
  c.absorb c.security.warnings

/-- The caption, if it keeps the rules, with the warnings about it. -/
def checked (c : Caption) : Outcome Caption := do
  c.check c.rules
  return { c with warnings := c.findings }

/-- Reads a caption. -/
def ofElement (ctx : Context) (v : Version) (e : Element) : Outcome Caption := do
  match Kind.ofName? e.localName with
  | none => within e.writtenName (.error (.unexpectedName e.name.clark))
  | some kind =>
    let security ← within e.writtenName (SecurityAttributes.ofElement ctx v e)
    checked ⟨⟨e, v, []⟩, kind, e.content, security⟩

/-- Makes a caption. -/
def make (ctx : Context) (v : Version) (kind : Kind) (value : String)
    (security : SecurityAttributes) : Outcome Caption := do
  let e := ctx.textElement v kind.name value
  let e ← within e.writtenName (security.addTo ctx v e)
  checked ⟨⟨e, v, []⟩, kind, value, security⟩

instance : Component Caption where
  base c := c.toBase
  security? c := some c.security
  lines c stem index :=
    let name := c.lineName stem index
    Line.of name c.value ++ c.security.lines (name ++ ".")
  output html c stem index :=
    let name := c.lineName stem index
    Output.entry html name c.value ++ c.security.output html (name ++ ".")

/-- The contents of a caption to be made. -/
structure Draft where
  version : Option Version := none
  kind : Kind := .title
  value : String := ""
  security : SecurityAttributes.Draft := {}
  deriving BEq, Inhabited

instance : Buildable Draft Caption where
  isEmpty d := Text.isBlank d.value && d.security.isEmpty
  version? d := d.version
  build ctx v d := do make ctx v d.kind d.value (← d.security.commitAs ctx v)

/-- The draft that leads to the component again. -/
def toDraft (c : Caption) : Draft := ⟨some c.version, c.kind, c.value, c.security.toDraft⟩

end Caption

/-- A language, named by a value within the scheme that the qualifier names. -/
structure Language extends Base where
  qualifier : String
  value : String
  deriving BEq, Inhabited

namespace Language

/-- The rules of a language: a value needs a qualifier. -/
def rules (c : Language) : Outcome Unit := do
  requireDdms c.element c.version "language"
  ifPresent c.value fun _ => requireValue "qualifier attribute" c.qualifier

/-- The warnings about the language. -/
def findings (c : Language) : List Finding :=
  c.warnIf (!c.qualifier.isEmpty && c.value.isEmpty)
    "A qualifier has been set without an accompanying value attribute." ++
  c.warnIf (c.qualifier.isEmpty && c.value.isEmpty)
    "Neither a qualifier nor a value was set on this language."

/-- The language, if it keeps the rules, with the warnings about it. -/
def checked (c : Language) : Outcome Language := do
  c.check c.rules
  return { c with warnings := c.findings }

/-- Reads a language. -/
def ofElement (_ : Context) (v : Version) (e : Element) : Outcome Language :=
  checked ⟨⟨e, v, []⟩, e.own "qualifier", e.own "value"⟩

/-- Makes a language. -/
def make (ctx : Context) (v : Version) (qualifier value : String) : Outcome Language :=
  ofElement ctx v (((ctx.ddmsElement v "language").put (ctx.ddmsName v "qualifier") qualifier).put
    (ctx.ddmsName v "value") value)

instance : Component Language where
  base c := c.toBase
  security? _ := none
  lines c stem index :=
    let name := c.lineName stem index ++ "."
    Line.of (name ++ "qualifier") c.qualifier ++ Line.of (name ++ "value") c.value
  output html c stem index :=
    let name := c.lineName stem index ++ "."
    Output.entry html (name ++ "qualifier") c.qualifier ++
      Output.entry html (name ++ "value") c.value

/-- The contents of a language to be made. -/
structure Draft where
  version : Option Version := none
  qualifier : String := ""
  value : String := ""
  deriving BEq, Inhabited

instance : Buildable Draft Language where
  isEmpty d := allBlank [d.qualifier, d.value]
  version? d := d.version
  build ctx v d := make ctx v d.qualifier d.value

/-- The draft that leads to the component again. -/
def toDraft (c : Language) : Draft := ⟨some c.version, c.qualifier, c.value⟩

end Language

/-- The rights on a resource. -/
structure Rights extends Base where
  privacyAct : Bool
  intellectualProperty : Bool
  copyright : Bool
  deriving BEq, Inhabited

namespace Rights

/-- Reads a flag; an absent or empty one does not apply. -/
def flag (e : Element) (name : String) : Outcome Bool :=
  let text := e.own name
  if text.isEmpty then .ok false
  else match Text.truth? text with
    | some b => .ok b
    | none => .error (.notBoolean name)

/-- Reads rights. -/
def ofElement (_ : Context) (v : Version) (e : Element) : Outcome Rights :=
  within e.writtenName do
    let privacyAct ← flag e "privacyAct"
    let intellectualProperty ← flag e "intellectualProperty"
    let copyright ← flag e "copyright"
    requireDdms e v "rights"
    return ⟨⟨e, v, []⟩, privacyAct, intellectualProperty, copyright⟩

/-- Makes rights. -/
def make (ctx : Context) (v : Version) (privacyAct intellectualProperty copyright : Bool) :
    Outcome Rights :=
  let put := fun (e : Element) (name : String) (b : Bool) =>
    e.put (ctx.ddmsName v name) (Text.ofTruth b)
  ofElement ctx v (put (put (put (ctx.ddmsElement v "rights") "privacyAct" privacyAct)
    "intellectualProperty" intellectualProperty) "copyright" copyright)

instance : Component Rights where
  base c := c.toBase
  security? _ := none
  lines c stem index :=
    let name := c.lineName stem index ++ "."
    [⟨name ++ "privacyAct", Text.ofTruth c.privacyAct⟩,
     ⟨name ++ "intellectualProperty", Text.ofTruth c.intellectualProperty⟩,
     ⟨name ++ "copyright", Text.ofTruth c.copyright⟩]
  output html c stem index :=
    let name := c.lineName stem index ++ "."
    Output.always html (name ++ "privacyAct") (Text.ofTruth c.privacyAct) ++
      Output.always html (name ++ "intellectualProperty") (Text.ofTruth c.intellectualProperty) ++
      Output.always html (name ++ "copyright") (Text.ofTruth c.copyright)

/-- The contents of rights to be made. -/
structure Draft where
  version : Option Version := none
  privacyAct : Bool := false
  intellectualProperty : Bool := false
  copyright : Bool := false
  deriving BEq, Inhabited

instance : Buildable Draft Rights where
  isEmpty d := !d.privacyAct && !d.intellectualProperty && !d.copyright
  version? d := d.version
  build ctx v d := make ctx v d.privacyAct d.intellectualProperty d.copyright

/-- The draft that leads to the component again. -/
def toDraft (c : Rights) : Draft :=
  ⟨some c.version, c.privacyAct, c.intellectualProperty, c.copyright⟩

end Rights

/-- A source, with the schema that it follows. -/
structure Source extends Base where
  qualifier : String
  value : String
  schemaQualifier : String
  schemaHref : String
  security : SecurityAttributes
  deriving BEq, Inhabited

namespace Source

/-- The rules of a source. -/
def rules (c : Source) : Outcome Unit := do
  requireDdms c.element c.version "source"
  ifPresent c.schemaHref Uri.check
  demand (c.version.atLeast .v3_0 || c.security.isEmpty) (.securityTooEarly "3.0")

/-- The fields with their names. -/
def fields (c : Source) : List (String × String) :=
  [("qualifier", c.qualifier), ("value", c.value), ("schemaQualifier", c.schemaQualifier),
   ("schemaHref", c.schemaHref)]

/-- The warnings about the source. -/
def findings (c : Source) : List Finding :=
  c.warnIf (c.fields.all (·.2.isEmpty)) "A completely empty ddms:source element was found." ++
  c.absorb c.security.warnings

/-- The source, if it keeps the rules, with the warnings about it. -/
def checked (c : Source) : Outcome Source := do
  c.check c.rules
  return { c with warnings := c.findings }

/-- Reads a source. -/
def ofElement (ctx : Context) (v : Version) (e : Element) : Outcome Source := do
  let security ← within e.writtenName (SecurityAttributes.ofElement ctx v e)
  checked ⟨⟨e, v, []⟩, e.own "qualifier", e.own "value", e.own "schemaQualifier",
    e.own "schemaHref", security⟩

/-- Makes a source. -/
def make (ctx : Context) (v : Version) (qualifier value schemaQualifier schemaHref : String)
    (security : SecurityAttributes) : Outcome Source := do
  let e := ((((ctx.ddmsElement v "source").put (ctx.ddmsName v "qualifier") qualifier).put
    (ctx.ddmsName v "value") value).put (ctx.ddmsName v "schemaQualifier") schemaQualifier).put
    (ctx.ddmsName v "schemaHref") schemaHref
  let e ← within e.writtenName (security.addTo ctx v e)
  ofElement ctx v e

instance : Component Source where
  base c := c.toBase
  security? c := some c.security
  lines c stem index :=
    let name := c.lineName stem index ++ "."
    c.fields.flatMap (fun (n, value) => Line.of (name ++ n) value) ++ c.security.lines name
  output html c stem index :=
    let name := c.lineName stem index ++ "."
    Output.pairs html name c.fields ++ c.security.output html name

/-- The contents of a source to be made. -/
structure Draft where
  version : Option Version := none
  qualifier : String := ""
  value : String := ""
  schemaQualifier : String := ""
  schemaHref : String := ""
  security : SecurityAttributes.Draft := {}
  deriving BEq, Inhabited

instance : Buildable Draft Source where
  isEmpty d :=
    allBlank [d.qualifier, d.value, d.schemaQualifier, d.schemaHref] && d.security.isEmpty
  version? d := d.version
  build ctx v d := do
    make ctx v d.qualifier d.value d.schemaQualifier d.schemaHref (← d.security.commitAs ctx v)

/-- The draft that leads to the component again. -/
def toDraft (c : Source) : Draft :=
  ⟨some c.version, c.qualifier, c.value, c.schemaQualifier, c.schemaHref, c.security.toDraft⟩

end Source

/-- A type of the resource. -/
structure ResourceType extends Base where
  qualifier : String
  value : String
  description : String
  security : SecurityAttributes
  deriving BEq, Inhabited

namespace ResourceType

/-- The rules of a type: a value needs a qualifier, and only since version 4.1 can a description
and security attributes be given. -/
def rules (c : ResourceType) : Outcome Unit := do
  requireDdms c.element c.version "type"
  ifPresent c.value fun _ => requireValue "qualifier attribute" c.qualifier
  if !c.version.atLeast .v4_1 then
    demand c.description.isEmpty
      (.rule "This component cannot contain description text until DDMS 4.1 or later.")
    demand c.security.isEmpty (.securityTooEarly "4.1")

/-- The warnings about the type. -/
def findings (c : ResourceType) : List Finding :=
  c.warnIf (!c.qualifier.isEmpty && c.value.isEmpty)
    "A qualifier has been set without an accompanying value attribute." ++
  c.warnIf (c.qualifier.isEmpty && c.value.isEmpty && c.description.isEmpty)
    "Neither a qualifier nor a value was set on this type." ++
  c.absorb c.security.warnings

/-- The type, if it keeps the rules, with the warnings about it. -/
def checked (c : ResourceType) : Outcome ResourceType := do
  c.check c.rules
  return { c with warnings := c.findings }

/-- Reads a type. -/
def ofElement (ctx : Context) (v : Version) (e : Element) : Outcome ResourceType := do
  let security ← within e.writtenName (SecurityAttributes.ofElement ctx v e)
  checked ⟨⟨e, v, []⟩, e.own "qualifier", e.own "value", e.content, security⟩

/-- Makes a type. -/
def make (ctx : Context) (v : Version) (description qualifier value : String)
    (security : SecurityAttributes) : Outcome ResourceType := do
  let e := ((ctx.textElement v "type" description).put (ctx.ddmsName v "qualifier") qualifier).put
    (ctx.ddmsName v "value") value
  let e ← within e.writtenName (security.addTo ctx v e)
  ofElement ctx v e

instance : Component ResourceType where
  base c := c.toBase
  security? c := some c.security
  lines c stem index :=
    let name := c.lineName stem index ++ "."
    Line.of (name ++ "description") c.description ++ Line.of (name ++ "qualifier") c.qualifier ++
      Line.of (name ++ "value") c.value ++ c.security.lines name
  output html c stem index :=
    let name := c.lineName stem index ++ "."
    Output.entry html (name ++ "description") c.description ++
      Output.entry html (name ++ "qualifier") c.qualifier ++
      Output.entry html (name ++ "value") c.value ++ c.security.output html name

/-- The contents of a type to be made. -/
structure Draft where
  version : Option Version := none
  description : String := ""
  qualifier : String := ""
  value : String := ""
  security : SecurityAttributes.Draft := {}
  deriving BEq, Inhabited

instance : Buildable Draft ResourceType where
  isEmpty d := allBlank [d.description, d.qualifier, d.value] && d.security.isEmpty
  version? d := d.version
  build ctx v d := do
    make ctx v d.description d.qualifier d.value (← d.security.commitAs ctx v)

/-- The draft that leads to the component again. -/
def toDraft (c : ResourceType) : Draft :=
  ⟨some c.version, c.description, c.qualifier, c.value, c.security.toDraft⟩

end ResourceType

end DiscoveryMetadata
