import DiscoveryMetadata.Component.Basic
import DiscoveryMetadata.Text.Names
/-
  The texts of need-to-know rules, since version 4.0.1: the names of systems and the values that
  stand for individuals, groups and profiles in them.
-/
namespace DiscoveryMetadata

open Xml (Element)

namespace Ntk

/-- The namespace of a need-to-know element, in the versions that have it. -/
def uriFor (v : Version) (localName : String) : Outcome String := do
  requireVersion v .v4_0_1 ("ntk:" ++ localName ++ " element")
  v.uriOf .ntk

/-- A need-to-know element with nothing in it. -/
def element (ctx : Context) (v : Version) (localName : String) : Outcome Element :=
  within (ctx.prefixes.ntk ++ ":" ++ localName) do
    let _ ← uriFor v localName
    ctx.elementIn v .ntk localName

end Ntk

namespace AccessText

/-- The kinds of texts. -/
inductive Kind where
  | systemName
  | individualValue
  | groupValue
  | profileValue
  deriving DecidableEq, Repr, Inhabited

namespace Kind

/-- All kinds. -/
def all : List Kind := [systemName, individualValue, groupValue, profileValue]

/-- The local name of the element. -/
def name : Kind → String
  | systemName => "AccessSystemName"
  | individualValue => "AccessIndividualValue"
  | groupValue => "AccessGroupValue"
  | profileValue => "AccessProfileValue"

/-- The name in the lines for a reader. -/
def lineName : Kind → String
  | systemName => "systemName"
  | individualValue => "individualValue"
  | groupValue => "groupValue"
  | profileValue => "profileValue"

/-- The kind with this local name. -/
def ofName? (name : String) : Option Kind := all.find? (·.name = name)

end Kind

end AccessText

/-- A text of a need-to-know rule. -/
structure AccessText extends Base where
  kind : AccessText.Kind
  value : String
  vocabulary : String
  id : String
  idReference : String
  qualifier : String
  security : SecurityAttributes
  deriving BEq, Inhabited

namespace AccessText

/-- The rules of a text. -/
def rules (c : AccessText) : Outcome Unit := do
  requireIn c.element c.version .ntk c.kind.name
  if c.kind = .systemName then Text.checkNameToken c.value
  if c.kind = .profileValue then Text.checkNameToken c.vocabulary
  else demand c.vocabulary.isEmpty (.rule
    "The vocabulary attribute can only be used on an ntk:AccessProfileValue element.")
  c.security.requireClassification

/-- The warnings about the text. -/
def findings (c : AccessText) : List Finding :=
  c.warnIf (c.kind ≠ .systemName && c.value.isEmpty)
    s!"A ntk:{c.kind.name} element was found with no value." ++
  c.absorb c.security.warnings

/-- The text, if it keeps the rules, with the warnings about it. -/
def checked (c : AccessText) : Outcome AccessText := do
  c.check c.rules
  return { c with warnings := c.findings }

/-- Reads a text. -/
def ofElement (ctx : Context) (v : Version) (e : Element) : Outcome AccessText := do
  match Kind.ofName? e.localName with
  | none => within e.writtenName (.error (.unexpectedName e.name.clark))
  | some kind =>
    let uri ← within e.writtenName (Ntk.uriFor v kind.name)
    let security ← within e.writtenName (SecurityAttributes.ofElement ctx v e)
    checked ⟨⟨e, v, []⟩, kind, e.content, e.attributeText uri "vocabulary",
      e.attributeText uri "id", e.attributeText uri "IDReference",
      e.attributeText uri "qualifier", security⟩

/-- Makes a text. -/
def make (ctx : Context) (v : Version) (kind : Kind)
    (value vocabulary id idReference qualifier : String) (security : SecurityAttributes) :
    Outcome AccessText := do
  let e := (← Ntk.element ctx v kind.name).putText value
  let e ← ctx.putIn v .ntk "id" id e
  let e ← ctx.putIn v .ntk "IDReference" idReference e
  let e ← ctx.putIn v .ntk "qualifier" qualifier e
  let e ← ctx.putIn v .ntk "vocabulary" vocabulary e
  let e ← within e.writtenName (security.addTo ctx v e)
  checked ⟨⟨e, v, []⟩, kind, value, vocabulary, id, idReference, qualifier, security⟩

instance : Component AccessText where
  base c := c.toBase
  security? c := some c.security
  lines c stem index :=
    let name := stem ++ c.kind.lineName ++ index
    Line.of name c.value ++ Line.of (name ++ ".vocabulary") c.vocabulary ++
      Line.of (name ++ ".id") c.id ++ Line.of (name ++ ".idReference") c.idReference ++
      Line.of (name ++ ".qualifier") c.qualifier ++ c.security.lines (name ++ ".")
  output html c stem index :=
    let name := stem ++ c.kind.lineName ++ index
    Output.entry html name c.value ++ Output.entry html (name ++ ".vocabulary") c.vocabulary ++
      Output.entry html (name ++ ".id") c.id ++
      Output.entry html (name ++ ".idReference") c.idReference ++
      Output.entry html (name ++ ".qualifier") c.qualifier ++ c.security.output html (name ++ ".")

/-- The contents of a text to be made. -/
structure Draft where
  version : Option Version := none
  kind : Kind := .systemName
  value : String := ""
  vocabulary : String := ""
  id : String := ""
  idReference : String := ""
  qualifier : String := ""
  security : SecurityAttributes.Draft := {}
  deriving BEq, Inhabited

instance : Buildable Draft AccessText where
  isEmpty d :=
    allBlank [d.value, d.vocabulary, d.id, d.idReference, d.qualifier] && d.security.isEmpty
  version? d := d.version
  build ctx v d := do
    make ctx v d.kind d.value d.vocabulary d.id d.idReference d.qualifier
      (← d.security.commitAs ctx v)

/-- The draft that leads to the component again. -/
def toDraft (c : AccessText) : Draft :=
  ⟨some c.version, c.kind, c.value, c.vocabulary, c.id, c.idReference, c.qualifier,
    c.security.toDraft⟩

end AccessText

end DiscoveryMetadata
