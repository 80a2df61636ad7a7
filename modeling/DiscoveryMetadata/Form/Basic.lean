import DiscoveryMetadata.Component.Basic
import DiscoveryMetadata.Form.Entry
import DiscoveryMetadata.Xml.Reader
/-
  Forms: components and drafts as plain data.

  A form holds, by name, what a component holds. A draft is filled from a form, a component is made
  from a form, and the contents of a component are shown as a form. In the form that a component
  is made from, its parts stand as sources, which hold the XML of the part and its version; in the
  contents that are shown, a part stands as its written name.
-/
namespace DiscoveryMetadata

open Data (Value)
open Xml (Element)

/-- The kinds of components that can be exchanged as forms. -/
class Form (α : Type) (δ : outParam Type) where
  /-- Reads a component. -/
  read : Context → Version → Element → Outcome α
  /-- The draft that leads to a component. -/
  draft : α → δ
  /-- The draft to begin with. -/
  blank : δ
  /-- What a component holds, by name. -/
  contents : α → List (String × Value)
  /-- The draft with the entries of a form laid over it. -/
  fill : δ → Value → Outcome δ
  /-- Makes a component from a form with its values and the sources of its parts. -/
  make : Context → Version → Value → Outcome α

namespace Form

/-- An element with its version, from a source. -/
def source (v : Value) : Outcome (Element × Version) := do
  let e ← Element.ofXml (v.textAt "xml")
  return (e, ← (v.entry "version").version)

/-- Reads a component from a source. -/
def readSource {α : Type} (read : Context → Version → Element → Outcome α) (ctx : Context)
    (v : Value) : Outcome α := do
  let (e, version) ← source v
  read ctx version e

/-- Reads a part that must be there. -/
def part {α δ : Type} [Form α δ] (ctx : Context) (v : Value) (name : String) : Outcome α :=
  readSource Form.read ctx (v.entry name)

/-- Reads a part that may be absent, with a reader of its own. -/
def partBy {α : Type} (read : Context → Version → Element → Outcome α) (ctx : Context)
    (v : Value) (name : String) : Outcome (Option α) :=
  if v.has name then (readSource read ctx (v.entry name)).map some else .ok none

/-- Reads a part that may be absent. -/
def optionalPart {α δ : Type} [Form α δ] (ctx : Context) (v : Value) (name : String) :
    Outcome (Option α) := partBy Form.read ctx v name

/-- Reads the parts in a list. -/
def parts {α δ : Type} [Form α δ] (ctx : Context) (v : Value) (name : String) :
    Outcome (List α) := (v.entry name).items.mapM (readSource Form.read ctx)

/-- A draft filled from a form. -/
def filled {α δ : Type} [Buildable δ α] [Form α δ] (d : δ) (v : Value) : Outcome δ :=
  Form.fill α d v

/-- A draft filled from an entry, if a form has it. -/
def draftOver {α δ : Type} [Buildable δ α] [Form α δ] (v : Value) (name : String) (old : δ) :
    Outcome δ :=
  match v.get? name with
  | some e => filled old e
  | none => .ok old

/-- The drafts of an entry in the place of the old ones, each filled from the blank one. -/
def draftsOver {α δ : Type} [Buildable δ α] [Form α δ] (v : Value) (name : String)
    (old : List δ) : Outcome (List δ) :=
  match v.get? name with
  | some e => e.items.mapM (filled (Form.blank α))
  | none => .ok old

/-- The written name of a component. -/
def nameOf {α : Type} [Component α] (c : α) : Value := .text (Component.base c).writtenName

/-- The written names of components. -/
def namesOf {α : Type} [Component α] (cs : List α) : Value := .list (cs.map nameOf)

/-- The written name of a component that may be absent. -/
def nameOf? {α : Type} [Component α] (c : Option α) : Value := .optional nameOf c

/-- An integer that may be absent. -/
def integer (n : Option Int) : Value := .optional .ofInt n

/-- A double that may be absent. -/
def double (x : Option Double) : Value := .optional .ofDouble x

/-- A truth value that may be absent. -/
def truth (b : Option Bool) : Value := .optional .truth b

end Form

end DiscoveryMetadata
