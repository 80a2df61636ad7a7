import DiscoveryMetadata.Attributes.Security
import DiscoveryMetadata.Xml.Writer
/-
  Components: the typed parts of a document.

  Every component keeps the element it was read from or made into, the version whose rules it
  obeys, and the warnings about itself and its parts. It can be described in lines, written as
  XML, and made again from a draft. A draft holds the contents of a component that may not exist
  yet; an empty draft leads to no component.
-/
namespace DiscoveryMetadata

open Xml (Element)

/-- What every component has. -/
structure Base where
  element : Element
  version : Version
  warnings : List Finding := []
  deriving Inhabited

namespace Base

/-- Two components are of the same kind when their elements have the same name, prefixes aside;
their contents are compared by the components themselves. -/
instance : BEq Base := ⟨fun a b => a.element.name.sameExpanded b.element.name⟩

/-- The name of the element as it is written. -/
def writtenName (b : Base) : String := b.element.writtenName

/-- The local name of the element. -/
def localName (b : Base) : String := b.element.localName

/-- A warning about the component itself, if the condition holds. -/
def warnIf (b : Base) (condition : Bool) (text : String) : List Finding :=
  if condition then [.warning text ("/" ++ b.writtenName)] else []

/-- Warnings of a part or an attribute group, seen from the component. -/
def absorb (b : Base) (warnings : List Finding) : List Finding :=
  warnings.map (.under b.writtenName)

/-- The warnings of parts, seen from the component. -/
def absorbAll (b : Base) (parts : List Base) : List Finding :=
  parts.flatMap fun p => b.absorb p.warnings

/-- A fault of the component itself. -/
def check {α : Type} (b : Base) (r : Outcome α) : Outcome α := within b.writtenName r

/-- Refuses a part of another version. -/
def requireSameVersion (b : Base) (part : Base) : Outcome Unit :=
  demand (part.version == b.version) (.rule ("A child component, " ++ part.writtenName ++
    ", is using a different version of DDMS from its parent."))

/-- Refuses parts of other versions. -/
def requireSameVersions (b : Base) (parts : List Base) : Outcome Unit :=
  parts.forM b.requireSameVersion

/-- The name under which the lines of the component stand. -/
def lineName (b : Base) (stem index : String) : String := stem ++ b.localName ++ index

end Base

/-- The kinds of components. -/
class Component (α : Type) where
  base : α → Base
  /-- The security attributes, for a kind that has them. -/
  security? : α → Option SecurityAttributes
  /-- The lines of the component, named from a stem and an index. -/
  lines : α → String → String → List Line
  /-- The component in HTML or in plain text, its entries named from a stem and an index. -/
  output : Bool → α → String → String → String

namespace Component

variable {α : Type} [Component α]

/-- The element of the component as XML. -/
def toXml (c : α) : String := (base c).element.toXml

/-- The component as plain text. -/
def toText (c : α) : String := output false c "" ""

/-- The component as HTML. -/
def toHtml (c : α) : String := output true c "" ""

/-- The lines of several components of a kind. -/
def linesOfAll (cs : List α) (stem : String) : List Line :=
  cs.zipIdx.flatMap fun (c, i) => lines c stem (Line.index i cs.length)

/-- The lines of a component that may be absent. -/
def linesOfOption (c : Option α) (stem : String) : List Line :=
  match c with
  | some c => lines c stem ""
  | none => []

/-- The output of several components of a kind. -/
def outputOfAll (html : Bool) (cs : List α) (stem : String) : String :=
  String.join (cs.zipIdx.map fun (c, i) => output html c stem (Line.index i cs.length))

/-- The output of a component that may be absent. -/
def outputOfOption (html : Bool) (c : Option α) (stem : String) : String :=
  match c with
  | some c => output html c stem ""
  | none => ""

end Component

/-- The kinds of drafts, and the components they lead to. -/
class Buildable (δ : Type) (α : outParam Type) where
  /-- The draft holds nothing. -/
  isEmpty : δ → Bool
  /-- The version that the draft asks for. -/
  version? : δ → Option Version
  /-- Makes the component. -/
  build : Context → Version → δ → Outcome α

namespace Buildable

variable {δ α : Type} [Buildable δ α]

/-- Makes the component for a version, unless the draft is empty. -/
def commitAs (ctx : Context) (v : Version) (d : δ) : Outcome (Option α) :=
  if isEmpty d then .ok none else (build ctx v d).map some

/-- Makes the component for the draft's own version, or for the current one. -/
def commit (ctx : Context) (d : δ) : Outcome (Option α) :=
  commitAs ctx ((version? d).getD ctx.current) d

/-- All drafts are empty. -/
def allEmpty (ds : List δ) : Bool := ds.all isEmpty

/-- Makes the components of those drafts that are not empty. -/
def commitAll (ctx : Context) (v : Version) (ds : List δ) : Outcome (List α) := do
  return (← ds.mapM (commitAs ctx v)).filterMap id

section Slots

variable {δ : Type} {blank d : δ} {ds : List δ} {put : δ → List δ} {n i : Nat}

/-- The list with one draft more at its end. -/
def push (ds : List δ) (d : δ) : List δ := ds ++ [d]

/-- The list with blank drafts behind it, up to a length. A list that is long enough stays as it
is. -/
def ensureLength (blank : δ) (n : Nat) (ds : List δ) : List δ :=
  ds ++ List.replicate (n - ds.length) blank

/-- The draft at a place that the list reaches, and what the list becomes with another one there. -/
def slot? (ds : List δ) (i : Nat) : Option (δ × (δ → List δ)) :=
  ds[i]?.map fun d => (d, ds.set i)

@[simp]
theorem length_ensureLength : (ensureLength blank n ds).length = max ds.length n := by
  simp only [ensureLength, List.length_append, List.length_replicate]
  omega

theorem isSome_slot? : (slot? ds i).isSome = true ↔ i < ds.length := by
  simp [slot?]

/-- Access to a place never makes a list longer, and changes no other place. -/
theorem slot?_some (h : slot? ds i = some (d, put)) (d' : δ) :
    (put d').length = ds.length ∧ ∀ j, j ≠ i → (put d')[j]? = ds[j]? := by
  obtain ⟨_, -, hput⟩ := Option.map_eq_some_iff.1 h
  obtain ⟨-, rfl⟩ := Prod.mk.inj hput
  exact ⟨List.length_set, fun j hj => List.getElem?_set_ne hj.symm⟩

end Slots

end Buildable

/-- All texts are blank. -/
def allBlank (texts : List String) : Bool := texts.all Text.isBlank

/-- The texts that are not blank. -/
def dropBlank (texts : List String) : List String := texts.filter (!Text.isBlank ·)

/-- Reads a part from each of the elements. -/
def readAll {α : Type} (ofElement : Context → Version → Element → Outcome α) (ctx : Context)
    (v : Version) (es : List Element) : Outcome (List α) := es.mapM (ofElement ctx v)

/-- Reads a part from an element that may be absent. -/
def readOption {α : Type} (ofElement : Context → Version → Element → Outcome α) (ctx : Context)
    (v : Version) (e : Option Element) : Outcome (Option α) := e.mapM (ofElement ctx v)

end DiscoveryMetadata
