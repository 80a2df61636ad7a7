import DiscoveryMetadata.Resource
/-
  What a component writes, and its lines.

  A component writes its entries in one of two formats. `Line.write` writes lines in a format, and
  `write_append` lets it go through all that lines are put together from. So the output of a
  component is what `Line.write` makes of its lines, whatever the format (`Described`), as soon as
  this is so for the components in it.
-/
namespace DiscoveryMetadata

variable {html : Bool}

namespace Line

/-- The lines as they are written in HTML or in plain text. -/
def write (html : Bool) (ls : List Line) : String :=
  if html then allHtml ls else allText ls

@[simp]
theorem write_nil : write html [] = "" := by
  cases html <;> rfl

@[simp]
theorem write_cons (l : Line) (ls : List Line) :
    write html (l :: ls) = Output.always html l.name l.content ++ write html ls := by
  cases html <;> exact String.join_cons

@[simp]
theorem write_append (ls ms : List Line) :
    write html (ls ++ ms) = write html ls ++ write html ms := by
  induction ls with
  | nil => simp
  | cons l ls ih => rw [List.cons_append, write_cons, write_cons, ih, String.append_assoc]

theorem write_singleton (name content : String) :
    write html [⟨name, content⟩] = Output.always html name content := by
  rw [write_cons, write_nil, String.append_empty]

@[simp]
theorem write_of (name content : String) :
    write html (of name content) = Output.entry html name content := by
  unfold of Output.entry
  split
  · exact write_nil
  · exact write_singleton name content

theorem write_flatMap {α : Type} (f : α → List Line) (as : List α) :
    write html (as.flatMap f) = String.join (as.map fun a => write html (f a)) := by
  induction as with
  | nil => exact write_nil
  | cons a as ih => rw [List.flatMap_cons, write_append, ih, List.map_cons, String.join_cons]

@[simp]
theorem write_ofAll (name : String) (contents : List String) :
    write html (ofAll name contents) = Output.entries html name contents := by
  rw [ofAll, write_flatMap, Output.entries]
  simp only [write_of]

/-- A line that is written even if its content is empty, where there is one. -/
@[simp]
theorem write_option {α : Type} (f : α → Line) (o : Option α) :
    write html (o.map f).toList =
      (o.map fun a => Output.always html (f a).name (f a).content).getD "" := by
  cases o with
  | none => exact write_nil
  | some a => exact write_singleton (f a).name (f a).content

/-- Lines that come from something that may be absent. -/
@[simp]
theorem write_getD {α : Type} (f : α → List Line) (o : Option α) :
    write html ((o.map f).getD []) = (o.map fun a => write html (f a)).getD "" := by
  cases o with
  | none => exact write_nil
  | some a => rfl

/-- Named contents under a stem. -/
@[simp]
theorem write_pairs (stem : String) (contents : List (String × String)) :
    write html (contents.flatMap fun (name, c) => of (stem ++ name) c) =
      Output.pairs html stem contents := by
  rw [write_flatMap, Output.pairs]
  simp only [write_of]

end Line

/-- The kinds of components of which the output is what is made of their lines. -/
class Described (α : Type) [Component α] : Prop where
  output_eq : ∀ (html : Bool) (c : α) (stem index : String),
    Component.output html c stem index = Line.write html (Component.lines c stem index)

namespace Component

variable {α : Type} [Component α] [Described α]

theorem toText_eq (c : α) : toText c = Line.allText (lines c "" "") :=
  Described.output_eq false c "" ""

theorem toHtml_eq (c : α) : toHtml c = Line.allHtml (lines c "" "") :=
  Described.output_eq true c "" ""

@[simp]
theorem write_lines (c : α) (stem index : String) :
    Line.write html (lines c stem index) = output html c stem index :=
  (Described.output_eq html c stem index).symm

@[simp]
theorem write_linesOfAll (cs : List α) (stem : String) :
    Line.write html (linesOfAll cs stem) = outputOfAll html cs stem := by
  rw [linesOfAll, Line.write_flatMap, outputOfAll]
  simp only [write_lines]

@[simp]
theorem write_linesOfOption (c : Option α) (stem : String) :
    Line.write html (linesOfOption c stem) = outputOfOption html c stem := by
  cases c with
  | none => exact Line.write_nil
  | some c => exact write_lines c stem ""

end Component

section Groups

variable (stem : String)

@[simp]
theorem SecurityAttributes.write_lines (a : SecurityAttributes) :
    Line.write html (a.lines stem) = a.output html stem :=
  Line.write_pairs stem a.values

@[simp]
theorem NoticeAttributes.write_lines (a : NoticeAttributes) :
    Line.write html (a.lines stem) = a.output html stem :=
  Line.write_pairs stem a.pairs

@[simp]
theorem LinkAttributes.write_lines (a : LinkAttributes) :
    Line.write html (a.lines stem) = a.output html stem :=
  Line.write_pairs stem a.pairs

@[simp]
theorem SrsAttributes.write_lines (a : SrsAttributes) :
    Line.write html (a.lines stem) = a.output html stem :=
  Line.write_pairs stem a.pairs

@[simp]
theorem ExtensibleAttributes.write_lines (a : ExtensibleAttributes) :
    Line.write html (a.lines stem) = a.output html stem := by
  rw [lines, output, ← Line.write_pairs, List.flatMap_map]

@[simp]
theorem Markings.write_lines (m : Markings) :
    Line.write html (m.lines stem) = m.output html stem := by
  simp only [lines, output, Line.write_append, Line.write_option, Line.write_of]

@[simp]
theorem Contact.write_nameLines (c : Contact) :
    Line.write html (c.nameLines stem) = c.nameOutput html stem :=
  Line.write_ofAll (stem ++ "name") c.names

@[simp]
theorem Contact.write_reachLines (c : Contact) :
    Line.write html (c.reachLines stem) = c.reachOutput html stem := by
  rw [reachLines, Line.write_append, Line.write_ofAll, Line.write_ofAll, reachOutput]

@[simp]
theorem Measure.write_line (name : String) (x : Option Double) :
    Line.write html (Measure.line name x) = Measure.output html name x :=
  Line.write_of name _

end Groups

end DiscoveryMetadata
