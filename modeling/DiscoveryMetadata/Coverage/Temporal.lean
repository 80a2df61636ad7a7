import DiscoveryMetadata.Coverage.Keyword
import DiscoveryMetadata.Record.Dates
/-
  The time that a resource covers: a named period between two bounds. Before version 4.0.1 the
  content stands in a wrapper. Since version 4.1 a bound may be an approximable date.
-/
namespace DiscoveryMetadata

open Xml (Element)

/-- The start or the end of a period. -/
inductive TimeBound where
  | exact (value : String)
  | approximate (date : ApproximableDate)
  deriving BEq, Inhabited

/-- A period of time. -/
structure TemporalCoverage extends Base where
  /-- The name as it was given; it may be there and be empty. -/
  given : Option String
  start : Option TimeBound
  finish : Option TimeBound
  security : SecurityAttributes
  deriving BEq, Inhabited

namespace TemporalCoverage

/-- The wrapper of the content before version 4.0.1. -/
def wrapper : String := "TimePeriod"

/-- What stands for a name or bound that is not known. -/
def unknown : String := "Unknown"

/-- The words that may stand where there is no date. -/
def substitutes : List String := ["Not Applicable", unknown]

/-- Refuses a bound that is neither a date nor one of the words for none. -/
def checkBound (value : String) : Outcome Unit :=
  demand (substitutes.contains value || (Calendar.kind? value).isSome)
    (.rule ("If no date is specified, the value must be one of " ++ ", ".intercalate substitutes))

/-- The value of an exact bound, empty for any other. -/
def exactText (bound : Option TimeBound) : String :=
  match bound with
  | some (.exact value) => value
  | _ => ""

/-- The approximable date of a bound. -/
def date? (bound : Option TimeBound) : Option ApproximableDate :=
  match bound with
  | some (.approximate date) => some date
  | _ => none

/-- The name of the period. -/
def timePeriodName (c : TemporalCoverage) : String :=
  match c.given with
  | some name => if name.isEmpty then unknown else name
  | none => ""

/-- The approximable dates among the bounds. -/
def parts (c : TemporalCoverage) : List Base :=
  ([c.start, c.finish].filterMap date?).map (·.toBase)

/-- Refuses a bound that does not fit into the period. -/
def checkFit (b : Base) (bound : TimeBound) : Outcome Unit :=
  match bound with
  | .exact value => checkBound value
  | .approximate date => b.requireSameVersion date.toBase

/-- The rules of the content. -/
def contentRules (c : TemporalCoverage) (holder : Element) : Outcome Unit := do
  let count := fun name => (holder.ownChildren name).length
  requireCount "ddms:name" (count "name") 0 1
  if c.version.atLeast .v4_1 then
    requireCount "start or approximableStart" (count "start" + count "approximableStart") 1 1
    requireCount "end or approximableEnd" (count "end" + count "approximableEnd") 1 1
  else
    requireCount "ddms:start" (count "start") 1 1
    requireCount "ddms:end" (count "end") 1 1
  ([c.start, c.finish].filterMap id).forM (checkFit c.toBase)
  forbid (Calendar.isAfter (exactText c.start) (exactText c.finish))
    (.rule "The start date is after the end date.")

/-- The rules of a temporal coverage. -/
def rules (c : TemporalCoverage) : Outcome Unit := do
  requireDdms c.element c.version "temporalCoverage"
  match c.element.holder? c.version wrapper with
  | none => throw (.rule s!"{wrapper} element is required.")
  | some holder =>
    withinHolder holder wrapper (c.contentRules holder)
    requireSecuritySince c.version .v3_0 c.security

/-- The warnings about the coverage. -/
def findings (c : TemporalCoverage) : List Finding :=
  c.warnIf (c.given == some "")
    s!"A ddms:name element was found with no value. Defaulting to \"{unknown}\"." ++
  c.absorbAll c.parts ++ c.absorb c.security.warnings

/-- The coverage, if it keeps the rules, with the warnings about it. -/
def checked (c : TemporalCoverage) : Outcome TemporalCoverage := do
  c.check c.rules
  return { c with warnings := c.findings }

/-- Reads a bound: the exact one if it is there. -/
def readBound (ctx : Context) (v : Version) (holder : Element) (exact approximate : String) :
    Outcome (Option TimeBound) :=
  match holder.ownChild? exact with
  | some child => .ok (some (.exact child.content))
  | none => do
    let date ← readOption ApproximableDate.ofElement ctx v (holder.ownChild? approximate)
    return date.map .approximate

/-- Reads a bound from the element that holds the content, which may be absent. -/
def readBoundIn (ctx : Context) (v : Version) (holder : Option Element)
    (exact approximate : String) : Outcome (Option TimeBound) :=
  match holder with
  | some h => withinHolder h wrapper (readBound ctx v h exact approximate)
  | none => .ok none

/-- Reads a coverage. -/
def ofElement (ctx : Context) (v : Version) (e : Element) : Outcome TemporalCoverage := do
  let holder := e.holder? v wrapper
  let start ← within e.writtenName (readBoundIn ctx v holder "start" "approximableStart")
  let finish ← within e.writtenName (readBoundIn ctx v holder "end" "approximableEnd")
  let security ← within e.writtenName (SecurityAttributes.ofElement ctx v e)
  let name := (holder.bind (·.ownChild? "name")).map (·.content)
  checked ⟨⟨e, v, []⟩, name, start, finish, security⟩

/-- A bound with the word for an unknown one in place of a blank one. -/
def defaulted (bound : TimeBound) : TimeBound :=
  match bound with
  | .exact value => .exact (if Text.isBlank value then unknown else value)
  | .approximate date => .approximate date

/-- The element of a bound. -/
def boundElement (ctx : Context) (v : Version) (localName : String) (bound : TimeBound) :
    Element :=
  match bound with
  | .exact value => ctx.textElement v localName value
  | .approximate date => date.element

/-- Makes a coverage. -/
def make (ctx : Context) (v : Version) (name : String) (start finish : TimeBound)
    (security : SecurityAttributes) : Outcome TemporalCoverage := do
  let start := defaulted start
  let finish := defaulted finish
  let content := ctx.textElements v "name" name ++
    [boundElement ctx v "start" start, boundElement ctx v "end" finish]
  let e := ctx.addWrapped v wrapper content (ctx.ddmsElement v "temporalCoverage")
  let e ← within e.writtenName (security.addTo ctx v e)
  let given := if name.isEmpty then none else some name
  checked ⟨⟨e, v, []⟩, given, some start, some finish, security⟩

/-- Makes a coverage between two dates. -/
def ofDates (ctx : Context) (v : Version) (name start finish : String)
    (security : SecurityAttributes) : Outcome TemporalCoverage :=
  make ctx v name (.exact start) (.exact finish) security

/-- The lines of a bound. -/
def boundLines (stem localName : String) (bound : Option TimeBound) : List Line :=
  match bound with
  | some (.exact value) => [⟨stem ++ localName, value⟩]
  | some (.approximate date) => Component.lines date stem ""
  | none => []

/-- The output of a bound. -/
def boundOutput (html : Bool) (stem localName : String) (bound : Option TimeBound) : String :=
  match bound with
  | some (.exact value) => Output.always html (stem ++ localName) value
  | some (.approximate date) => Component.output html date stem ""
  | none => ""

instance : Component TemporalCoverage where
  base c := c.toBase
  security? c := some c.security
  lines c stem index :=
    let name := c.lineName stem index ++ "." ++
      (if c.version.atLeast .v4_0_1 then "" else wrapper ++ ".")
    Line.of (name ++ "name") c.timePeriodName ++ boundLines name "start" c.start ++
      boundLines name "end" c.finish ++ c.security.lines name
  output html c stem index :=
    let name := c.lineName stem index ++ "." ++
      (if c.version.atLeast .v4_0_1 then "" else wrapper ++ ".")
    Output.entry html (name ++ "name") c.timePeriodName ++ boundOutput html name "start" c.start ++
      boundOutput html name "end" c.finish ++ c.security.output html name

/-- The contents of a coverage to be made; an exact bound counts before an approximable one. -/
structure Draft where
  version : Option Version := none
  timePeriodName : String := ""
  startText : String := ""
  endText : String := ""
  approximableStart : ApproximableDate.Draft := { name := "approximableStart" }
  approximableEnd : ApproximableDate.Draft := { name := "approximableEnd" }
  security : SecurityAttributes.Draft := {}
  deriving BEq, Inhabited

namespace Draft

/-- Makes a bound. -/
def bound (ctx : Context) (v : Version) (text : String) (approximable : ApproximableDate.Draft) :
    Outcome TimeBound := do
  if Text.isBlank text then
    match ← Buildable.commitAs ctx v approximable with
    | some date => return .approximate date
    | none => return .exact text
  else return .exact text

end Draft

instance : Buildable Draft TemporalCoverage where
  isEmpty d :=
    allBlank [d.timePeriodName, d.startText, d.endText] &&
      Buildable.isEmpty d.approximableStart && Buildable.isEmpty d.approximableEnd &&
      d.security.isEmpty
  version? d := d.version
  build ctx v d := do
    let start ← Draft.bound ctx v d.startText d.approximableStart
    let finish ← Draft.bound ctx v d.endText d.approximableEnd
    make ctx v d.timePeriodName start finish (← d.security.commitAs ctx v)

/-- The draft that leads to the component again. -/
def toDraft (c : TemporalCoverage) : Draft :=
  let d : Draft :=
    { version := some c.version, timePeriodName := c.given.getD "", startText := exactText c.start
      endText := exactText c.finish, security := c.security.toDraft }
  { d with
    approximableStart := ((date? c.start).map (·.toDraft)).getD d.approximableStart
    approximableEnd := ((date? c.finish).map (·.toDraft)).getD d.approximableEnd }

end TemporalCoverage

end DiscoveryMetadata
