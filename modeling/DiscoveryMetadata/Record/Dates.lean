import DiscoveryMetadata.Component.Basic
/-
  Dates of a resource, exact and approximable.

  An approximable date can say in words when something happened, give a date with the closeness it
  has, and give a range to search in.
-/
namespace DiscoveryMetadata

open Xml (Element)

/-- A date that may be known only roughly. -/
structure ApproximableDate extends Base where
  /-- The words; none if there is no element for them. -/
  described : Option String
  date : String
  approximation : String
  searchableStart : String
  searchableEnd : String
  deriving BEq, Inhabited

namespace ApproximableDate

/-- How close a date can be. -/
def approximations : List String :=
  ["1st qtr", "2nd qtr", "3rd qtr", "4th qtr", "circa", "early", "mid", "late"]

/-- The names that the element of an approximable date can have. -/
def names : List String := ["acquiredOn", "approximableStart", "approximableEnd"]

/-- Refuses a closeness that is not known. -/
def checkApproximation (approximation : String) : Outcome Unit :=
  demand (approximations.contains approximation)
    (.rule ("The approximation must be one of " ++ ", ".intercalate approximations))

/-- The words, empty if there are none. -/
def description (c : ApproximableDate) : String := c.described.getD ""

/-- Refuses a text that is no date. -/
def checkDate (text : String) : Outcome Unit := do let _ ← Calendar.requireKind text

/-- The rules of an approximable date. -/
def rules (c : ApproximableDate) : Outcome Unit := do
  let name := c.localName
  demand (names.contains name)
    (.rule ("The element name must be one of " ++ ", ".intercalate names))
  requireDdms c.element c.version name
  requireVersion c.version .v4_1 s!"ddms:{name} element"
  ifPresent c.date checkDate
  ifPresent c.approximation checkApproximation
  ifPresent c.searchableStart checkDate
  ifPresent c.searchableEnd checkDate
  forbid (Calendar.isAfter c.searchableStart c.searchableEnd)
    (.rule "The start date is after the end date.")

/-- The warnings about the date. -/
def findings (c : ApproximableDate) : List Finding :=
  c.warnIf (c.description.isEmpty && c.date.isEmpty && c.approximation.isEmpty)
    ("A completely empty " ++ c.writtenName ++ " element was found.") ++
  c.warnIf (c.described == some "") "A completely empty ddms:description element was found."

/-- The date, if it keeps the rules, with the warnings about it. -/
def checked (c : ApproximableDate) : Outcome ApproximableDate := do
  c.check c.rules
  return { c with warnings := c.findings }

/-- Reads an approximable date. -/
def ofElement (_ : Context) (v : Version) (e : Element) : Outcome ApproximableDate :=
  let date := e.ownChild? "approximableDate"
  let window := e.ownChild? "searchableDate"
  checked ⟨⟨e, v, []⟩, (e.ownChild? "description").map (·.content),
    (date.map (·.content)).getD "", (date.map (·.own "approximation")).getD "",
    (window.map (·.ownText "start")).getD "", (window.map (·.ownText "end")).getD ""⟩

/-- The element of the date with its closeness, unless neither is given. -/
def dateElements (ctx : Context) (v : Version) (date approximation : String) : List Element :=
  if date.isEmpty && approximation.isEmpty then []
  else [(ctx.textElement v "approximableDate" date).put (ctx.ddmsName v "approximation")
    approximation]

/-- The element of the range to search in, unless no end of it is given. -/
def windowElements (ctx : Context) (v : Version) (searchableStart searchableEnd : String) :
    List Element :=
  if searchableStart.isEmpty && searchableEnd.isEmpty then []
  else [(ctx.ddmsElement v "searchableDate").add
    [ctx.textElement v "start" searchableStart, ctx.textElement v "end" searchableEnd]]

/-- Makes an approximable date; the name says which of the possible elements it is. -/
def make (ctx : Context) (v : Version) (name description date approximation searchableStart
    searchableEnd : String) : Outcome ApproximableDate :=
  ofElement ctx v ((ctx.ddmsElement v name).add
    (ctx.textElements v "description" description ++ dateElements ctx v date approximation ++
      windowElements ctx v searchableStart searchableEnd))

instance : Component ApproximableDate where
  base c := c.toBase
  security? _ := none
  lines c stem index :=
    let name := c.lineName stem index ++ "."
    Line.of (name ++ "description") c.description ++
      Line.of (name ++ "approximableDate") c.date ++
      Line.of (name ++ "approximableDate.approximation") c.approximation ++
      Line.of (name ++ "searchableDate.start") c.searchableStart ++
      Line.of (name ++ "searchableDate.end") c.searchableEnd
  output html c stem index :=
    let name := c.lineName stem index ++ "."
    Output.entry html (name ++ "description") c.description ++
      Output.entry html (name ++ "approximableDate") c.date ++
      Output.entry html (name ++ "approximableDate.approximation") c.approximation ++
      Output.entry html (name ++ "searchableDate.start") c.searchableStart ++
      Output.entry html (name ++ "searchableDate.end") c.searchableEnd

/-- The contents of an approximable date to be made. -/
structure Draft where
  version : Option Version := none
  name : String := "acquiredOn"
  description : String := ""
  date : String := ""
  approximation : String := ""
  searchableStart : String := ""
  searchableEnd : String := ""
  deriving BEq, Inhabited

instance : Buildable Draft ApproximableDate where
  isEmpty d :=
    allBlank [d.description, d.date, d.approximation, d.searchableStart, d.searchableEnd]
  version? d := d.version
  build ctx v d :=
    make ctx v d.name d.description d.date d.approximation d.searchableStart d.searchableEnd

/-- The draft that leads to the component again. -/
def toDraft (c : ApproximableDate) : Draft :=
  ⟨some c.version, c.localName, c.description, c.date, c.approximation, c.searchableStart,
    c.searchableEnd⟩

end ApproximableDate

/-- The exact dates in the life of a resource. -/
structure DateValues where
  created : String := ""
  posted : String := ""
  validTil : String := ""
  infoCutOff : String := ""
  approvedOn : String := ""
  receivedOn : String := ""
  deriving DecidableEq, Inhabited

namespace DateValues

/-- The dates with their names and the versions since which they can be given. -/
def entries (d : DateValues) : List (String × Version × String) :=
  [("created", .v2_0, d.created), ("posted", .v2_0, d.posted), ("validTil", .v2_0, d.validTil),
   ("infoCutOff", .v2_0, d.infoCutOff), ("approvedOn", .v3_1, d.approvedOn),
   ("receivedOn", .v4_0_1, d.receivedOn)]

/-- Makes the dates from what is found under each name. -/
def ofNames (find : String → String) : DateValues :=
  ⟨find "created", find "posted", find "validTil", find "infoCutOff", find "approvedOn",
    find "receivedOn"⟩

/-- The names of the dates before which "an" is said instead of "a". -/
def article (name : String) : String :=
  if name.startsWith "a" || name.startsWith "i" then "an" else "a"

/-- Refuses a date that is none, or that the version does not have yet. -/
def checkEntry (v : Version) (name : String) (since : Version) (value : String) : Outcome Unit :=
  ifPresent value fun text => do
    ApproximableDate.checkDate text
    demand (v.atLeast since) (.rule ("This component cannot have " ++ article name ++ " " ++ name ++
      " date until DDMS " ++ since.number ++ " or later."))

end DateValues

/-- The dates of a resource. -/
structure Dates extends Base where
  acquiredOns : List ApproximableDate
  values : DateValues
  deriving BEq, Inhabited

namespace Dates

/-- The rules of dates. -/
def rules (c : Dates) : Outcome Unit := do
  requireDdms c.element c.version "dates"
  c.requireSameVersions (c.acquiredOns.map (·.toBase))
  c.values.entries.forM fun (name, since, value) =>
    DateValues.checkEntry c.version name since value
  demand (c.acquiredOns.isEmpty || c.version.atLeast .v4_1)
    (.rule "This component cannot have an acquiredOn date until DDMS 4.1 or later.")

/-- The warnings about the dates. -/
def findings (c : Dates) : List Finding :=
  c.warnIf (c.values.entries.all (·.2.2.isEmpty) && c.acquiredOns.isEmpty)
    "A completely empty ddms:dates element was found." ++
  c.absorbAll (c.acquiredOns.map (·.toBase))

/-- The dates, if they keep the rules, with the warnings about them. -/
def checked (c : Dates) : Outcome Dates := do
  c.check c.rules
  return { c with warnings := c.findings }

/-- Reads dates. -/
def ofElement (ctx : Context) (v : Version) (e : Element) : Outcome Dates := do
  let acquiredOns ← within e.writtenName
    (readAll ApproximableDate.ofElement ctx v (e.ownChildren "acquiredOn"))
  checked ⟨⟨e, v, []⟩, acquiredOns, DateValues.ofNames e.own⟩

/-- Makes dates. -/
def make (ctx : Context) (v : Version) (acquiredOns : List ApproximableDate)
    (values : DateValues) : Outcome Dates :=
  let e := values.entries.foldl (fun e (name, _, value) => e.put (ctx.ddmsName v name) value)
    (ctx.ddmsElement v "dates")
  checked ⟨⟨e.add (acquiredOns.map (·.element)), v, []⟩, acquiredOns, values⟩

instance : Component Dates where
  base c := c.toBase
  security? _ := none
  lines c stem index :=
    let name := c.lineName stem index ++ "."
    Component.linesOfAll c.acquiredOns name ++
      c.values.entries.flatMap fun (n, _, value) => Line.of (name ++ n) value
  output html c stem index :=
    let name := c.lineName stem index ++ "."
    Component.outputOfAll html c.acquiredOns name ++
      Output.pairs html name (c.values.entries.map fun (n, _, value) => (n, value))

/-- The contents of dates to be made. -/
structure Draft where
  version : Option Version := none
  acquiredOns : List ApproximableDate.Draft := []
  values : DateValues := {}
  deriving BEq, Inhabited

instance : Buildable Draft Dates where
  isEmpty d :=
    Buildable.allEmpty d.acquiredOns && allBlank (d.values.entries.map (·.2.2))
  version? d := d.version
  build ctx v d := do make ctx v (← Buildable.commitAll ctx v d.acquiredOns) d.values

/-- The draft that leads to the component again. -/
def toDraft (c : Dates) : Draft := ⟨some c.version, c.acquiredOns.map (·.toDraft), c.values⟩

end Dates

end DiscoveryMetadata
