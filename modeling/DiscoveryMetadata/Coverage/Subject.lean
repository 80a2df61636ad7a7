import DiscoveryMetadata.Coverage.Keyword
import DiscoveryMetadata.Text.Basic
/-
  The subjects that a resource covers: keywords, categories, and the production metrics and
  non-state actors of later versions. Before version 4.0.1 they stand in a wrapper.
-/
namespace DiscoveryMetadata

open Xml (Element)

/-- The part of an analysis that a resource belongs to. -/
structure ProductionMetric extends Base where
  subject : String
  coverage : String
  security : SecurityAttributes
  deriving BEq, Inhabited

namespace ProductionMetric

/-- The rules of a production metric. -/
def rules (c : ProductionMetric) : Outcome Unit := do
  requireDdms c.element c.version "productionMetric"
  requireValue "subject attribute" c.subject
  requireValue "coverage attribute" c.coverage
  requireVersion c.version .v4_0_1 "ddms:productionMetric element"

/-- The warnings about the production metric. -/
def findings (c : ProductionMetric) : List Finding :=
  c.absorb c.security.warnings

/-- The production metric, if it keeps the rules, with the warnings about it. -/
def checked (c : ProductionMetric) : Outcome ProductionMetric := do
  c.check c.rules
  return { c with warnings := c.findings }

/-- Reads a production metric. -/
def ofElement (ctx : Context) (v : Version) (e : Element) : Outcome ProductionMetric := do
  let security ← within e.writtenName (SecurityAttributes.ofElement ctx v e)
  checked ⟨⟨e, v, []⟩, e.own "subject", e.own "coverage", security⟩

/-- Makes a production metric. -/
def make (ctx : Context) (v : Version) (subject coverage : String)
    (security : SecurityAttributes) : Outcome ProductionMetric := do
  let e := ((ctx.ddmsElement v "productionMetric").put (ctx.ddmsName v "subject") subject).put
    (ctx.ddmsName v "coverage") coverage
  let e ← within e.writtenName (security.addTo ctx v e)
  checked ⟨⟨e, v, []⟩, subject, coverage, security⟩

instance : Component ProductionMetric where
  base c := c.toBase
  security? c := some c.security
  lines c stem index :=
    let name := c.lineName stem index ++ "."
    Line.of (name ++ "subject") c.subject ++ Line.of (name ++ "coverage") c.coverage ++
      c.security.lines name
  output html c stem index :=
    let name := c.lineName stem index ++ "."
    Output.entry html (name ++ "subject") c.subject ++
      Output.entry html (name ++ "coverage") c.coverage ++ c.security.output html name

/-- The contents of a production metric to be made. -/
structure Draft where
  version : Option Version := none
  subject : String := ""
  coverage : String := ""
  security : SecurityAttributes.Draft := {}
  deriving BEq, Inhabited

instance : Buildable Draft ProductionMetric where
  isEmpty d := allBlank [d.subject, d.coverage] && d.security.isEmpty
  version? d := d.version
  build ctx v d := do make ctx v d.subject d.coverage (← d.security.commitAs ctx v)

/-- The draft that leads to the component again. -/
def toDraft (c : ProductionMetric) : Draft :=
  ⟨some c.version, c.subject, c.coverage, c.security.toDraft⟩

end ProductionMetric

/-- The place in an order that an attribute gives; an empty attribute gives none. -/
def orderOf (text : String) : Outcome (Option Int) :=
  if text.isEmpty then .ok none
  else match Text.int64? (Text.trim text) with
    | some n => .ok (some n)
    | none => .error (.rule "The order attribute must be an integer.")

/-- A place in an order as it is written. -/
def orderText (order : Option Int) : String := (order.map toString).getD ""

/-- An actor that is no state. -/
structure NonStateActor extends Base where
  value : String
  order : Option Int
  qualifier : String
  security : SecurityAttributes
  deriving BEq, Inhabited

namespace NonStateActor

/-- The rules of an actor. -/
def rules (c : NonStateActor) : Outcome Unit := do
  requireDdms c.element c.version "nonStateActor"
  ifPresent c.qualifier Uri.check
  requireVersion c.version .v4_1 "ddms:nonStateActor element"

/-- The warnings about the actor. -/
def findings (c : NonStateActor) : List Finding :=
  c.warnIf c.value.isEmpty "A ddms:nonStateActor element was found with no value." ++
  c.absorb c.security.warnings

/-- The actor, if it keeps the rules, with the warnings about it. -/
def checked (c : NonStateActor) : Outcome NonStateActor := do
  c.check c.rules
  return { c with warnings := c.findings }

/-- Reads an actor. -/
def ofElement (ctx : Context) (v : Version) (e : Element) : Outcome NonStateActor := do
  let order ← within e.writtenName (orderOf (e.own "order"))
  let security ← within e.writtenName (SecurityAttributes.ofElement ctx v e)
  checked ⟨⟨e, v, []⟩, e.content, order, e.own "qualifier", security⟩

/-- Makes an actor. -/
def make (ctx : Context) (v : Version) (value : String) (order : Option Int) (qualifier : String)
    (security : SecurityAttributes) : Outcome NonStateActor := do
  let e := ((ctx.textElement v "nonStateActor" value).put (ctx.ddmsName v "order")
    (orderText order)).put (ctx.ddmsName v "qualifier") qualifier
  let e ← within e.writtenName (security.addTo ctx v e)
  checked ⟨⟨e, v, []⟩, value, order, qualifier, security⟩

instance : Component NonStateActor where
  base c := c.toBase
  security? c := some c.security
  lines c stem index :=
    let name := c.lineName stem index ++ "."
    Line.of (name ++ "value") c.value ++ Line.of (name ++ "order") (orderText c.order) ++
      Line.of (name ++ "qualifier") c.qualifier ++ c.security.lines name
  output html c stem index :=
    let name := c.lineName stem index ++ "."
    Output.entry html (name ++ "value") c.value ++
      Output.entry html (name ++ "order") (orderText c.order) ++
      Output.entry html (name ++ "qualifier") c.qualifier ++ c.security.output html name

/-- The contents of an actor to be made. -/
structure Draft where
  version : Option Version := none
  value : String := ""
  order : Option Int := none
  qualifier : String := ""
  security : SecurityAttributes.Draft := {}
  deriving BEq, Inhabited

instance : Buildable Draft NonStateActor where
  isEmpty d := allBlank [d.value, d.qualifier] && d.order.isNone && d.security.isEmpty
  version? d := d.version
  build ctx v d := do make ctx v d.value d.order d.qualifier (← d.security.commitAs ctx v)

/-- The draft that leads to the component again. -/
def toDraft (c : NonStateActor) : Draft :=
  ⟨some c.version, c.value, c.order, c.qualifier, c.security.toDraft⟩

end NonStateActor

/-- The subjects of a resource. -/
structure SubjectCoverage extends Base where
  keywords : List Keyword
  categories : List Category
  productionMetrics : List ProductionMetric
  nonStateActors : List NonStateActor
  security : SecurityAttributes
  deriving BEq, Inhabited

namespace SubjectCoverage

/-- The wrapper of the content before version 4.0.1. -/
def wrapper : String := "Subject"

/-- The parts of the coverage. -/
def parts (c : SubjectCoverage) : List Base :=
  c.keywords.map (·.toBase) ++ c.categories.map (·.toBase) ++
    c.productionMetrics.map (·.toBase) ++ c.nonStateActors.map (·.toBase)

/-- The rules of the coverage. -/
def rules (c : SubjectCoverage) : Outcome Unit := do
  requireDdms c.element c.version "subjectCoverage"
  demand (c.element.holder? c.version wrapper).isSome (.rule "Subject element is required.")
  forbid (c.keywords.isEmpty && c.categories.isEmpty)
    (.rule "At least 1 keyword or category must exist.")
  c.requireSameVersions c.parts
  requireSecuritySince c.version .v3_0 c.security

/-- Two parts are written alike. -/
def hasDuplicates (parts : List Base) : Bool :=
  let written := parts.map (·.element.toXml)
  written.eraseDups.length != written.length

/-- What is said of parts that are written alike. -/
def duplicated (noun : String) : String := s!"1 or more {noun} have the same value."

/-- The warnings about the coverage. -/
def findings (c : SubjectCoverage) : List Finding :=
  let repeated := fun (parts : List Base) noun => c.warnIf (hasDuplicates parts) (duplicated noun)
  repeated (c.keywords.map (·.toBase)) "keywords" ++
  repeated (c.categories.map (·.toBase)) "categories" ++
  repeated (c.productionMetrics.map (·.toBase)) "productionMetrics" ++
  c.absorbAll c.parts ++ c.absorb c.security.warnings

/-- The coverage, if it keeps the rules, with the warnings about it. -/
def checked (c : SubjectCoverage) : Outcome SubjectCoverage := do
  c.check c.rules
  return { c with warnings := c.findings }

/-- Reads the coverage. Where the wrapper is missing, its content is looked for in the element
itself, so that a fault there is found first. -/
def ofElement (ctx : Context) (v : Version) (e : Element) : Outcome SubjectCoverage := do
  let holder := (e.holder? v wrapper).getD e
  let keywords ← within e.writtenName <| withinHolder holder wrapper
    (readAll Keyword.ofElement ctx v (holder.ownChildren "keyword"))
  let categories ← within e.writtenName <| withinHolder holder wrapper
    (readAll Category.ofElement ctx v (holder.ownChildren "category"))
  let metrics ← within e.writtenName <| withinHolder holder wrapper
    (readAll ProductionMetric.ofElement ctx v (holder.ownChildren "productionMetric"))
  let actors ← within e.writtenName <| withinHolder holder wrapper
    (readAll NonStateActor.ofElement ctx v (holder.ownChildren "nonStateActor"))
  let security ← within e.writtenName (SecurityAttributes.ofElement ctx v e)
  checked ⟨⟨e, v, []⟩, keywords, categories, metrics, actors, security⟩

/-- Makes the coverage. -/
def make (ctx : Context) (v : Version) (keywords : List Keyword) (categories : List Category)
    (metrics : List ProductionMetric) (actors : List NonStateActor)
    (security : SecurityAttributes) : Outcome SubjectCoverage := do
  let e := ctx.addWrapped v wrapper (keywords.map (·.element) ++ categories.map (·.element) ++
    metrics.map (·.element) ++ actors.map (·.element)) (ctx.ddmsElement v "subjectCoverage")
  let e ← within e.writtenName (security.addTo ctx v e)
  checked ⟨⟨e, v, []⟩, keywords, categories, metrics, actors, security⟩

instance : Component SubjectCoverage where
  base c := c.toBase
  security? c := some c.security
  lines c stem index :=
    let name := c.lineName stem index ++ "." ++
      (if c.version.atLeast .v4_0_1 then "" else wrapper ++ ".")
    Component.linesOfAll c.keywords name ++ Component.linesOfAll c.categories name ++
      Component.linesOfAll c.productionMetrics name ++
      Component.linesOfAll c.nonStateActors name ++ c.security.lines name
  output html c stem index :=
    let name := c.lineName stem index ++ "." ++
      (if c.version.atLeast .v4_0_1 then "" else wrapper ++ ".")
    Component.outputOfAll html c.keywords name ++ Component.outputOfAll html c.categories name ++
      Component.outputOfAll html c.productionMetrics name ++
      Component.outputOfAll html c.nonStateActors name ++ c.security.output html name

/-- The contents of the coverage to be made. -/
structure Draft where
  version : Option Version := none
  keywords : List Keyword.Draft := []
  categories : List Category.Draft := []
  productionMetrics : List ProductionMetric.Draft := []
  nonStateActors : List NonStateActor.Draft := []
  security : SecurityAttributes.Draft := {}
  deriving BEq, Inhabited

instance : Buildable Draft SubjectCoverage where
  isEmpty d :=
    Buildable.allEmpty d.keywords && Buildable.allEmpty d.categories &&
      Buildable.allEmpty d.productionMetrics && Buildable.allEmpty d.nonStateActors &&
      d.security.isEmpty
  version? d := d.version
  build ctx v d := do
    let keywords ← Buildable.commitAll ctx v d.keywords
    let categories ← Buildable.commitAll ctx v d.categories
    let metrics ← Buildable.commitAll ctx v d.productionMetrics
    let actors ← Buildable.commitAll ctx v d.nonStateActors
    make ctx v keywords categories metrics actors (← d.security.commitAs ctx v)

/-- The draft that leads to the component again. -/
def toDraft (c : SubjectCoverage) : Draft :=
  ⟨some c.version, c.keywords.map (·.toDraft), c.categories.map (·.toDraft),
    c.productionMetrics.map (·.toDraft), c.nonStateActors.map (·.toDraft), c.security.toDraft⟩

end SubjectCoverage

end DiscoveryMetadata
