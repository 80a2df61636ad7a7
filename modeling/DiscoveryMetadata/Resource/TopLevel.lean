import DiscoveryMetadata.Coverage.Geospatial
import DiscoveryMetadata.Coverage.Temporal
import DiscoveryMetadata.Coverage.Virtual
import DiscoveryMetadata.Management
import DiscoveryMetadata.Protection.Security
import DiscoveryMetadata.Record.Format
import DiscoveryMetadata.Record.Plain
import DiscoveryMetadata.Relation
import DiscoveryMetadata.Resource.ExtensibleElement
import DiscoveryMetadata.Role.Producer
/-
  The components that stand directly in a resource, and the order they stand in.
-/
namespace DiscoveryMetadata

open Xml (Element)

/-- A component of any kind that can stand directly in a resource. -/
inductive TopLevel where
  | identifier (c : Identifier)
  | caption (c : Caption)
  | language (c : Language)
  | dates (c : Dates)
  | rights (c : Rights)
  | source (c : Source)
  | resourceType (c : ResourceType)
  | producer (c : ProducerRole)
  | format (c : Format)
  | subject (c : SubjectCoverage)
  | virtual (c : VirtualCoverage)
  | temporal (c : TemporalCoverage)
  | geospatial (c : GeospatialCoverage)
  | related (c : RelatedResource)
  | management (c : Management)
  | security (c : Security)
  | extensible (c : ExtensibleElement)
  deriving BEq, Inhabited

namespace TopLevel

/-- What the component has as such. -/
def base : TopLevel → Base
  | identifier c => c.toBase
  | caption c => c.toBase
  | language c => c.toBase
  | dates c => c.toBase
  | rights c => c.toBase
  | source c => c.toBase
  | resourceType c => c.toBase
  | producer c => c.toBase
  | format c => c.toBase
  | subject c => c.toBase
  | virtual c => c.toBase
  | temporal c => c.toBase
  | geospatial c => c.toBase
  | related c => c.toBase
  | management c => c.toBase
  | security c => c.toBase
  | extensible c => c.toBase

/-- The security attributes of the component, if its kind has them. -/
def security? : TopLevel → Option SecurityAttributes
  | identifier c => Component.security? c
  | caption c => Component.security? c
  | language c => Component.security? c
  | dates c => Component.security? c
  | rights c => Component.security? c
  | source c => Component.security? c
  | resourceType c => Component.security? c
  | producer c => Component.security? c
  | format c => Component.security? c
  | subject c => Component.security? c
  | virtual c => Component.security? c
  | temporal c => Component.security? c
  | geospatial c => Component.security? c
  | related c => Component.security? c
  | management c => Component.security? c
  | security c => Component.security? c
  | extensible c => Component.security? c

/-- The lines of the component. -/
def lines (t : TopLevel) (stem index : String) : List Line :=
  match t with
  | identifier c => Component.lines c stem index
  | caption c => Component.lines c stem index
  | language c => Component.lines c stem index
  | dates c => Component.lines c stem index
  | rights c => Component.lines c stem index
  | source c => Component.lines c stem index
  | resourceType c => Component.lines c stem index
  | producer c => Component.lines c stem index
  | format c => Component.lines c stem index
  | subject c => Component.lines c stem index
  | virtual c => Component.lines c stem index
  | temporal c => Component.lines c stem index
  | geospatial c => Component.lines c stem index
  | related c => Component.lines c stem index
  | management c => Component.lines c stem index
  | security c => Component.lines c stem index
  | extensible c => Component.lines c stem index

/-- The output of the component. -/
def output (html : Bool) (t : TopLevel) (stem index : String) : String :=
  match t with
  | identifier c => Component.output html c stem index
  | caption c => Component.output html c stem index
  | language c => Component.output html c stem index
  | dates c => Component.output html c stem index
  | rights c => Component.output html c stem index
  | source c => Component.output html c stem index
  | resourceType c => Component.output html c stem index
  | producer c => Component.output html c stem index
  | format c => Component.output html c stem index
  | subject c => Component.output html c stem index
  | virtual c => Component.output html c stem index
  | temporal c => Component.output html c stem index
  | geospatial c => Component.output html c stem index
  | related c => Component.output html c stem index
  | management c => Component.output html c stem index
  | security c => Component.output html c stem index
  | extensible c => Component.output html c stem index

instance : Component TopLevel where
  base := base
  security? := security?
  lines := lines
  output := output

/-- The place of the component's kind in the order of a resource. -/
def rank : TopLevel → Nat
  | identifier _ => 0
  | caption c =>
    match c.kind with
    | .title => 1
    | .subtitle => 2
    | .description => 3
  | language _ => 4
  | dates _ => 5
  | rights _ => 6
  | source _ => 7
  | resourceType _ => 8
  | producer c =>
    match c.kind with
    | .creator => 9
    | .publisher => 10
    | .contributor => 11
    | .pointOfContact => 12
  | format _ => 13
  | subject _ => 14
  | virtual _ => 15
  | temporal _ => 16
  | geospatial _ => 17
  | related _ => 18
  | management _ => 19
  | security _ => 20
  | extensible _ => 21

/-- Puts a component in front of the first that does not rank lower. -/
def place (t : TopLevel) : List TopLevel → List TopLevel
  | [] => [t]
  | s :: r => if t.rank ≤ s.rank then t :: s :: r else s :: place t r

/-- The components in the order of a resource; those of one rank keep their order. -/
def inOrder (ts : List TopLevel) : List TopLevel := ts.foldr place []

/-- The local name of the element of a resource. -/
def resourceName (v : Version) : String := if v.atLeast .v4_0_1 then "resource" else "Resource"

/-- What is said of an element that no component of a resource has. -/
def outOfPlace (v : Version) (e : Element) : Fault :=
  .rule s!"{e.writtenName} is not a valid top-level component in a {resourceName v}."

/-- Reads a component from an element in the namespace of DDMS. -/
def ofDdmsElement (ctx : Context) (v : Version) (e : Element) : Outcome TopLevel :=
  match e.localName with
  | "identifier" => (Identifier.ofElement ctx v e).map identifier
  | "language" => (Language.ofElement ctx v e).map language
  | "dates" => (Dates.ofElement ctx v e).map dates
  | "rights" => (Rights.ofElement ctx v e).map rights
  | "source" => (Source.ofElement ctx v e).map source
  | "type" => (ResourceType.ofElement ctx v e).map resourceType
  | "format" => (Format.ofElement ctx v e).map format
  | "subjectCoverage" => (SubjectCoverage.ofElement ctx v e).map subject
  | "virtualCoverage" => (VirtualCoverage.ofElement ctx v e).map virtual
  | "temporalCoverage" => (TemporalCoverage.ofElement ctx v e).map temporal
  | "geospatialCoverage" => (GeospatialCoverage.ofElement ctx v e).map geospatial
  | "security" => (Security.ofElement ctx v e).map security
  | name =>
    if name = "resourceManagement" && v.atLeast .v4_0_1 then
      (Management.ofElement ctx v e).map management
    else if name = RelatedResource.name v then (RelatedResource.ofElement ctx v e).map related
    else if (Caption.Kind.ofName? name).isSome then (Caption.ofElement ctx v e).map caption
    else if (ProducerRole.Kind.ofName? name).isSome then
      (ProducerRole.ofElement ctx v e).map producer
    else .error (outOfPlace v e)

/-- Reads a component; an element outside the namespace of DDMS is an extensible one. -/
def ofElement (ctx : Context) (v : Version) (e : Element) : Outcome TopLevel :=
  if e.name.uri == some v.ddmsUri then ofDdmsElement ctx v e
  else (ExtensibleElement.ofElement ctx v e).map extensible

end TopLevel

end DiscoveryMetadata
