import DiscoveryMetadata.Resource
import DiscoveryMetadata.Xml.Strict
/-
  Reports of outside rule passes, and the findings in them.

  A rule pass is run by an engine that is not part of this library: it takes the path of the rules
  and a document, and gives a report in the Schematron validation report language.
-/
namespace DiscoveryMetadata

/-- What runs a rule pass: takes the path of the rules and the document, gives the report. -/
abbrev RuleEngine := String → String → Outcome String

namespace Report

/-- The namespace of reports. -/
def svrlUri : String := "http://purl.oclc.org/dsdl/svrl"

/-- A text that cannot be read as a report. -/
def malformed : Fault := .xml "Invalid SVRL report"

/-- The text of the first child with the local name `text`. -/
def sentence (n : Xml.Node) : String :=
  match n.children.find? fun c => c.name?.any (·.localName == "text") with
  | some c => Text.trim c.leadingText
  | none => ""

/-- The finding that a node states, if it states one: a failed assertion is an error and a
successful report a warning. -/
def finding? (n : Xml.Node) : Option Finding :=
  let place := (n.attribute? "location").getD ""
  if n.name?.any (·.isNamed svrlUri "failed-assert") then some (.error (sentence n) place)
  else if n.name?.any (·.isNamed svrlUri "successful-report") then
    some (.warning (sentence n) place)
  else none

/-- The findings in a report, in the order in which they stand there. -/
def findings (report : String) : Outcome (List Finding) :=
  match Xml.Node.ofXml? report with
  | none => .error malformed
  | some root => .ok (root.all.filterMap finding?)

end Report

/-- The findings of a rule pass over a resource. -/
def Resource.applyRules (engine : RuleEngine) (rules : String) (r : Resource) :
    Outcome (List Finding) := do
  Report.findings (← engine rules r.element.toXml)

end DiscoveryMetadata
