import DiscoveryMetadata.Text.Names
import DiscoveryMetadata.Version
/-
  The configuration: the namespace prefixes to write, the version to assume where none is given,
  where the controlled vocabularies lie, and whether a value outside its vocabulary is a fault or
  only a warning.
-/
namespace DiscoveryMetadata

/-- The prefix to write for each schema. -/
structure Prefixes where
  ddms : String := "ddms"
  ism : String := "ISM"
  ntk : String := "ntk"
  gml : String := "gml"
  xlink : String := "xlink"
  virt : String := "virt"
  deriving DecidableEq, Repr, Inhabited

namespace Prefixes

/-- The prefix of a schema. -/
def of (p : Prefixes) : Schema → String
  | .ddms => p.ddms
  | .ism => p.ism
  | .ntk => p.ntk
  | .gml => p.gml
  | .xlink => p.xlink
  | .virt => p.virt

end Prefixes

/-- What can be configured. -/
structure Configuration where
  prefixes : Prefixes := {}
  defaultVersion : String := Version.latest.number
  vocabularyLocation : Option String := none
  /-- A value outside its vocabulary is a fault. -/
  strict : Bool := true
  deriving DecidableEq, Repr, Inhabited

namespace Configuration

/-- A text that cannot be read as a configuration. -/
def malformed : Fault := .configuration "Invalid configuration"

/-- The default version of a usable configuration: its number is known, and each prefix is a name
without a colon. -/
def check (c : Configuration) : Outcome Version := do
  let version ← Version.ofText c.defaultVersion
  Schema.all.forM fun s =>
    let p := c.prefixes.of s
    demand (Text.isNCName p) (.configuration s!"\"{p}\" is not a usable namespace prefix.")
  return version

end Configuration

end DiscoveryMetadata
