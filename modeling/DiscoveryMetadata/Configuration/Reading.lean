import DiscoveryMetadata.Configuration
import DiscoveryMetadata.Data.Toml
import DiscoveryMetadata.Files
/-
  Reading configurations from TOML and JSON.

  What a text does not set keeps its default, and settings that are not known are passed over. A
  group of settings may also be written as a list of its values in their order.
-/
namespace DiscoveryMetadata

open Data (Value)

namespace Configuration

/-- The settings of a configuration, in their order. -/
def settings : List String :=
  ["prefixes", "default_version", "vocabulary_location", "validation_as_errors"]

/-- The settings of the prefixes, in their order. -/
def prefixSettings : List String := ["ddms", "ism", "ntk", "gml", "xlink", "virt"]

/-- The values of a group of settings. A setting is not given twice. A list gives no more values
than there are settings, unless `surplus` allows it. -/
def group? (names : List String) (surplus : Bool) : Value → Option (String → Option Value)
  | .record es =>
    if names.any fun n => 1 < (es.filter (·.1 == n)).length then none else some fun n => es.lookup n
  | .list vs =>
    if surplus || vs.length ≤ names.length then some fun n => (names.zip vs).lookup n else none
  | _ => none

/-- The text of a setting; `unset` if it is not given. -/
def textOr? (unset : String) : Option Value → Option String
  | none => some unset
  | some v => v.text?

/-- The prefixes that a value sets. -/
def prefixesOf? (surplus : Bool) (v : Value) : Option Prefixes := do
  let find ← group? prefixSettings surplus v
  let unset : Prefixes := {}
  return {
    ddms := ← textOr? unset.ddms (find "ddms")
    ism := ← textOr? unset.ism (find "ism")
    ntk := ← textOr? unset.ntk (find "ntk")
    gml := ← textOr? unset.gml (find "gml")
    xlink := ← textOr? unset.xlink (find "xlink")
    virt := ← textOr? unset.virt (find "virt") }

/-- The place of the vocabularies that a setting names; it may name none. -/
def locationOf? : Option Value → Option (Option String)
  | none | some .null => some none
  | some v => v.text?.map some

/-- Whether vocabularies bind, by a setting. -/
def strictOf? : Option Value → Option Bool
  | none => some true
  | some v => v.truth?

/-- The configuration that a value sets. -/
def ofValue? (surplus : Bool) (v : Value) : Option Configuration := do
  let find ← group? settings surplus v
  let prefixes ← match find "prefixes" with
    | none => some {}
    | some v => prefixesOf? surplus v
  let defaultVersion ← textOr? Version.latest.number (find "default_version")
  let vocabularyLocation ← locationOf? (find "vocabulary_location")
  let strict ← strictOf? (find "validation_as_errors")
  return { prefixes, defaultVersion, vocabularyLocation, strict }

/-- The outcome of reading a configuration. -/
def orMalformed (c : Option Configuration) : Outcome Configuration :=
  match c with
  | some c => .ok c
  | none => .error malformed

/-- Reads a configuration from TOML. -/
def ofToml (text : String) : Outcome Configuration :=
  orMalformed ((Data.Toml.ofText? text).bind (ofValue? true))

/-- Reads a configuration from JSON. -/
def ofJson (text : String) : Outcome Configuration :=
  orMalformed ((Data.Json.ofText? text).bind (ofValue? false))

/-- Reads a configuration from a file, which holds JSON if its name ends so, else TOML. -/
def ofFile (files : Files) (path : String) : Outcome Configuration :=
  match files path with
  | .error reason =>
    .error (.configuration s!"Failed to read configuration '{path}': {reason}")
  | .ok text => if Files.extension? path = some "json" then ofJson text else ofToml text

end Configuration

end DiscoveryMetadata
