import DiscoveryMetadata.Files
import DiscoveryMetadata.Pattern.Parser
import DiscoveryMetadata.Version
import DiscoveryMetadata.Xml.Strict
/-
  Controlled vocabularies: for each version and each key, the tokens that an attribute may hold.

  A table lists tokens and patterns; a token belongs to it if it is listed or a pattern matches
  all of it. Tables are read from XML files that carry each entry in a `Value` element.
-/
namespace DiscoveryMetadata

/-- The tokens of one key in one version. -/
structure Table where
  tokens : List String := []
  patterns : List String := []
  deriving DecidableEq, Repr, Inhabited

/-- Tables by version and key. -/
structure Vocabulary where
  tables : List ((Version × String) × Table) := []
  deriving Inhabited

namespace Table

/-- The pattern that matches a token as a whole. -/
def whole (pattern : String) : String := "^(?:" ++ pattern ++ ")$"

/-- The table with these tokens and with patterns for whole tokens. -/
def ofLists (tokens patterns : List String) : Table := ⟨tokens, patterns.map whole⟩

/-- The token belongs to the table. -/
def contains (t : Table) (token : String) : Bool :=
  t.tokens.contains token ||
    t.patterns.any fun p => (Pattern.Regex.ofText? p).any (·.finds token)

/-- The namespace of the files that hold tables. -/
def cveUri : String := "urn:us:gov:ic:cve"

/-- A file that is no table. -/
def malformed : Fault := .configuration "Invalid vocabulary file"

/-- A pattern that cannot be read. -/
def malformedPattern : Fault := .configuration "Invalid vocabulary pattern"

/-- Adds the entry that a node carries. -/
def addEntry (t : Table) (n : Xml.Node) : Outcome Table :=
  let entry := Text.trim n.leadingText
  if !n.name?.any (·.isNamed cveUri "Value") || entry.isEmpty then .ok t
  else if n.attribute? "regularExpression" = some "true" then
    if (Pattern.Regex.ofText? (whole entry)).isSome then
      .ok { t with patterns := t.patterns ++ [whole entry] }
    else .error malformedPattern
  else if t.tokens.contains entry then .ok t
  else .ok { t with tokens := t.tokens ++ [entry] }

/-- The table in a file. -/
def ofXml (xml : String) : Outcome Table :=
  match Xml.Node.ofXml? xml with
  | none => .error malformed
  | some root => root.all.foldlM addEntry {}

end Table

namespace Vocabulary

/-! The keys of the vocabularies. -/
namespace Key

def classification : String := "CVEnumISMClassificationAll"
def ownerProducer : String := "CVEnumISMOwnerProducer"
def releasableTo : String := "CVEnumISMRelTo"
def sciControls : String := "CVEnumISMSCIControls"
def dissemination : String := "CVEnumISMDissem"
def nonIc : String := "CVEnumISMNonIC"
def sar : String := "CVEnumISMSAR"
def notice : String := "CVEnumISMNotice"
def declassException : String := "CVEnumISM25X"
def atomicEnergy : String := "CVEnumISMAtomicEnergyMarkings"
def nonUsControls : String := "CVEnumISMNonUSControls"
def fgiOpen : String := "CVEnumISMFGIOpen"
def fgiProtected : String := "CVEnumISMFGIProtected"
def compliesWith : String := "CVEnumISMCompliesWith"
def pocType : String := "CVEnumISMPocType"
def sourceMarked : String := "CVEnumISMSourceMarked"

end Key

/-- The keys that a version has vocabularies for. -/
def keysOf (v : Version) : List String :=
  [Key.declassException, Key.classification, Key.dissemination, Key.fgiOpen, Key.fgiProtected,
    Key.nonIc, Key.ownerProducer, Key.releasableTo, Key.sar, Key.sciControls] ++
  (if v.atLeast .v3_1 then [Key.atomicEnergy, Key.compliesWith, Key.nonUsControls]
    else [Key.sourceMarked]) ++
  (if v.atLeast .v4_0_1 then [Key.notice, Key.pocType] else [])

/-- Where the table of a key lies below a directory. -/
def path (dir : String) (v : Version) (key : String) : String :=
  Files.join (Files.join dir v.number) (key ++ ".xml")

/-- Reads one table from below a directory. -/
def loadTable (files : Files) (dir : String) (v : Version) (key : String) : Outcome Table :=
  let file := path dir v key
  match files file with
  | .ok text => Table.ofXml text
  | .error reason =>
    .error (.configuration s!"Could not load controlled vocabularies: {file}: {reason}")

/-- The tables of all versions, by version and key. -/
def wanted : List (Version × String) :=
  Version.all.flatMap fun v => (keysOf v).map fun k => (v, k)

/-- Where the tables lie below a directory. -/
def paths (dir : String) : List String := wanted.map fun (v, k) => path dir v k

/-- Reads the tables of all versions from below a directory. -/
def load (files : Files) (dir : String) : Outcome Vocabulary := do
  let tables ← wanted.mapM fun (v, k) => do
    let t ← loadTable files dir v k
    return ((v, k), t)
  return ⟨tables⟩

/-- The table of a key in a version. -/
def table (voc : Vocabulary) (key : String) (v : Version) : Outcome Table :=
  match voc.tables.lookup (v, key) with
  | some t => .ok t
  | none =>
    .error (.illegalArgument s!"No controlled vocabulary could be found for this key: {key}")

/-- The token belongs to the vocabulary of the key in this version. -/
def contains (voc : Vocabulary) (key token : String) (v : Version) : Outcome Bool := do
  let t ← voc.table key v
  return t.contains token

end Vocabulary

end DiscoveryMetadata
