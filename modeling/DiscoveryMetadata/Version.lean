import DiscoveryMetadata.Fault
import DiscoveryMetadata.Text.Basic
/-
  The versions of the DDMS schemas and the namespaces that each of them uses.

  Versions are ordered by age. Two of them, 4.0.1 and 4.1, share one namespace, so a namespace
  alone does not always tell the version.
-/
namespace DiscoveryMetadata

/-- The schemas that a document draws on. -/
inductive Schema where
  | ddms
  | ism
  | ntk
  | gml
  | xlink
  | virt
  deriving DecidableEq, Repr, Inhabited

namespace Schema

/-- All schemas. -/
def all : List Schema := [ddms, ism, ntk, gml, xlink, virt]

/-- The short name of a schema. -/
def name : Schema → String
  | ddms => "ddms"
  | ism => "ism"
  | ntk => "ntk"
  | gml => "gml"
  | xlink => "xlink"
  | virt => "virt"

end Schema

/-- A version of the DDMS schemas. -/
inductive Version where
  | v2_0
  | v3_0
  | v3_1
  | v4_0_1
  | v4_1
  | v5_0
  deriving DecidableEq, Repr

namespace Version

/-- The youngest version. -/
def latest : Version := v5_0

instance : Inhabited Version := ⟨latest⟩

/-- All versions, the oldest first. -/
def all : List Version := [v2_0, v3_0, v3_1, v4_0_1, v4_1, v5_0]

/-- The place of a version among all. -/
def rank : Version → Nat
  | v2_0 => 0
  | v3_0 => 1
  | v3_1 => 2
  | v4_0_1 => 3
  | v4_1 => 4
  | v5_0 => 5

/-- The version is `minimum` or younger. -/
def atLeast (v minimum : Version) : Bool := minimum.rank ≤ v.rank

/-- The number of a version. -/
def number : Version → String
  | v2_0 => "2.0"
  | v3_0 => "3.0"
  | v3_1 => "3.1"
  | v4_0_1 => "4.0.1"
  | v4_1 => "4.1"
  | v5_0 => "5.0"

instance : ToString Version := ⟨number⟩

/-- The version with this number; blanks around it do not matter, and 4.0 stands for 4.0.1. -/
def ofText (text : String) : Outcome Version :=
  let t := Text.trim text
  match if t = "4.0" then some v4_0_1 else all.find? (·.number = t) with
  | some v => .ok v
  | none => .error (.unsupported s!"DDMS Version {t} is not yet supported.")

/-- The namespace of the DDMS elements themselves. -/
def ddmsUri : Version → String
  | v2_0 => "http://metadata.dod.mil/mdr/ns/DDMS/2.0/"
  | v3_0 => "http://metadata.dod.mil/mdr/ns/DDMS/3.0/"
  | v3_1 => "http://metadata.dod.mil/mdr/ns/DDMS/3.1/"
  | v4_0_1 | v4_1 => "urn:us:mil:ces:metadata:ddms:4"
  | v5_0 => "urn:us:mil:ces:metadata:ddms:5"

/-- The namespace of the security markings. -/
def ismUri : Version → String
  | v2_0 => "urn:us:gov:ic:ism:v2"
  | _ => "urn:us:gov:ic:ism"

/-- The namespace of the geographic shapes. -/
def gmlUri : Version → String
  | v2_0 => "http://www.opengis.net/gml"
  | _ => "http://www.opengis.net/gml/3.2"

/-- The namespace of the need-to-know rules. -/
def ntkUri : String := "urn:us:gov:ic:ntk"

/-- The namespace of links, the same in all versions. -/
def xlinkUri : String := "http://www.w3.org/1999/xlink"

/-- The namespace of virtual addresses. -/
def virtUri : String := "urn:us:gov:ic:virt"

/-- A schema that a version does not draw on has no namespace in it. -/
def undefinedSchema (v : Version) (s : Schema) : Fault :=
  .unsupported s!"The {s.name} namespace is not defined in DDMS {v.number}."

/-- The namespace of a schema in a version. -/
def uriOf (v : Version) : Schema → Outcome String
  | .ddms => .ok v.ddmsUri
  | .ism => .ok v.ismUri
  | .ntk => if v.atLeast v4_0_1 then .ok ntkUri else .error (v.undefinedSchema .ntk)
  | .gml => .ok v.gmlUri
  | .xlink => .ok xlinkUri
  | .virt => if v.atLeast v5_0 then .ok virtUri else .error (v.undefinedSchema .virt)

/-- Where the schema of a version is kept. -/
def schemaLocation (v : Version) : String :=
  let file := v.number.map fun c => if c = '.' then '_' else c
  s!"/schemas/{v.number}/DDMS/DDMS-v{file}.xsd"

/-- The namespace is that of the DDMS elements in some version. -/
def isDdmsUri (uri : String) : Bool := all.any (·.ddmsUri == uri)

/-- The version whose DDMS elements have this namespace: the preferred one if it fits, else the
youngest that does. -/
def ofUri (preferred : Version) (uri : String) : Outcome Version :=
  match (preferred :: all.reverse).find? (·.ddmsUri == uri) with
  | some v => .ok v
  | none => .error (.unsupported s!"Unsupported DDMS namespace: {uri}")

end Version

end DiscoveryMetadata
