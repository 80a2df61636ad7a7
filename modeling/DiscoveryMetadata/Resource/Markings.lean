import DiscoveryMetadata.Calendar
import DiscoveryMetadata.Component.Checks
import DiscoveryMetadata.Component.Line
import DiscoveryMetadata.Text.Basic
/-
  The markings on a resource as a whole: that it is one, the day it was created, and the versions
  of the marking and need-to-know rules that it follows. All are required since version 3.0.
-/
namespace DiscoveryMetadata

open Xml (Element)

/-- The markings on a resource. -/
structure Markings where
  resourceElement : Option Bool := none
  createDate : String := ""
  ismVersion : Option Int := none
  ntkVersion : Option Int := none
  deriving DecidableEq, Inhabited

namespace Markings

/-- The version of the marking rules that a version of DDMS fixes. -/
def fixedIsm? : Version → Option Int
  | .v2_0 | .v3_0 | .v4_0_1 => none
  | .v3_1 => some 5
  | .v4_1 | .v5_0 => some 9

/-- The version of the need-to-know rules that a version of DDMS fixes. -/
def fixedNtk? : Version → Option Int
  | .v2_0 | .v3_0 | .v3_1 => none
  | .v4_0_1 => some 5
  | .v4_1 | .v5_0 => some 7

/-- The version of the marking rules to use with a version of DDMS. -/
def defaultIsm (v : Version) : Int := (fixedIsm? v).getD (if v = .v3_0 then 2 else 5)

/-- The markings of a resource that is created on a day. -/
def ofDate (v : Version) (createDate : String) : Markings :=
  if v.atLeast .v3_0 then ⟨some true, createDate, some (defaultIsm v), fixedNtk? v⟩ else {}

/-- The attribute with the version of a set of rules. -/
def versionName : String := "DESVersion"

/-- Reads the version of a set of rules from the attribute in the namespace of the rules. -/
def versionOf (e : Element) (uri : String) : Outcome (Option Int) :=
  (e.attribute? (some uri) versionName).mapM fun text =>
    match Text.int64? (Text.trim text) with
    | some n => .ok n
    | none => .error (.rule s!"The DESVersion must be an integer: {text}")

/-- Reads the version of the need-to-know rules, in a version of DDMS that has them. -/
def ntkVersionOf (v : Version) (e : Element) : Outcome (Option Int) :=
  match v.uriOf .ntk with
  | .ok uri => versionOf e uri
  | .error _ => .ok none

/-- Reads whether an element says that it is a resource. -/
def flagOf (v : Version) (e : Element) : Outcome (Option Bool) :=
  (e.attribute? (some v.ismUri) "resourceElement").mapM fun text =>
    match Text.truth? text with
    | some b => .ok b
    | none => .error (.notBoolean "resourceElement")

/-- Reads the markings from the element of a resource. -/
def ofElement (v : Version) (e : Element) : Outcome Markings := do
  let ism ← versionOf e v.ismUri
  let ntk ← ntkVersionOf v e
  let flag ← flagOf v e
  return ⟨flag, e.attributeText v.ismUri "createDate", ism, ntk⟩

/-- Puts the markings on the element of a resource. -/
def addTo (ctx : Context) (v : Version) (m : Markings) (e : Element) : Outcome Element := do
  let text := fun (n : Option Int) => (n.map toString).getD ""
  let e := e.put (ctx.ismName v "resourceElement") ((m.resourceElement.map Text.ofTruth).getD "")
  let e := e.put (ctx.ismName v "createDate") m.createDate
  let e := e.put (ctx.ismName v versionName) (text m.ismVersion)
  ctx.putIn v .ntk versionName (text m.ntkVersion) e

/-- Refuses a version of rules that is not the fixed one. -/
def checkFixed (v : Version) (name : String) (given : Int) (fixed : Option Int) : Outcome Unit :=
  match fixed with
  | some n => demand (given = n)
      (.rule s!"The {name}:DESVersion must be {n} in DDMS {v.number} resources.")
  | none => .ok ()

/-- The version of a set of rules, which must be there. -/
def requireVersion (name : String) (n : Option Int) : Outcome Int :=
  match n with
  | some n => .ok n
  | none => .error (.required name)

/-- The rules of the markings since version 3.0. -/
def check (v : Version) (m : Markings) : Outcome Unit := do
  demand m.resourceElement.isSome (.required "resourceElement")
  forbid m.createDate.isEmpty (.required "createDate")
  demand (Calendar.isDate m.createDate) (.notDate "createDate")
  let ism ← requireVersion "DESVersion" m.ismVersion
  checkFixed v "ISM" ism (fixedIsm? v)
  if v.atLeast .v4_0_1 then
    let ntk ← requireVersion "ntk:DESVersion" m.ntkVersion
    checkFixed v "ntk" ntk (fixedNtk? v)

/-- The lines of the markings under a stem. -/
def lines (m : Markings) (stem : String) : List Line :=
  let always := fun name (text : Option String) => (text.map (Line.mk (stem ++ name))).toList
  always "resourceElement" (m.resourceElement.map Text.ofTruth) ++
    Line.of (stem ++ "createDate") m.createDate ++
    always "ism.DESVersion" (m.ismVersion.map toString) ++
    always "ntk.DESVersion" (m.ntkVersion.map toString)

/-- The output of the markings under a stem. -/
def output (html : Bool) (m : Markings) (stem : String) : String :=
  let always := fun name (text : Option String) =>
    (text.map (Output.always html (stem ++ name))).getD ""
  always "resourceElement" (m.resourceElement.map Text.ofTruth) ++
    Output.entry html (stem ++ "createDate") m.createDate ++
    always "ism.DESVersion" (m.ismVersion.map toString) ++
    always "ntk.DESVersion" (m.ntkVersion.map toString)

end Markings

end DiscoveryMetadata
