import DiscoveryMetadata.Protection.Access
import DiscoveryMetadata.Protection.Notice
/-
  The security of a whole resource: its classification, the notices about it and the need-to-know
  rules. Since version 3.0 it says that its markings do not count in a roll-up.
-/
namespace DiscoveryMetadata

open Xml (Element)

/-- The security of a resource. -/
structure Security extends Base where
  excludeFromRollup : Option Bool
  noticeList : Option NoticeList
  access : Option Access
  security : SecurityAttributes
  deriving BEq, Inhabited

namespace Security

/-- The local name of the element. -/
def name : String := "security"

/-- The attribute that excludes the markings from a roll-up. -/
def rollupName : String := "excludeFromRollup"

/-- The one value of that attribute. -/
def rollupValue : String := "true"

/-- The parts of the security. -/
def parts (c : Security) : List Base :=
  (c.noticeList.map (·.toBase)).toList ++ (c.access.map (·.toBase)).toList

/-- The children with need-to-know rules, in a version that has them. -/
def accessElements (v : Version) (e : Element) : List Element :=
  match v.uriOf .ntk with
  | .ok uri => e.childrenNamed uri Access.name
  | .error _ => []

/-- The exclusion from a roll-up must be said since version 3.0, and can be said no sooner. -/
def checkRollup (c : Security) : Outcome Unit :=
  if c.version.atLeast .v3_0 then
    match c.excludeFromRollup with
    | none => .error (.rule "The excludeFromRollup attribute is required.")
    | some excluded => demand excluded
      (.rule s!"The excludeFromRollup attribute must have a fixed value of \"{rollupValue}\".")
  else demand c.excludeFromRollup.isNone (.tooEarly "excludeFromRollup attribute" "3.0")

/-- The rules of the security. -/
def rules (c : Security) : Outcome Unit := do
  requireDdms c.element c.version name
  requireChildren c.element "noticeList" 0 1
  requireCount "ntk:Access" (accessElements c.version c.element).length 0 1
  c.checkRollup
  c.requireSameVersions c.parts
  c.security.requireClassification

/-- The warnings about the security. -/
def findings (c : Security) : List Finding :=
  c.absorbAll c.parts ++ c.absorb c.security.warnings

/-- The security, if it keeps the rules, with the warnings about it. -/
def checked (c : Security) : Outcome Security := do
  c.check c.rules
  return { c with warnings := c.findings }

/-- Reads the security. -/
def ofElement (ctx : Context) (v : Version) (e : Element) : Outcome Security := do
  let noticeList ← within e.writtenName
    (readOption NoticeList.ofElement ctx v (e.child? v.ddmsUri "noticeList"))
  let access ← within e.writtenName
    (readOption Access.ofElement ctx v (accessElements v e).head?)
  let excluded := (e.attribute? (some v.ismUri) rollupName).map (· == rollupValue)
  let security ← within e.writtenName (SecurityAttributes.ofElement ctx v e)
  checked ⟨⟨e, v, []⟩, excluded, noticeList, access, security⟩

/-- Makes the security. -/
def make (ctx : Context) (v : Version) (noticeList : Option NoticeList) (access : Option Access)
    (security : SecurityAttributes) : Outcome Security := do
  let e := ctx.ddmsElement v name
  let e := if v.atLeast .v3_0 then e.setAttribute (ctx.ismName v rollupName) rollupValue else e
  let e := e.add ((noticeList.map (·.element)).toList ++ (access.map (·.element)).toList)
  let e ← within e.writtenName (security.addTo ctx v e)
  let excluded := if v.atLeast .v3_0 then some true else none
  checked ⟨⟨e, v, []⟩, excluded, noticeList, access, security⟩

instance : Component Security where
  base c := c.toBase
  security? c := some c.security
  lines c stem index :=
    let name := c.lineName stem index ++ "."
    (c.excludeFromRollup.map fun b => Line.mk (name ++ rollupName) (Text.ofTruth b)).toList ++
      Component.linesOfOption c.noticeList name ++ Component.linesOfOption c.access name ++
      c.security.lines name
  output html c stem index :=
    let name := c.lineName stem index ++ "."
    (c.excludeFromRollup.map fun b =>
        Output.always html (name ++ rollupName) (Text.ofTruth b)).getD "" ++
      Component.outputOfOption html c.noticeList name ++
      Component.outputOfOption html c.access name ++ c.security.output html name

/-- The contents of the security to be made. -/
structure Draft where
  version : Option Version := none
  noticeList : NoticeList.Draft := {}
  access : Access.Draft := {}
  security : SecurityAttributes.Draft := {}
  deriving BEq, Inhabited

instance : Buildable Draft Security where
  isEmpty d :=
    Buildable.isEmpty d.noticeList && Buildable.isEmpty d.access && d.security.isEmpty
  version? d := d.version
  build ctx v d := do
    let noticeList ← Buildable.commitAs ctx v d.noticeList
    let access ← Buildable.commitAs ctx v d.access
    make ctx v noticeList access (← d.security.commitAs ctx v)

/-- The draft that leads to the component again. -/
def toDraft (c : Security) : Draft :=
  ⟨some c.version, (c.noticeList.map (·.toDraft)).getD {}, (c.access.map (·.toDraft)).getD {},
    c.security.toDraft⟩

end Security

end DiscoveryMetadata
