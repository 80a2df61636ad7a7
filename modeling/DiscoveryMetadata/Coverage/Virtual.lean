import DiscoveryMetadata.Coverage.Keyword
/-
  The virtual space that a resource covers: an address and the protocol it is an address of.
-/
namespace DiscoveryMetadata

open Xml (Element)

/-- A virtual space. -/
structure VirtualCoverage extends Base where
  address : String
  protocol : String
  security : SecurityAttributes
  deriving BEq, Inhabited

namespace VirtualCoverage

/-- The rules of a virtual coverage. -/
def rules (c : VirtualCoverage) : Outcome Unit := do
  requireDdms c.element c.version "virtualCoverage"
  ifPresent c.address fun _ => requireValue "protocol" c.protocol
  requireSecuritySince c.version .v3_0 c.security

/-- The warnings about the coverage. -/
def findings (c : VirtualCoverage) : List Finding :=
  c.warnIf (c.address.isEmpty && c.protocol.isEmpty)
    "A completely empty ddms:virtualCoverage element was found." ++
  c.absorb c.security.warnings

/-- The coverage, if it keeps the rules, with the warnings about it. -/
def checked (c : VirtualCoverage) : Outcome VirtualCoverage := do
  c.check c.rules
  return { c with warnings := c.findings }

/-- Reads a coverage. -/
def ofElement (ctx : Context) (v : Version) (e : Element) : Outcome VirtualCoverage := do
  let security ← within e.writtenName (SecurityAttributes.ofElement ctx v e)
  checked ⟨⟨e, v, []⟩, e.own "address", e.own "protocol", security⟩

/-- Makes a coverage. -/
def make (ctx : Context) (v : Version) (address protocol : String)
    (security : SecurityAttributes) : Outcome VirtualCoverage := do
  let e := ((ctx.ddmsElement v "virtualCoverage").put (ctx.ddmsName v "address") address).put
    (ctx.ddmsName v "protocol") protocol
  let e ← within e.writtenName (security.addTo ctx v e)
  checked ⟨⟨e, v, []⟩, address, protocol, security⟩

instance : Component VirtualCoverage where
  base c := c.toBase
  security? c := some c.security
  lines c stem index :=
    let name := c.lineName stem index ++ "."
    Line.of (name ++ "address") c.address ++ Line.of (name ++ "protocol") c.protocol ++
      c.security.lines name
  output html c stem index :=
    let name := c.lineName stem index ++ "."
    Output.entry html (name ++ "address") c.address ++
      Output.entry html (name ++ "protocol") c.protocol ++ c.security.output html name

/-- The contents of a coverage to be made. -/
structure Draft where
  version : Option Version := none
  address : String := ""
  protocol : String := ""
  security : SecurityAttributes.Draft := {}
  deriving BEq, Inhabited

instance : Buildable Draft VirtualCoverage where
  isEmpty d := allBlank [d.address, d.protocol] && d.security.isEmpty
  version? d := d.version
  build ctx v d := do make ctx v d.address d.protocol (← d.security.commitAs ctx v)

/-- The draft that leads to the component again. -/
def toDraft (c : VirtualCoverage) : Draft :=
  ⟨some c.version, c.address, c.protocol, c.security.toDraft⟩

end VirtualCoverage

end DiscoveryMetadata
