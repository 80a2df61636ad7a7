import DiscoveryMetadata.Fault
/-
  Classification markings: the two systems they belong to and how high each ranks in its system.
-/
namespace DiscoveryMetadata

/-- The system that a marking belongs to. -/
inductive MarkingSystem where
  | us
  | nato
  deriving DecidableEq, Repr

namespace Marking

/-- The markings of the United States, the lowest first. -/
def us : List String := ["U", "C", "S", "TS"]

/-- The markings of NATO, the lowest first. -/
def nato : List String :=
  ["NU", "R", "NR", "NC", "NCA", "NS", "NSAT", "CTS", "CTS-B", "CTS-BALK", "CTSA"]

/-- The markings whose rank only a person can tell. -/
def underReview : List String := ["CTS-B", "CTS-BALK", "R"]

/-- The system of a marking. -/
def system? (marking : String) : Option MarkingSystem :=
  if us.contains marking then some .us
  else if nato.contains marking then some .nato
  else none

/-- Only a person can tell the rank of the marking. -/
def needsReview (marking : String) : Bool := underReview.contains marking

/-- The rank of a marking in its system, or -1 if it has none that is known. -/
def rank (marking : String) : Int :=
  if needsReview marking then -1
  else match us.idxOf? marking <|> nato.idxOf? marking with
    | some i => i
    | none => -1

end Marking

namespace Network

/-- The networks that a resource can be found on. -/
def all : List String :=
  ["NIPRNet", "SIPRNet", "JWICS", "ADSN", "StoneGhost", "LOCE", "CRONOS"]

/-- Refuses the name of a network that is not known. -/
def check (name : String) : Outcome Unit :=
  demand (all.contains name) (.notOneOf "network" all)

end Network

end DiscoveryMetadata
