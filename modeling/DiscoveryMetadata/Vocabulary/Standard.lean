import DiscoveryMetadata.Vocabulary.Basic
/-
  The standard vocabularies, by key and version. Most lists are the same in all versions that have
  them.
-/
namespace DiscoveryMetadata.Vocabulary

namespace Standard

/-- Reasons for which information stays classified beyond its term. -/
def declassExceptions : List String :=
  ["25X1", "25X1-human", "25X2", "25X3", "25X4", "25X5", "25X6", "25X7", "25X8", "25X9",
   "25X1-EO-12951", "50X1-HUM", "50X2-WMD", "AEA", "NATO", "NATO-AEA"]

/-- Classifications of version 2.0. -/
def classificationsOf2 : List String :=
  ["U", "C", "S", "TS", "R", "CTS", "CTS-B", "CTS-BALK", "CTSA", "NU", "NR", "NC", "NCA", "NS",
   "NSAT", "NS-S", "NS-A"]

/-- Classifications since version 3.0. -/
def classifications : List String :=
  ["U", "C", "S", "TS", "R", "CTS", "CTS-B", "CTS-BALK", "CTSA", "NU", "NR", "NC", "NCA", "NS",
   "NSAT"]

/-- Limits on dissemination up to version 3.0. -/
def disseminationsTo3_0 : List String :=
  ["RS", "FOUO", "OC", "OC-USGOV", "IMC", "NF", "PR", "REL", "RELIDO", "EYES", "DSEN", "FISA"]

/-- Limits on dissemination since version 3.1. -/
def disseminations : List String :=
  ["RS", "FOUO", "OC", "OC-USGOV", "IMC", "NF", "PR", "REL", "RELIDO", "EYES", "DSEN", "FISA",
   "DISPLAYONLY"]

/-- Governments whose information may be named as such. -/
def fgiOpen : List String :=
  ["UNKNOWN", "AUS", "CAN", "GBR", "NZL", "FRA", "DEU", "NATO", "EU", "UN"]

/-- Governments whose information must not be named as such. -/
def fgiProtected : List String :=
  ["FGI", "AUS", "CAN", "GBR", "NZL", "FRA", "DEU", "NATO"]

/-- Markings from outside the intelligence community. -/
def nonIc : List String :=
  ["DS", "XD", "ND", "SBU", "SBU-NF", "LES", "LES-NF", "SSI", "NNPI"]

/-- Governments and organizations that own or produce information. -/
def ownerProducers : List String :=
  ["USA", "AUS", "CAN", "GBR", "NZL", "FRA", "DEU", "ITA", "ESP", "NLD", "NOR", "DNK", "JPN",
   "KOR", "ISR", "ACGU", "FVEY", "NATO", "NACT", "TEYE", "EU", "UN"]

/-- Governments and organizations to which information can be released. -/
def releasableTo : List String :=
  ["USA", "AUS", "CAN", "GBR", "NZL", "FRA", "DEU", "ITA", "ESP", "NLD", "NOR", "DNK", "JPN",
   "KOR", "ISR", "ACGU", "FVEY", "NATO", "NACT", "TEYE", "EU", "UN"]

/-- Identifiers of special access programs. -/
def sarPatterns : List String :=
  ["[A-Z][A-Z0-9\\-]\x7b1,29\x7d"]

/-- Controls on compartmented information. -/
def sciControls : List String :=
  ["EL", "EL-EU", "EL-NK", "HCS", "HCS-O", "HCS-P", "KDK", "KDK-BLFH", "KDK-IDIT", "KDK-KAND",
   "RSV", "SI", "SI-G", "TK"]

/-- Controls on compartmented information that carry a compartment. -/
def sciPatterns : List String :=
  ["SI-G-[A-Z]\x7b4\x7d", "SI-ECI-[A-Z]\x7b3\x7d", "TK-[A-Z]\x7b3,4\x7d"]

/-- Kinds of sources exempted from declassification, up to version 3.0. -/
def sourceMarked : List String :=
  ["OADR", "X1", "X2", "X3", "X4", "X5", "X6", "X7", "X8"]

/-- Markings of the Atomic Energy Act. -/
def atomicEnergy : List String :=
  ["RD", "RD-CNWDI", "FRD", "DCNI", "UCNI", "TFNI"]

/-- Markings of the Atomic Energy Act that carry a number. -/
def atomicEnergyPatterns : List String :=
  ["RD-SG-[0-9]\x7b1,2\x7d", "FRD-SG-[0-9]\x7b1,2\x7d"]

/-- Rule sets of version 3.1. -/
def compliesWithOf3_1 : List String :=
  ["USGov", "USIC"]

/-- Rule sets since version 4.0.1. -/
def compliesWith : List String :=
  ["USGov", "USIC", "USDOD", "OtherAuthority"]

/-- Controls of other governments. -/
def nonUsControls : List String :=
  ["ATOMAL", "BOHEMIA", "BALK"]

/-- Kinds of notices. -/
def noticeTypes : List String :=
  ["FISA", "IMC", "CNWDI", "RD", "FRD", "DS", "LES", "LES-NF", "DSEN", "POC", "COMSEC",
   "DoD-Dist-A", "DoD-Dist-B", "DoD-Dist-C", "DoD-Dist-D", "DoD-Dist-E", "DoD-Dist-F",
   "DoD-Dist-X", "US-Person", "PII"]

/-- Kinds of points of contact. -/
def pocTypes : List String :=
  ["ICD-710", "DoD5230.24", "DoD-Dist-B", "DoD-Dist-C", "DoD-Dist-D", "DoD-Dist-E", "DoD-Dist-F",
   "DoD-Dist-X"]

/-- The table of a key in a version. -/
def table (version : Version) (key : String) : Table :=
  let old := !version.atLeast .v3_1
  if key = Key.declassException then ⟨declassExceptions, []⟩
  else if key = Key.classification then
    ⟨if version.atLeast .v3_0 then classifications else classificationsOf2, []⟩
  else if key = Key.dissemination then
    ⟨if old then disseminationsTo3_0 else disseminations, []⟩
  else if key = Key.fgiOpen then ⟨fgiOpen, []⟩
  else if key = Key.fgiProtected then ⟨fgiProtected, []⟩
  else if key = Key.nonIc then ⟨nonIc, []⟩
  else if key = Key.ownerProducer then ⟨ownerProducers, []⟩
  else if key = Key.releasableTo then ⟨releasableTo, []⟩
  else if key = Key.sar then .ofLists [] sarPatterns
  else if key = Key.sciControls then .ofLists sciControls sciPatterns
  else if key = Key.sourceMarked then ⟨sourceMarked, []⟩
  else if key = Key.atomicEnergy then .ofLists atomicEnergy atomicEnergyPatterns
  else if key = Key.compliesWith then
    ⟨if version.atLeast .v4_0_1 then compliesWith else compliesWithOf3_1, []⟩
  else if key = Key.nonUsControls then ⟨nonUsControls, []⟩
  else if key = Key.notice then ⟨noticeTypes, []⟩
  else ⟨pocTypes, []⟩

end Standard

/-- The vocabularies that are used where no others are configured. -/
def standard : Vocabulary :=
  ⟨Version.all.flatMap fun v => (keysOf v).map fun k => ((v, k), Standard.table v k)⟩

end DiscoveryMetadata.Vocabulary
