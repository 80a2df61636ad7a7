import DiscoveryMetadata.Calendar
import DiscoveryMetadata.Component.Checks
import DiscoveryMetadata.Component.Line
import DiscoveryMetadata.Text.Basic
/-
  Notice attributes: the kind of a notice, its reason and its date.
-/
namespace DiscoveryMetadata

open Xml (Element)

/-- The notice attributes of one component. -/
structure NoticeAttributes where
  version : Version
  noticeType : String := ""
  noticeReason : String := ""
  noticeDate : String := ""
  unregisteredNoticeType : String := ""
  externalNotice : Option Bool := none
  warnings : List Finding := []
  deriving Inhabited

namespace NoticeAttributes

/-- Groups are equal when their values are. -/
instance : BEq NoticeAttributes where
  beq a b := a.noticeType == b.noticeType && a.noticeReason == b.noticeReason &&
    a.noticeDate == b.noticeDate && a.unregisteredNoticeType == b.unregisteredNoticeType &&
    a.externalNotice == b.externalNotice

/-- No attributes. -/
def empty (v : Version) : NoticeAttributes := { version := v }

/-- There are no attributes. -/
def isEmpty (a : NoticeAttributes) : Bool :=
  a.noticeType.isEmpty && a.noticeReason.isEmpty && a.noticeDate.isEmpty &&
    a.unregisteredNoticeType.isEmpty && a.externalNotice.isNone

/-- The most characters that a reason or an unregistered type may have. -/
def maxLength : Nat := 2048

/-- Refuses a text that is too long. -/
def checkLength (name text : String) : Outcome Unit :=
  demand (text.length ≤ maxLength)
    (.rule s!"The {name} attribute must be shorter than {maxLength} characters.")

/-- Checks the kind of the notice and gives the warnings about it. -/
def checkType (ctx : Context) (a : NoticeAttributes) : Outcome (List Finding) :=
  if a.noticeType.isEmpty then .ok []
  else ctx.checkTokens Vocabulary.Key.notice a.version [a.noticeType]

/-- Checks the values and gives the warnings about them. -/
def check (ctx : Context) (a : NoticeAttributes) : Outcome (List Finding) := do
  if a.isEmpty then return []
  demand (a.version.atLeast .v4_0_1)
    (.rule "Notice attributes cannot be used until DDMS 4.0.1 or later.")
  let warnings ← a.checkType ctx
  checkLength "noticeReason" a.noticeReason
  checkLength "unregisteredNoticeType" a.unregisteredNoticeType
  ifPresent a.noticeDate fun d =>
    demand (Calendar.isDate d) (.notDate "noticeDate attribute")
  demand (a.externalNotice.isNone || a.version.atLeast .v5_0)
    (.tooEarly "externalNotice attribute" "5.0")
  return warnings

/-- The group with these values. -/
def checked (ctx : Context) (a : NoticeAttributes) : Outcome NoticeAttributes := do
  let warnings ← a.check ctx
  return { a with warnings }

/-- Makes the group from its values. -/
def ofValues (ctx : Context) (v : Version) (noticeType noticeReason noticeDate
    unregisteredNoticeType : String) (externalNotice : Option Bool) : Outcome NoticeAttributes :=
  checked ctx ⟨v, noticeType, noticeReason, noticeDate, unregisteredNoticeType, externalNotice, []⟩

/-- Reads whether the notice is external, where an element says so. -/
def readExternal (v : Version) (e : Element) : Outcome (Option Bool) :=
  match e.attribute? (some v.ismUri) "externalNotice" with
  | none => .ok none
  | some text =>
    match Text.truth? text with
    | some b => .ok (some b)
    | none => .error (.notBoolean "externalNotice")

/-- Reads the group from an element. -/
def ofElement (ctx : Context) (v : Version) (e : Element) : Outcome NoticeAttributes := do
  let external ← readExternal v e
  ofValues ctx v (e.attributeText v.ismUri "noticeType") (e.attributeText v.ismUri "noticeReason")
    (e.attributeText v.ismUri "noticeDate") (e.attributeText v.ismUri "unregisteredNoticeType")
    external

/-- The attributes with their values as they are written. -/
def pairs (a : NoticeAttributes) : List (String × String) :=
  [("noticeType", a.noticeType), ("noticeReason", a.noticeReason), ("noticeDate", a.noticeDate),
   ("unregisteredNoticeType", a.unregisteredNoticeType),
   ("externalNotice", (a.externalNotice.map Text.ofTruth).getD "")]

/-- Puts the attributes on an element of a component, which must have the same version unless
there are none. -/
def addTo (ctx : Context) (v : Version) (a : NoticeAttributes) (e : Element) : Outcome Element :=
  if a.isEmpty then .ok e
  else if a.version ≠ v then .error (.mixedVersions "notice")
  else .ok (a.pairs.foldl (fun e (name, value) => e.put (ctx.ismName v name) value) e)

/-- The lines of the group under a stem. -/
def lines (a : NoticeAttributes) (stem : String) : List Line :=
  a.pairs.flatMap fun (name, value) => Line.of (stem ++ name) value

/-- The output of the group under a stem. -/
def output (html : Bool) (a : NoticeAttributes) (stem : String) : String :=
  Output.pairs html stem a.pairs

end NoticeAttributes

end DiscoveryMetadata
