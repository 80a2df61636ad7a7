import DiscoveryMetadata.Attributes.Notice
import DiscoveryMetadata.Component.Basic
/-
  Security notices, with their texts and whom to ask about these, and the list of notices that a
  resource carries, since version 4.0.1.
-/
namespace DiscoveryMetadata

open Xml (Element)

/-- A text of a notice. -/
structure NoticeText extends Base where
  value : String
  pocTypes : List String
  security : SecurityAttributes
  deriving BEq, Inhabited

namespace NoticeText

/-- The rules of a text; gives the warnings about the kinds of contact. -/
def rules (ctx : Context) (c : NoticeText) : Outcome (List Finding) := do
  requireIn c.element c.version .ism "NoticeText"
  requireVersion c.version .v4_0_1 "ISM:NoticeText element"
  c.security.requireClassification
  ctx.checkTokens Vocabulary.Key.pocType c.version c.pocTypes

/-- The warnings about the text; `remarks` are those about its kinds of contact. -/
def findings (c : NoticeText) (remarks : List Finding) : List Finding :=
  c.absorb remarks ++
  c.warnIf c.value.isEmpty "An ISM:NoticeText element was found with no value." ++
  c.absorb c.security.warnings

/-- The text, if it keeps the rules, with the warnings about it. -/
def checked (ctx : Context) (c : NoticeText) : Outcome NoticeText := do
  let remarks ← c.check (c.rules ctx)
  return { c with warnings := c.findings remarks }

/-- Reads a text. -/
def ofElement (ctx : Context) (v : Version) (e : Element) : Outcome NoticeText := do
  let security ← within e.writtenName (SecurityAttributes.ofElement ctx v e)
  checked ctx ⟨⟨e, v, []⟩, e.content, Text.words (e.attributeText v.ismUri "pocType"), security⟩

/-- Makes a text. -/
def make (ctx : Context) (v : Version) (value : String) (pocTypes : List String)
    (security : SecurityAttributes) : Outcome NoticeText := do
  let e := (← ctx.elementIn v .ism "NoticeText").putText value
  let e ← within e.writtenName (security.addTo ctx v e)
  let e := e.put (ctx.ismName v "pocType") (Text.unwords pocTypes)
  checked ctx ⟨⟨e, v, []⟩, value, pocTypes, security⟩

instance : Component NoticeText where
  base c := c.toBase
  security? c := some c.security
  lines c stem index :=
    let name := stem ++ "noticeText" ++ index
    [⟨name, c.value⟩] ++ Line.of (name ++ ".pocType") (Text.unwords c.pocTypes) ++
      c.security.lines (name ++ ".")
  output html c stem index :=
    let name := stem ++ "noticeText" ++ index
    Output.always html name c.value ++
      Output.entry html (name ++ ".pocType") (Text.unwords c.pocTypes) ++
      c.security.output html (name ++ ".")

/-- The contents of a text to be made. -/
structure Draft where
  version : Option Version := none
  value : String := ""
  pocTypes : List String := []
  security : SecurityAttributes.Draft := {}
  deriving BEq, Inhabited

instance : Buildable Draft NoticeText where
  isEmpty d := Text.isBlank d.value && allBlank d.pocTypes && d.security.isEmpty
  version? d := d.version
  build ctx v d := do
    make ctx v d.value (dropBlank d.pocTypes) (← d.security.commitAs ctx v)

/-- The draft that leads to the component again. -/
def toDraft (c : NoticeText) : Draft :=
  ⟨some c.version, c.value, c.pocTypes, c.security.toDraft⟩

end NoticeText

/-- A notice with its texts. -/
structure Notice extends Base where
  texts : List NoticeText
  security : SecurityAttributes
  notice : NoticeAttributes
  deriving BEq, Inhabited

namespace Notice

/-- The rules of a notice. -/
def rules (c : Notice) : Outcome Unit := do
  requireIn c.element c.version .ism "Notice"
  forbid c.texts.isEmpty
    (.rule "At least one ISM:NoticeText must exist within an ISM:Notice element.")
  requireVersion c.version .v4_0_1 "ISM:Notice element"
  c.security.requireClassification
  c.requireSameVersions (c.texts.map (·.toBase))

/-- The warnings about the notice. -/
def findings (c : Notice) : List Finding :=
  c.absorbAll (c.texts.map (·.toBase)) ++ c.absorb c.security.warnings ++
  c.absorb c.notice.warnings

/-- The notice, if it keeps the rules, with the warnings about it. -/
def checked (c : Notice) : Outcome Notice := do
  c.check c.rules
  return { c with warnings := c.findings }

/-- Reads a notice. -/
def ofElement (ctx : Context) (v : Version) (e : Element) : Outcome Notice := do
  let texts ← within e.writtenName
    (readAll NoticeText.ofElement ctx v (e.childrenNamed v.ismUri "NoticeText"))
  let security ← within e.writtenName (SecurityAttributes.ofElement ctx v e)
  let notice ← within e.writtenName (NoticeAttributes.ofElement ctx v e)
  checked ⟨⟨e, v, []⟩, texts, security, notice⟩

/-- Makes a notice. -/
def make (ctx : Context) (v : Version) (texts : List NoticeText) (security : SecurityAttributes)
    (notice : NoticeAttributes) : Outcome Notice := do
  let e := (← ctx.elementIn v .ism "Notice").add (texts.map (·.element))
  let e ← within e.writtenName do notice.addTo ctx v (← security.addTo ctx v e)
  checked ⟨⟨e, v, []⟩, texts, security, notice⟩

instance : Component Notice where
  base c := c.toBase
  security? c := some c.security
  lines c stem index :=
    let name := stem ++ "notice" ++ index ++ "."
    Component.linesOfAll c.texts name ++ c.security.lines name ++ c.notice.lines name
  output html c stem index :=
    let name := stem ++ "notice" ++ index ++ "."
    Component.outputOfAll html c.texts name ++ c.security.output html name ++
      c.notice.output html name

/-- The contents of a notice to be made. -/
structure Draft where
  version : Option Version := none
  texts : List NoticeText.Draft := []
  security : SecurityAttributes.Draft := {}
  noticeType : String := ""
  noticeReason : String := ""
  noticeDate : String := ""
  unregisteredNoticeType : String := ""
  externalNotice : Option Bool := none
  deriving BEq, Inhabited

instance : Buildable Draft Notice where
  isEmpty d :=
    Buildable.allEmpty d.texts && d.security.isEmpty &&
      allBlank [d.noticeType, d.noticeReason, d.noticeDate, d.unregisteredNoticeType] &&
      d.externalNotice.isNone
  version? d := d.version
  build ctx v d := do
    let notice ← NoticeAttributes.ofValues ctx v d.noticeType d.noticeReason d.noticeDate
      d.unregisteredNoticeType d.externalNotice
    let texts ← Buildable.commitAll ctx v d.texts
    make ctx v texts (← d.security.commitAs ctx v) notice

/-- The draft that leads to the component again. -/
def toDraft (c : Notice) : Draft :=
  ⟨some c.version, c.texts.map (·.toDraft), c.security.toDraft, c.notice.noticeType,
    c.notice.noticeReason, c.notice.noticeDate, c.notice.unregisteredNoticeType,
    c.notice.externalNotice⟩

end Notice

/-- The notices of a resource. -/
structure NoticeList extends Base where
  notices : List Notice
  security : SecurityAttributes
  deriving BEq, Inhabited

namespace NoticeList

/-- The rules of a list. -/
def rules (c : NoticeList) : Outcome Unit := do
  requireDdms c.element c.version "noticeList"
  forbid c.notices.isEmpty
    (.rule "At least one ISM:Notice must exist within a ddms:noticeList element.")
  c.security.requireClassification
  requireVersion c.version .v4_0_1 "ddms:noticeList element"
  c.requireSameVersions (c.notices.map (·.toBase))

/-- The warnings about the list. -/
def findings (c : NoticeList) : List Finding :=
  c.absorbAll (c.notices.map (·.toBase)) ++ c.absorb c.security.warnings

/-- The list, if it keeps the rules, with the warnings about it. -/
def checked (c : NoticeList) : Outcome NoticeList := do
  c.check c.rules
  return { c with warnings := c.findings }

/-- Reads a list. -/
def ofElement (ctx : Context) (v : Version) (e : Element) : Outcome NoticeList := do
  let notices ← within e.writtenName
    (readAll Notice.ofElement ctx v (e.childrenNamed v.ismUri "Notice"))
  let security ← within e.writtenName (SecurityAttributes.ofElement ctx v e)
  checked ⟨⟨e, v, []⟩, notices, security⟩

/-- Makes a list. -/
def make (ctx : Context) (v : Version) (notices : List Notice) (security : SecurityAttributes) :
    Outcome NoticeList := do
  let e := (ctx.ddmsElement v "noticeList").add (notices.map (·.element))
  let e ← within e.writtenName (security.addTo ctx v e)
  checked ⟨⟨e, v, []⟩, notices, security⟩

instance : Component NoticeList where
  base c := c.toBase
  security? c := some c.security
  lines c stem index :=
    let name := c.lineName stem index ++ "."
    Component.linesOfAll c.notices name ++ c.security.lines name
  output html c stem index :=
    let name := c.lineName stem index ++ "."
    Component.outputOfAll html c.notices name ++ c.security.output html name

/-- The contents of a list to be made. -/
structure Draft where
  version : Option Version := none
  notices : List Notice.Draft := []
  security : SecurityAttributes.Draft := {}
  deriving BEq, Inhabited

instance : Buildable Draft NoticeList where
  isEmpty d := Buildable.allEmpty d.notices && d.security.isEmpty
  version? d := d.version
  build ctx v d := do
    let notices ← Buildable.commitAll ctx v d.notices
    make ctx v notices (← d.security.commitAs ctx v)

/-- The draft that leads to the component again. -/
def toDraft (c : NoticeList) : Draft :=
  ⟨some c.version, c.notices.map (·.toDraft), c.security.toDraft⟩

end NoticeList

end DiscoveryMetadata
