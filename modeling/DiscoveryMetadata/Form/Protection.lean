import DiscoveryMetadata.Form.Attributes
import DiscoveryMetadata.Protection.Security
/-
  The forms of what protects a resource: notices and rules of access.
-/
namespace DiscoveryMetadata

open Data (Value)

/-- The words for the kinds of texts. -/
def AccessText.Kind.words : List (String × AccessText.Kind) :=
  [("systemName", .systemName), ("individualValue", .individualValue),
    ("groupValue", .groupValue), ("profileValue", .profileValue)]

/-- The words for the kinds of entries. -/
def AccessEntity.Kind.words : List (String × AccessEntity.Kind) :=
  [("individual", .individual), ("group", .group), ("profile", .profile)]

open Form

instance : Form NoticeText NoticeText.Draft where
  read := NoticeText.ofElement
  draft c := c.toDraft
  blank := {}
  contents c := [("value", .text c.value), ("poc_types", .ofTexts c.pocTypes)]
  fill d v := do return { d with
    version := ← v.versionOver d.version
    value := v.textOver "value" d.value
    pocTypes := v.textsOver "poc_types" d.pocTypes
    security := securityOver v d.security }
  make ctx v f := do
    let s ← security ctx f
    NoticeText.make ctx v (f.textAt "value") (f.textsAt "poc_types") s

instance : Form Notice Notice.Draft where
  read := Notice.ofElement
  draft c := c.toDraft
  blank := {}
  contents c := [("notice_texts", namesOf c.texts), ("notice_attributes", c.notice.toForm)]
  fill d v := do return { d with
    version := ← v.versionOver d.version
    texts := ← draftsOver v "notice_texts" d.texts
    noticeType := v.textOver "notice_type" d.noticeType
    noticeReason := v.textOver "notice_reason" d.noticeReason
    noticeDate := v.textOver "notice_date" d.noticeDate
    unregisteredNoticeType := v.textOver "unregistered_notice_type" d.unregisteredNoticeType
    externalNotice := v.truthOver "external_notice" d.externalNotice
    security := securityOver v d.security }
  make ctx v f := do
    let texts ← parts ctx f "notice_texts"
    let s ← security ctx f
    let notice ← NoticeAttributes.ofForm ctx (f.entry "notice")
    Notice.make ctx v texts s notice

instance : Form NoticeList NoticeList.Draft where
  read := NoticeList.ofElement
  draft c := c.toDraft
  blank := {}
  contents c := [("notices", namesOf c.notices)]
  fill d v := do return { d with
    version := ← v.versionOver d.version
    notices := ← draftsOver v "notices" d.notices
    security := securityOver v d.security }
  make ctx v f := do
    let notices ← parts ctx f "notices"
    let s ← security ctx f
    NoticeList.make ctx v notices s

instance : Form AccessText AccessText.Draft where
  read := AccessText.ofElement
  draft c := c.toDraft
  blank := {}
  contents c := [("kind", .wordFor AccessText.Kind.words c.kind), ("value", .text c.value),
    ("vocabulary", .text c.vocabulary), ("id", .text c.id),
    ("id_reference", .text c.idReference), ("qualifier", .text c.qualifier)]
  fill d v := do return { d with
    version := ← v.versionOver d.version
    kind := v.wordOver AccessText.Kind.words "kind" d.kind
    value := v.textOver "value" d.value
    vocabulary := v.textOver "vocabulary" d.vocabulary
    id := v.textOver "id" d.id
    idReference := v.textOver "id_reference" d.idReference
    qualifier := v.textOver "qualifier" d.qualifier
    security := securityOver v d.security }
  make ctx v f := do
    let s ← security ctx f
    AccessText.make ctx v ((f.entry "kind").meaning AccessText.Kind.words .systemName)
      (f.textAt "value") (f.textAt "vocabulary") (f.textAt "id") (f.textAt "id_reference")
      (f.textAt "qualifier") s

instance : Form AccessEntity AccessEntity.Draft where
  read := AccessEntity.ofElement
  draft c := c.toDraft
  blank := {}
  contents c := [("kind", .wordFor AccessEntity.Kind.words c.kind),
    ("system_name", nameOf? c.systemName), ("values", namesOf c.values)]
  fill d v := do return { d with
    version := ← v.versionOver d.version
    kind := v.wordOver AccessEntity.Kind.words "kind" d.kind
    systemName := ← draftOver v "system_name" d.systemName
    values := ← draftsOver v "values" d.values
    security := securityOver v d.security }
  make ctx v f := do
    let systemName ← optionalPart ctx f "system_name"
    let values ← parts ctx f "values"
    let s ← security ctx f
    AccessEntity.make ctx v ((f.entry "kind").meaning AccessEntity.Kind.words .individual)
      systemName values s

instance : Form ProfileList ProfileList.Draft where
  read := ProfileList.ofElement
  draft c := c.toDraft
  blank := {}
  contents c := [("profiles", namesOf c.profiles)]
  fill d v := do return { d with
    version := ← v.versionOver d.version
    profiles := ← draftsOver v "profiles" d.profiles
    security := securityOver v d.security }
  make ctx v f := do
    let profiles ← parts ctx f "profiles"
    let s ← security ctx f
    ProfileList.make ctx v profiles s

instance : Form Access Access.Draft where
  read := Access.ofElement
  draft c := c.toDraft
  blank := {}
  contents c := [("individuals", namesOf c.individuals), ("groups", namesOf c.groups),
    ("profile_list", nameOf? c.profileList)]
  fill d v := do return { d with
    version := ← v.versionOver d.version
    individuals := ← draftsOver v "individuals" d.individuals
    groups := ← draftsOver v "groups" d.groups
    profileList := ← draftOver v "profile_list" d.profileList
    security := securityOver v d.security }
  make ctx v f := do
    let individuals ← parts ctx f "individuals"
    let groups ← parts ctx f "groups"
    let profiles ← optionalPart ctx f "profile_list"
    let s ← security ctx f
    Access.make ctx v individuals groups profiles s

instance : Form Security Security.Draft where
  read := Security.ofElement
  draft c := c.toDraft
  blank := {}
  contents c := [("exclude_from_rollup", truth c.excludeFromRollup),
    ("notice_list", nameOf? c.noticeList), ("access", nameOf? c.access)]
  fill d v := do return { d with
    version := ← v.versionOver d.version
    noticeList := ← draftOver v "notice_list" d.noticeList
    access := ← draftOver v "access" d.access
    security := securityOver v d.security }
  make ctx v f := do
    let notices ← optionalPart ctx f "notice_list"
    let access ← optionalPart ctx f "access"
    let s ← security ctx f
    Security.make ctx v notices access s

end DiscoveryMetadata
