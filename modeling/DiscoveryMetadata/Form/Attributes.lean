import DiscoveryMetadata.Attributes.Extensible
import DiscoveryMetadata.Attributes.Link
import DiscoveryMetadata.Attributes.Notice
import DiscoveryMetadata.Attributes.Srs
import DiscoveryMetadata.Form.Basic
/-
  The attribute groups in forms.

  A group is made from a form of its own, which may name its version. An attribute of another
  vocabulary is a list of its prefix, namespace, local name and value.
-/
namespace DiscoveryMetadata

open Data (Value)
open Xml (Attribute QName)

namespace SecurityAttributes

/-- The entries of a record of texts in the order of their names. -/
def sortedEntries (v : Value) : List (String × String) :=
  (v.entries.map fun (name, e) => (name, e.content)).mergeSort fun a b => !decide (b.1 < a.1)

/-- The draft with the values of a form set, in the order of their names. -/
def Draft.setAll (d : Draft) (v : Value) : Draft :=
  (sortedEntries v).foldl (fun d (name, value) => d.set name value) d

/-- The group that a form gives: one without attributes if it has no values. -/
def ofForm (ctx : Context) (v : Value) : Outcome SecurityAttributes := do
  let version ← (v.entry "version").version
  if v.has "values" then (Draft.setAll {} (v.entry "values")).commitAs ctx version
  else return empty version

end SecurityAttributes

namespace LinkAttributes

/-- The group that a form gives: one of the three sorts of links, or none at all. -/
def ofForm (v : Value) : Outcome LinkAttributes := do
  let version ← (v.entry "version").version
  match v.textAt "ctor" with
  | "locator" =>
    locator version (v.textAt "href") (v.textAt "role") (v.textAt "title") (v.textAt "label")
  | "simple" =>
    simple version (v.textAt "href") (v.textAt "role") (v.textAt "title") (v.textAt "arcrole")
      (v.textAt "show") (v.textAt "actuate")
  | "resource" => resource version (v.textAt "role") (v.textAt "title") (v.textAt "label")
  | _ => return {}

/-- The group as a form. -/
def toForm (a : LinkAttributes) : Value :=
  .record [("link_type", .text a.linkType), ("href", .text a.href), ("role", .text a.role),
    ("title", .text a.title), ("label", .text a.label), ("arcrole", .text a.arcrole),
    ("show", .text a.show_), ("actuate", .text a.actuate), ("is_empty", .truth a.isEmpty)]

end LinkAttributes

namespace SrsAttributes

/-- The group that a form gives. -/
def ofForm (v : Value) : Outcome SrsAttributes :=
  ofValues (v.textAt "srs_name") (v.integerAt? "srs_dimension") (v.textsAt "axis_labels")
    (v.textsAt "uom_labels")

/-- The group as a form. -/
def toForm (a : SrsAttributes) : Value :=
  .record [("srs_name", .text a.name),
    ("srs_dimension", .optional (fun n => .ofInt (Int.ofNat n)) a.dimension),
    ("axis_labels", .ofTexts a.axisLabels), ("uom_labels", .ofTexts a.uomLabels),
    ("is_empty", .truth a.isEmpty)]

end SrsAttributes

namespace NoticeAttributes

/-- The group that a form gives. -/
def ofForm (ctx : Context) (v : Value) : Outcome NoticeAttributes := do
  let version ← (v.entry "version").version
  ofValues ctx version (v.textAt "notice_type") (v.textAt "notice_reason")
    (v.textAt "notice_date") (v.textAt "unregistered_notice_type")
    (v.entry "external_notice").truth?

/-- The group as a form. -/
def toForm (a : NoticeAttributes) : Value :=
  .record [("notice_type", .text a.noticeType), ("notice_reason", .text a.noticeReason),
    ("notice_date", .text a.noticeDate),
    ("unregistered_notice_type", .text a.unregisteredNoticeType),
    ("external_notice", Form.truth a.externalNotice), ("is_empty", .truth a.isEmpty)]

end NoticeAttributes

namespace Form

/-- A name from its prefix, namespace and local name. -/
def qName (nsPrefix uri localName : Value) : QName :=
  match uri.text? with
  | none => .unqualified localName.content
  | some u => .prefixed nsPrefix.content u localName.content

/-- An attribute from its four parts. -/
def attributeOf (v : Value) : Attribute :=
  ⟨qName (v.item 0) (v.item 1) (v.item 2), (v.item 3).content⟩

/-- The values of security attributes over the old draft. -/
def securityOver (v : Value) (old : SecurityAttributes.Draft) : SecurityAttributes.Draft :=
  v.readOver "security_attributes" old old.setAll

/-- A reference system in the place of the old one. -/
def srsOver (v : Value) (old : SrsAttributes) : Outcome SrsAttributes :=
  match v.get? "srs_attributes" with
  | some e => SrsAttributes.ofForm e
  | none => .ok old

/-- The security attributes of a form. -/
def security (ctx : Context) (v : Value) : Outcome SecurityAttributes :=
  SecurityAttributes.ofForm ctx (v.entry "security")

end Form

namespace ExtensibleAttributes

/-- The group that a form gives: one without attributes if it has none. -/
def ofForm (v : Value) : Outcome ExtensibleAttributes := do
  let version ← (v.entry "version").version
  if v.has "attributes" then ofList version ((v.entry "attributes").items.map Form.attributeOf)
  else return empty version

/-- The names and values of the group. -/
def toForm (a : ExtensibleAttributes) : Value :=
  .ofPairs (a.attributes.map fun x => (x.name.clark, x.value))

end ExtensibleAttributes

end DiscoveryMetadata
