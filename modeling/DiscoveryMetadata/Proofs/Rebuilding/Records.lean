import DiscoveryMetadata.Proofs.Attributes.Groups
import DiscoveryMetadata.Proofs.Rebuilding.Basic
import DiscoveryMetadata.Proofs.Text.Words
import DiscoveryMetadata.Record.Dates
import DiscoveryMetadata.Record.Format
import DiscoveryMetadata.Record.Plain
import DiscoveryMetadata.Relation
/-
  Records and relations from their own drafts.

  For each kind there are two facts. `make_keeps` says that a component that was made holds the
  values it was made of. Some kinds are made by reading the element that was put together; for them
  it says that the values are found again in the element. `rebuilds` follows: the draft of such a
  component gives the same values once more, and from these the same component is made.
-/
namespace DiscoveryMetadata

open Buildable
open Xml (Element)

variable {ctx : Context} {v : Version} {s : SecurityAttributes} {sd : SecurityAttributes.Draft}

namespace Identifier

variable {c : Identifier} {qualifier value : String}

theorem make_keeps (h : make ctx v qualifier value = .ok c) :
    c.qualifier = qualifier ∧ c.value = value := by
  simp only [make, ofElement, bind_ok, check_ok, exists_unit, pure_ok] at h
  obtain ⟨-, rfl⟩ := h
  simp [Element.own, Element.attributeText_put]

theorem rebuilds (d : Draft) : Rebuilds ctx v toDraft d := by
  obtain ⟨_, qualifier, value⟩ := d
  intro c h
  obtain ⟨he, h⟩ := commitAs_some.1 h
  obtain ⟨rfl, rfl⟩ := make_keeps h
  exact commitAs_some.2 ⟨he, h⟩

end Identifier

namespace Caption

variable {c : Caption} {kind : Kind} {value : String}

theorem make_keeps (h : make ctx v kind value s = .ok c) :
    c.kind = kind ∧ c.value = value ∧ c.security = s := by
  simp only [make, checked, bind_ok, within_ok, check_ok, exists_unit, pure_ok] at h
  obtain ⟨e, -, -, rfl⟩ := h
  exact ⟨rfl, rfl, rfl⟩

theorem build_kind {d : Draft} (h : build ctx v d = .ok c) : c.kind = d.kind := by
  obtain ⟨s, -, h⟩ := bind_ok.1 h
  exact (make_keeps h).1

theorem rebuilds (d : Draft) : Rebuilds ctx v toDraft d := by
  obtain ⟨_, kind, value, security⟩ := d
  intro c h
  obtain ⟨he, h⟩ := commitAs_some.1 h
  obtain ⟨s, hs, h⟩ := bind_ok.1 h
  obtain ⟨rfl, rfl, rfl⟩ := make_keeps h
  refine commitAs_some.2 ⟨?_, bind_ok.2 ⟨_, SecurityAttributes.commitAs_toDraft hs, h⟩⟩
  simpa only [isEmpty, toDraft, SecurityAttributes.toDraft_isEmpty hs] using he

/-- The draft of a caption is one for captions of its kind. -/
theorem toDraft_kind {kind : Kind} (h : c.kind = kind) : { c.toDraft with kind } = c.toDraft := by
  subst h
  rfl

end Caption

namespace Language

variable {c : Language} {qualifier value : String}

theorem make_keeps (h : make ctx v qualifier value = .ok c) :
    c.qualifier = qualifier ∧ c.value = value := by
  simp only [make, ofElement, checked, bind_ok, check_ok, exists_unit, pure_ok] at h
  obtain ⟨-, rfl⟩ := h
  simp [Element.own, Element.attributeText_put]

theorem rebuilds (d : Draft) : Rebuilds ctx v toDraft d := by
  obtain ⟨_, qualifier, value⟩ := d
  intro c h
  obtain ⟨he, h⟩ := commitAs_some.1 h
  obtain ⟨rfl, rfl⟩ := make_keeps h
  exact commitAs_some.2 ⟨he, h⟩

end Language

namespace ApproximableDate

variable {c : ApproximableDate}
  {name description date approximation searchableStart searchableEnd : String}

theorem find?_dateElements (n : String) :
    (dateElements ctx v date approximation).find? (fun e => e.name.isNamed v.ddmsUri n) =
      if "approximableDate" = n ∧ ¬ (date = "" ∧ approximation = "") then
        some ((ctx.textElement v "approximableDate" date).put (ctx.ddmsName v "approximation")
          approximation)
      else none := by
  unfold dateElements
  by_cases hd : date = "" ∧ approximation = ""
  · simp [hd]
  · by_cases hn : "approximableDate" = n <;> simp [hd, hn]

theorem find?_windowElements (n : String) :
    (windowElements ctx v searchableStart searchableEnd).find?
        (fun e => e.name.isNamed v.ddmsUri n) =
      if "searchableDate" = n ∧ ¬ (searchableStart = "" ∧ searchableEnd = "") then
        some ((ctx.ddmsElement v "searchableDate").add
          [ctx.textElement v "start" searchableStart, ctx.textElement v "end" searchableEnd])
      else none := by
  unfold windowElements
  by_cases hd : searchableStart = "" ∧ searchableEnd = ""
  · simp [hd]
  · by_cases hn : "searchableDate" = n <;> simp [hd, hn]

theorem make_keeps
    (h : make ctx v name description date approximation searchableStart searchableEnd = .ok c) :
    c.localName = name ∧ c.description = description ∧ c.date = date ∧
      c.approximation = approximation ∧ c.searchableStart = searchableStart ∧
      c.searchableEnd = searchableEnd := by
  simp only [make, ofElement, checked, bind_ok, check_ok, exists_unit, pure_ok] at h
  obtain ⟨-, rfl⟩ := h
  have hname : ((ctx.ddmsElement v name).add
      (ctx.textElements v "description" description ++ dateElements ctx v date approximation ++
        windowElements ctx v searchableStart searchableEnd)).localName = name := rfl
  refine ⟨hname, ?_⟩
  simp only [ApproximableDate.description, Element.ownChild?, Element.child?, Element.uri_add,
    Element.children_add, Context.uri_ddmsElement, Context.children_ddmsElement, List.nil_append,
    List.find?_append, Context.find?_textElements, find?_dateElements, find?_windowElements]
  refine ⟨?_, ?_, ?_, ?_, ?_⟩
  · by_cases hd : description = "" <;> simp [hd]
  · by_cases hd : date = "" ∧ approximation = "" <;> simp [hd]
  · by_cases hd : date = "" ∧ approximation = "" <;>
      simp [hd, Element.own, Element.attributeText_put]
  · by_cases hd : searchableStart = "" ∧ searchableEnd = "" <;>
      simp [hd, Element.ownText, Element.ownChild?, Element.child?]
  · by_cases hd : searchableStart = "" ∧ searchableEnd = "" <;>
      simp [hd, Element.ownText, Element.ownChild?, Element.child?]

theorem rebuilds (d : Draft) : Rebuilds ctx v toDraft d := by
  obtain ⟨_, name, description, date, approximation, start, finish⟩ := d
  intro c h
  obtain ⟨he, h⟩ := commitAs_some.1 h
  obtain ⟨rfl, rfl, rfl, rfl, rfl, rfl⟩ := make_keeps h
  exact commitAs_some.2 ⟨he, h⟩

end ApproximableDate

namespace Dates

variable {c : Dates} {acquiredOns : List ApproximableDate} {values : DateValues}

theorem make_keeps (h : make ctx v acquiredOns values = .ok c) :
    c.acquiredOns = acquiredOns ∧ c.values = values := by
  simp only [make, checked, bind_ok, check_ok, exists_unit, pure_ok] at h
  obtain ⟨-, rfl⟩ := h
  exact ⟨rfl, rfl⟩

theorem rebuilds (d : Draft) : Rebuilds ctx v toDraft d := by
  obtain ⟨_, acquiredOns, values⟩ := d
  intro c h
  obtain ⟨he, h⟩ := commitAs_some.1 h
  obtain ⟨dates, hdates, h⟩ := bind_ok.1 h
  obtain ⟨rfl, rfl⟩ := make_keeps h
  have hagain := commitAll_toDraft (fun d _ => ApproximableDate.rebuilds d) hdates
  refine commitAs_some.2 ⟨?_, bind_ok.2 ⟨_, hagain, h⟩⟩
  simpa only [isEmpty, toDraft, allEmpty_eq hdates, allEmpty_eq hagain] using he

end Dates

namespace Rights

variable {c : Rights} {privacyAct intellectualProperty copyright : Bool}

/-- A flag is read as it was written. -/
theorem flag_ok {e : Element} {name : String} {b b' : Bool} (h : e.own name = Text.ofTruth b) :
    flag e name = .ok b' ↔ b = b' := by
  simp [flag, h, Text.ofTruth_ne_empty]

theorem make_keeps (h : make ctx v privacyAct intellectualProperty copyright = .ok c) :
    c.privacyAct = privacyAct ∧ c.intellectualProperty = intellectualProperty ∧
      c.copyright = copyright := by
  simp only [make, ofElement, bind_ok, within_ok, exists_unit, pure_ok] at h
  obtain ⟨p, hp, i, hi, x, hx, -, rfl⟩ := h
  refine ⟨((flag_ok ?_).1 hp).symm, ((flag_ok ?_).1 hi).symm, ((flag_ok ?_).1 hx).symm⟩ <;>
    simp [Element.own, Element.attributeText_put, Text.ofTruth_ne_empty]

theorem rebuilds (d : Draft) : Rebuilds ctx v toDraft d := by
  obtain ⟨_, privacyAct, intellectualProperty, copyright⟩ := d
  intro c h
  obtain ⟨he, h⟩ := commitAs_some.1 h
  obtain ⟨rfl, rfl, rfl⟩ := make_keeps h
  exact commitAs_some.2 ⟨he, h⟩

end Rights

namespace Source

variable {c : Source} {qualifier value schemaQualifier schemaHref : String}

theorem make_keeps (hs : sd.commitAs ctx v = .ok s)
    (h : make ctx v qualifier value schemaQualifier schemaHref s = .ok c) :
    c.qualifier = qualifier ∧ c.value = value ∧ c.schemaQualifier = schemaQualifier ∧
      c.schemaHref = schemaHref ∧ c.security = s := by
  simp only [make, ofElement, checked, bind_ok, within_ok, check_ok, exists_unit, pure_ok] at h
  obtain ⟨e, he, s', hs', -, rfl⟩ := h
  rw [SecurityAttributes.ofElement_addTo hs he (by
    simp [Element.attribute?_put, v.ddmsUri_ne_ismUri])] at hs'
  obtain ⟨-, rfl⟩ := SecurityAttributes.addTo_ok.1 he
  simp_all [Element.own, Element.attributeText_put, SecurityAttributes.attributeText_mark,
    v.ddmsUri_ne_ismUri]

theorem rebuilds (d : Draft) : Rebuilds ctx v toDraft d := by
  obtain ⟨_, qualifier, value, schemaQualifier, schemaHref, security⟩ := d
  intro c h
  obtain ⟨he, h⟩ := commitAs_some.1 h
  obtain ⟨s, hs, h⟩ := bind_ok.1 h
  obtain ⟨rfl, rfl, rfl, rfl, rfl⟩ := make_keeps hs h
  refine commitAs_some.2 ⟨?_, bind_ok.2 ⟨_, SecurityAttributes.commitAs_toDraft hs, h⟩⟩
  simpa only [isEmpty, toDraft, SecurityAttributes.toDraft_isEmpty hs] using he

end Source

namespace ResourceType

variable {c : ResourceType} {description qualifier value : String}

theorem make_keeps (hs : sd.commitAs ctx v = .ok s)
    (h : make ctx v description qualifier value s = .ok c) :
    c.description = description ∧ c.qualifier = qualifier ∧ c.value = value ∧ c.security = s := by
  simp only [make, ofElement, checked, bind_ok, within_ok, check_ok, exists_unit, pure_ok] at h
  obtain ⟨e, he, s', hs', -, rfl⟩ := h
  rw [SecurityAttributes.ofElement_addTo hs he (by
    simp [Element.attribute?_put, v.ddmsUri_ne_ismUri])] at hs'
  obtain ⟨-, rfl⟩ := SecurityAttributes.addTo_ok.1 he
  simp_all [Element.own, Element.attributeText_put, SecurityAttributes.attributeText_mark,
    v.ddmsUri_ne_ismUri]

theorem rebuilds (d : Draft) : Rebuilds ctx v toDraft d := by
  obtain ⟨_, description, qualifier, value, security⟩ := d
  intro c h
  obtain ⟨he, h⟩ := commitAs_some.1 h
  obtain ⟨s, hs, h⟩ := bind_ok.1 h
  obtain ⟨rfl, rfl, rfl, rfl⟩ := make_keeps hs h
  refine commitAs_some.2 ⟨?_, bind_ok.2 ⟨_, SecurityAttributes.commitAs_toDraft hs, h⟩⟩
  simpa only [isEmpty, toDraft, SecurityAttributes.toDraft_isEmpty hs] using he

end ResourceType

namespace Extent

variable {c : Extent} {qualifier value : String}

theorem make_keeps (h : make ctx v qualifier value = .ok c) :
    c.qualifier = qualifier ∧ c.value = value := by
  simp only [make, ofElement, checked, bind_ok, check_ok, exists_unit, pure_ok] at h
  obtain ⟨-, rfl⟩ := h
  simp [Element.own, Element.attributeText_put]

theorem rebuilds (d : Draft) : Rebuilds ctx v toDraft d := by
  obtain ⟨_, qualifier, value⟩ := d
  intro c h
  obtain ⟨he, h⟩ := commitAs_some.1 h
  obtain ⟨rfl, rfl⟩ := make_keeps h
  exact commitAs_some.2 ⟨he, h⟩

end Extent

namespace Format

variable {c : Format} {mimeType medium : String} {extent : Option Extent}

theorem make_keeps (h : make ctx v mimeType extent medium = .ok c) :
    c.mimeType = mimeType ∧ c.extent = extent ∧ c.medium = medium := by
  simp only [make, checked, bind_ok, check_ok, exists_unit, pure_ok] at h
  obtain ⟨-, rfl⟩ := h
  exact ⟨rfl, rfl, rfl⟩

theorem isEmpty_draft (d : Draft) :
    isEmpty d = (allBlank [d.mimeType, d.medium] && isEmpty d.extent) := rfl

theorem rebuilds (d : Draft) : Rebuilds ctx v toDraft d := by
  obtain ⟨_, mimeType, extent, medium⟩ := d
  intro c h
  obtain ⟨he, h⟩ := commitAs_some.1 h
  obtain ⟨x, hx, h⟩ := bind_ok.1 h
  obtain ⟨rfl, rfl, rfl⟩ := make_keeps h
  have hagain := commitAs_getD (e := {}) rfl (Extent.rebuilds extent) hx
  refine commitAs_some.2 ⟨?_, bind_ok.2 ⟨_, hagain, h⟩⟩
  simpa only [isEmpty_draft, toDraft, isEmpty_eq hx, isEmpty_eq hagain] using he

end Format

namespace Link

variable {c : Link} {link : LinkAttributes}

theorem make_keeps (h : make ctx v link s = .ok c) : c.link = link ∧ c.security = s := by
  simp only [make, checked, bind_ok, within_ok, check_ok, exists_unit, pure_ok] at h
  obtain ⟨e, -, -, rfl⟩ := h
  exact ⟨rfl, rfl⟩

/-- All that a link says besides the draft is its type, which is the same for all. -/
theorem rebuilds (d : Draft) : Rebuilds ctx v toDraft d := by
  obtain ⟨_, href, role, title, label, security⟩ := d
  intro c h
  obtain ⟨he, h⟩ := commitAs_some.1 h
  obtain ⟨l, hl, h⟩ := bind_ok.1 h
  obtain ⟨s, hs, h⟩ := bind_ok.1 h
  obtain ⟨rfl, rfl⟩ := make_keeps h
  obtain ⟨hc, hlink⟩ := LinkAttributes.checked_ok.1 hl
  have hagain : LinkAttributes.locator v c.link.href c.link.role c.link.title c.link.label =
      .ok c.link := by
    rw [← hlink]
    exact LinkAttributes.checked_ok.2 ⟨hc, rfl⟩
  refine commitAs_some.2 ⟨?_, bind_ok.2 ⟨_, hagain, bind_ok.2
    ⟨_, SecurityAttributes.commitAs_toDraft hs, h⟩⟩⟩
  simpa only [isEmpty, toDraft, SecurityAttributes.toDraft_isEmpty hs, ← hlink] using he

end Link

namespace RelatedResource

variable {c : RelatedResource} {links : List Link} {relationship direction qualifier value : String}

theorem make_keeps (h : make ctx v links relationship direction qualifier value s = .ok c) :
    c.links = links ∧ c.relationship = relationship ∧ c.direction = direction ∧
      c.qualifier = qualifier ∧ c.value = value ∧ c.security = s := by
  simp only [make, checked, bind_ok, within_ok, check_ok, exists_unit, pure_ok] at h
  obtain ⟨e, -, -, rfl⟩ := h
  exact ⟨rfl, rfl, rfl, rfl, rfl, rfl⟩

theorem rebuilds (d : Draft) : Rebuilds ctx v toDraft d := by
  obtain ⟨_, relationship, direction, qualifier, value, links, security⟩ := d
  intro c h
  obtain ⟨he, h⟩ := commitAs_some.1 h
  obtain ⟨ls, hls, h⟩ := bind_ok.1 h
  obtain ⟨s, hs, h⟩ := bind_ok.1 h
  obtain ⟨rfl, rfl, rfl, rfl, rfl, rfl⟩ := make_keeps h
  have hagain := commitAll_toDraft (fun d _ => Link.rebuilds d) hls
  refine commitAs_some.2 ⟨?_, bind_ok.2 ⟨_, hagain, bind_ok.2
    ⟨_, SecurityAttributes.commitAs_toDraft hs, h⟩⟩⟩
  simpa only [isEmpty, toDraft, SecurityAttributes.toDraft_isEmpty hs, allEmpty_eq hls,
    allEmpty_eq hagain] using he

end RelatedResource

end DiscoveryMetadata
