import DiscoveryMetadata.Proofs.Warnings.Part
/-
  What is recorded at records and entities is what their checks find.

  Reading and making end in one check, whose findings are recorded (`Told.checked`). For each kind
  it remains that what the check is given is told: the attributes and the components inside.
-/
namespace DiscoveryMetadata

open Xml (Element)
open DiscoveryMetadata.Part (Told AllTold)

variable {ctx : Context} {v : Version} {e : Element}

section Steps

variable {α δ : Type} {read : Context → Version → Element → Outcome α} {f : α → Part}

theorem readAll_told (h : ∀ {e c}, read ctx v e = .ok c → Told ctx (f c)) {es : List Element}
    {cs : List α} (hr : readAll read ctx v es = .ok cs) : AllTold ctx (cs.map f) :=
  .map (readAll_all (fun _ _ hc => h hc) hr)

theorem readOption_told (h : ∀ {e c}, read ctx v e = .ok c → Told ctx (f c)) {o : Option Element}
    {c : Option α} (hr : readOption read ctx v o = .ok c) : AllTold ctx (c.map f).toList :=
  .option (readOption_all (fun _ _ hc => h hc) hr)

variable [Buildable δ α]

theorem commitAs_told (h : ∀ {d : δ} {c : α}, Buildable.build ctx v d = .ok c → Told ctx (f c))
    {d : δ} {c : Option α} (hr : Buildable.commitAs ctx v d = .ok c) :
    AllTold ctx (c.map f).toList :=
  .option (Buildable.commitAs_all (fun _ hc => h hc) hr)

theorem commitAll_told (h : ∀ {d : δ} {c : α}, Buildable.build ctx v d = .ok c → Told ctx (f c))
    {ds : List δ} {cs : List α} (hr : Buildable.commitAll ctx v ds = .ok cs) :
    AllTold ctx (cs.map f) :=
  .map (Buildable.commitAll_all (fun _ _ _ hc => h hc) hr)

end Steps

section Groups

namespace SecurityAttributes

variable {values : List (String × String)} {a : SecurityAttributes}

theorem told (h : checked ctx v values = .ok a) : Told ctx (.attributes a) := by
  simp only [checked, bind_ok, pure_ok] at h
  obtain ⟨ws, hw, rfl⟩ := h
  exact .of hw .nil

theorem ofElement_told (h : ofElement ctx v e = .ok a) : Told ctx (.attributes a) := told h

theorem commitAs_told {d : Draft} (h : d.commitAs ctx v = .ok a) : Told ctx (.attributes a) := by
  simp only [Draft.commitAs, ofValues, bind_ok] at h
  obtain ⟨_, -, h⟩ := h
  exact told h

end SecurityAttributes

namespace NoticeAttributes

variable {a : NoticeAttributes}

theorem told {c : NoticeAttributes} (h : checked ctx c = .ok a) :
    Told ctx (.noticeAttributes a) := by
  simp only [checked, bind_ok, pure_ok] at h
  obtain ⟨ws, hw, rfl⟩ := h
  exact .of hw .nil

theorem ofElement_told (h : ofElement ctx v e = .ok a) : Told ctx (.noticeAttributes a) := by
  simp only [ofElement, ofValues, bind_ok] at h
  obtain ⟨_, -, h⟩ := h
  exact told h

theorem ofValues_told {noticeType reason date unregistered : String} {external : Option Bool}
    (h : ofValues ctx v noticeType reason date unregistered external = .ok a) :
    Told ctx (.noticeAttributes a) :=
  told h

end NoticeAttributes

theorem Markings.told (m : Markings) : Told ctx (.markings m) := .of trivial .nil

end Groups

section Records

namespace Identifier

theorem ofElement_told {c : Identifier} (h : ofElement ctx v e = .ok c) :
    Told ctx (.identifier c) :=
  .checked (f := .identifier) h rfl .nil

theorem build_told {d : Draft} {c : Identifier} (h : Buildable.build ctx v d = .ok c) :
    Told ctx (.identifier c) :=
  ofElement_told h

end Identifier

namespace Caption

theorem ofElement_told {c : Caption} (h : ofElement ctx v e = .ok c) : Told ctx (.caption c) := by
  unfold ofElement at h
  cases hk : Kind.ofName? e.localName with
  | none => simp only [hk, within_ok, error_ok] at h
  | some kind =>
    simp only [hk, bind_ok, within_ok] at h
    obtain ⟨s, hs, h⟩ := h
    exact .checked (f := .caption) h rfl (.cons (SecurityAttributes.ofElement_told hs) .nil)

theorem build_told {d : Draft} {c : Caption} (h : Buildable.build ctx v d = .ok c) :
    Told ctx (.caption c) := by
  simp only [Buildable.build, make, bind_ok, within_ok] at h
  obtain ⟨s, hs, _, -, h⟩ := h
  exact .checked (f := .caption) h rfl (.cons (SecurityAttributes.commitAs_told hs) .nil)

end Caption

namespace Language

theorem ofElement_told {c : Language} (h : ofElement ctx v e = .ok c) : Told ctx (.language c) :=
  .checked (f := .language) h rfl .nil

theorem build_told {d : Draft} {c : Language} (h : Buildable.build ctx v d = .ok c) :
    Told ctx (.language c) :=
  ofElement_told h

end Language

namespace ApproximableDate

theorem ofElement_told {c : ApproximableDate} (h : ofElement ctx v e = .ok c) :
    Told ctx (.approximableDate c) :=
  .checked (f := .approximableDate) h rfl .nil

theorem build_told {d : Draft} {c : ApproximableDate} (h : Buildable.build ctx v d = .ok c) :
    Told ctx (.approximableDate c) :=
  ofElement_told h

end ApproximableDate

namespace Dates

theorem checked_told {c d : Dates} (h : checked c = .ok d)
    (hc : AllTold ctx (c.acquiredOns.map .approximableDate)) : Told ctx (.dates d) :=
  .checked (f := .dates) h rfl hc

theorem ofElement_told {c : Dates} (h : ofElement ctx v e = .ok c) : Told ctx (.dates c) := by
  simp only [ofElement, bind_ok, within_ok] at h
  obtain ⟨as, ha, h⟩ := h
  exact checked_told h (readAll_told ApproximableDate.ofElement_told ha)

theorem build_told {d : Draft} {c : Dates} (h : Buildable.build ctx v d = .ok c) :
    Told ctx (.dates c) := by
  simp only [Buildable.build, make, bind_ok] at h
  obtain ⟨as, ha, h⟩ := h
  exact checked_told h (commitAll_told ApproximableDate.build_told ha)

end Dates

namespace Rights

theorem ofElement_told {c : Rights} (h : ofElement ctx v e = .ok c) : Told ctx (.rights c) := by
  simp only [ofElement, bind_ok, within_ok, pure_ok] at h
  obtain ⟨_, -, _, -, _, -, _, -, rfl⟩ := h
  exact .of rfl .nil

theorem build_told {d : Draft} {c : Rights} (h : Buildable.build ctx v d = .ok c) :
    Told ctx (.rights c) :=
  ofElement_told h

end Rights

namespace Source

theorem ofElement_told {c : Source} (h : ofElement ctx v e = .ok c) : Told ctx (.source c) := by
  simp only [ofElement, bind_ok, within_ok] at h
  obtain ⟨s, hs, h⟩ := h
  exact .checked (f := .source) h rfl (.cons (SecurityAttributes.ofElement_told hs) .nil)

theorem build_told {d : Draft} {c : Source} (h : Buildable.build ctx v d = .ok c) :
    Told ctx (.source c) := by
  simp only [Buildable.build, make, bind_ok, within_ok] at h
  obtain ⟨_, -, _, -, h⟩ := h
  exact ofElement_told h

end Source

namespace ResourceType

theorem ofElement_told {c : ResourceType} (h : ofElement ctx v e = .ok c) :
    Told ctx (.resourceType c) := by
  simp only [ofElement, bind_ok, within_ok] at h
  obtain ⟨s, hs, h⟩ := h
  exact .checked (f := .resourceType) h rfl (.cons (SecurityAttributes.ofElement_told hs) .nil)

theorem build_told {d : Draft} {c : ResourceType} (h : Buildable.build ctx v d = .ok c) :
    Told ctx (.resourceType c) := by
  simp only [Buildable.build, make, bind_ok, within_ok] at h
  obtain ⟨_, -, _, -, h⟩ := h
  exact ofElement_told h

end ResourceType

namespace Extent

theorem ofElement_told {c : Extent} (h : ofElement ctx v e = .ok c) : Told ctx (.extent c) :=
  .checked (f := .extent) h rfl .nil

theorem build_told {d : Draft} {c : Extent} (h : Buildable.build ctx v d = .ok c) :
    Told ctx (.extent c) :=
  ofElement_told h

end Extent

namespace Format

theorem checked_told {c d : Format} (h : checked c = .ok d)
    (hc : AllTold ctx (c.extent.map .extent).toList) : Told ctx (.format d) :=
  .checked (f := .format) h rfl hc

theorem ofElement_told {c : Format} (h : ofElement ctx v e = .ok c) : Told ctx (.format c) := by
  simp only [ofElement, bind_ok, within_ok, withinHolder_ok] at h
  obtain ⟨x, hx, h⟩ := h
  exact checked_told h (readOption_told Extent.ofElement_told hx)

theorem build_told {d : Draft} {c : Format} (h : Buildable.build ctx v d = .ok c) :
    Told ctx (.format c) := by
  simp only [Buildable.build, make, bind_ok] at h
  obtain ⟨x, hx, h⟩ := h
  exact checked_told h (commitAs_told Extent.build_told hx)

end Format

namespace ExtensibleElement

theorem ofElement_told {c : ExtensibleElement} (h : ofElement ctx v e = .ok c) :
    Told ctx (.extensible c) :=
  .checked (f := .extensible) h rfl .nil

theorem build_told {d : Draft} {c : ExtensibleElement} (h : Buildable.build ctx v d = .ok c) :
    Told ctx (.extensible c) := by
  simp only [Buildable.build, ofXml, bind_ok] at h
  obtain ⟨_, -, h⟩ := h
  exact ofElement_told h

end ExtensibleElement

end Records

section Entities

namespace SubOrganization

theorem checked_told {c d : SubOrganization} (h : checked c = .ok d)
    (hs : Told ctx (.attributes c.security)) : Told ctx (.subOrganization d) :=
  .checked (f := .subOrganization) h rfl (.cons hs .nil)

theorem ofElement_told {c : SubOrganization} (h : ofElement ctx v e = .ok c) :
    Told ctx (.subOrganization c) := by
  simp only [ofElement, bind_ok, within_ok] at h
  obtain ⟨s, hs, h⟩ := h
  exact checked_told h (SecurityAttributes.ofElement_told hs)

theorem build_told {d : Draft} {c : SubOrganization} (h : Buildable.build ctx v d = .ok c) :
    Told ctx (.subOrganization c) := by
  simp only [Buildable.build, make, bind_ok, within_ok] at h
  obtain ⟨s, hs, _, -, h⟩ := h
  exact checked_told h (SecurityAttributes.commitAs_told hs)

end SubOrganization

namespace Organization

theorem checked_told {c d : Organization} (h : checked c = .ok d)
    (hc : AllTold ctx (c.subOrganizations.map .subOrganization)) : Told ctx (.organization d) :=
  .checked (f := .organization) h rfl hc

theorem ofElement_told {c : Organization} (h : ofElement ctx v e = .ok c) :
    Told ctx (.organization c) := by
  simp only [ofElement, bind_ok, within_ok] at h
  obtain ⟨subs, hs, h⟩ := h
  exact checked_told h (readAll_told SubOrganization.ofElement_told hs)

theorem build_told {d : Draft} {c : Organization} (h : Buildable.build ctx v d = .ok c) :
    Told ctx (.organization c) := by
  simp only [Buildable.build, make, bind_ok] at h
  obtain ⟨subs, hs, h⟩ := h
  exact checked_told h (commitAll_told SubOrganization.build_told hs)

end Organization

namespace Person

theorem checked_told {c d : Person} (h : checked c = .ok d) : Told ctx (.person d) :=
  .checked (f := .person) h rfl .nil

theorem ofElement_told {c : Person} (h : ofElement ctx v e = .ok c) : Told ctx (.person c) :=
  checked_told h

theorem build_told {d : Draft} {c : Person} (h : Buildable.build ctx v d = .ok c) :
    Told ctx (.person c) :=
  checked_told h

end Person

namespace NamedEntity

theorem checked_told {c d : NamedEntity} (h : checked c = .ok d) : Told ctx (.namedEntity d) :=
  .checked (f := .namedEntity) h rfl .nil

theorem ofElement_told {c : NamedEntity} (h : ofElement ctx v e = .ok c) :
    Told ctx (.namedEntity c) :=
  checked_told h

theorem build_told {d : Draft} {c : NamedEntity} (h : Buildable.build ctx v d = .ok c) :
    Told ctx (.namedEntity c) :=
  checked_told h

end NamedEntity

theorem Producer.ofElement_told {p : Producer} (h : ofElement ctx v e = .ok p) :
    Told ctx (Part.ofProducer p) := by
  unfold ofElement at h
  simp only at h
  split_ifs at h
  · obtain ⟨o, ho, rfl⟩ := map_ok.1 h
    exact Organization.ofElement_told ho
  · obtain ⟨c, hc, rfl⟩ := map_ok.1 h
    exact Person.ofElement_told hc
  · obtain ⟨n, hn, rfl⟩ := map_ok.1 h
    exact NamedEntity.ofElement_told hn

theorem TaskingEntity.ofElement_told {t : TaskingEntity} (h : ofElement ctx v e = .ok t) :
    Told ctx (Part.ofTaskingEntity t) := by
  unfold ofElement at h
  split_ifs at h
  · obtain ⟨o, ho, rfl⟩ := map_ok.1 h
    exact Organization.ofElement_told ho
  · obtain ⟨c, hc, rfl⟩ := map_ok.1 h
    exact Person.ofElement_told hc

namespace ProducerRole

theorem checked_told {c d : ProducerRole} (h : checked ctx c = .ok d)
    (hs : Told ctx (.attributes c.security))
    (he : AllTold ctx (c.entity.map Part.ofProducer).toList) : Told ctx (.producerRole d) := by
  simp only [checked, bind_ok, check_ok, pure_ok] at h
  obtain ⟨ws, hr, rfl⟩ := h
  exact .of ⟨ws, hr, rfl⟩ (.cons hs he)

theorem entityOf_told {o : Option Producer} (h : entityOf ctx v e = .ok o) :
    AllTold ctx (o.map Part.ofProducer).toList := by
  unfold entityOf at h
  split at h
  · split_ifs at h
    · obtain ⟨p, hp, rfl⟩ := map_ok.1 h
      exact .cons (Producer.ofElement_told hp) .nil
    · cases h
      exact .nil
  · cases h
    exact .nil

theorem ofElement_told {c : ProducerRole} (h : ofElement ctx v e = .ok c) :
    Told ctx (.producerRole c) := by
  unfold ofElement at h
  cases hk : Kind.ofName? e.localName with
  | none => simp only [hk, within_ok, error_ok] at h
  | some kind =>
    simp only [hk, bind_ok, within_ok] at h
    obtain ⟨entity, he, s, hs, h⟩ := h
    exact checked_told h (SecurityAttributes.ofElement_told hs) (entityOf_told he)

theorem commitEntity_told {d : Draft} {o : Option Producer} (h : d.commitEntity ctx v = .ok o) :
    AllTold ctx (o.map Part.ofProducer).toList := by
  unfold Draft.commitEntity at h
  cases ht : d.entityType <;> simp only [ht, bind_ok, pure_ok] at h <;>
    obtain ⟨c, hc, rfl⟩ := h <;> rw [Option.map_map]
  · exact commitAs_told Organization.build_told hc
  · exact commitAs_told Person.build_told hc
  · exact commitAs_told NamedEntity.build_told hc
  · exact commitAs_told NamedEntity.build_told hc

theorem build_told {d : Draft} {c : ProducerRole} (h : Buildable.build ctx v d = .ok c) :
    Told ctx (.producerRole c) := by
  simp only [Buildable.build, bind_ok] at h
  obtain ⟨o, ho, h⟩ := h
  cases o with
  | none => simp only [within_ok, error_ok] at h
  | some entity =>
    simp only [make, bind_ok, within_ok] at h
    obtain ⟨s, hs, _, -, h⟩ := h
    exact checked_told h (SecurityAttributes.commitAs_told hs) (commitEntity_told ho)

end ProducerRole

namespace TaskingRole

theorem checked_told {c d : TaskingRole} (h : checked c = .ok d)
    (hs : Told ctx (.attributes c.security))
    (he : AllTold ctx (c.entity.map Part.ofTaskingEntity).toList) : Told ctx (.taskingRole d) :=
  .checked (f := .taskingRole) h rfl (.cons hs he)

theorem entityOf_told {o : Option TaskingEntity} (h : entityOf ctx v e = .ok o) :
    AllTold ctx (o.map Part.ofTaskingEntity).toList := by
  unfold entityOf at h
  split at h
  · split_ifs at h
    · obtain ⟨t, ht, rfl⟩ := map_ok.1 h
      exact .cons (TaskingEntity.ofElement_told ht) .nil
    · cases h
      exact .nil
  · cases h
    exact .nil

theorem ofElement_told {c : TaskingRole} (h : ofElement ctx v e = .ok c) :
    Told ctx (.taskingRole c) := by
  unfold ofElement at h
  cases hk : Kind.ofName? e.localName with
  | none => simp only [hk, within_ok, error_ok] at h
  | some kind =>
    simp only [hk, bind_ok, within_ok] at h
    obtain ⟨entity, he, s, hs, h⟩ := h
    exact checked_told h (SecurityAttributes.ofElement_told hs) (entityOf_told he)

theorem commitEntity_told {d : Draft} {o : Option TaskingEntity}
    (h : d.commitEntity ctx v = .ok o) : AllTold ctx (o.map Part.ofTaskingEntity).toList := by
  unfold Draft.commitEntity at h
  cases ht : d.entityType <;> simp only [ht, bind_ok, pure_ok, within_ok, error_ok] at h <;>
    obtain ⟨c, hc, rfl⟩ := h <;> rw [Option.map_map]
  · exact commitAs_told Organization.build_told hc
  · exact commitAs_told Person.build_told hc

theorem build_told {d : Draft} {c : TaskingRole} (h : Buildable.build ctx v d = .ok c) :
    Told ctx (.taskingRole c) := by
  simp only [Buildable.build, bind_ok] at h
  obtain ⟨o, ho, h⟩ := h
  cases o with
  | none => simp only [within_ok, error_ok] at h
  | some entity =>
    simp only [make, bind_ok, within_ok] at h
    obtain ⟨s, hs, _, -, h⟩ := h
    exact checked_told h (SecurityAttributes.commitAs_told hs) (commitEntity_told ho)

end TaskingRole

end Entities

end DiscoveryMetadata
