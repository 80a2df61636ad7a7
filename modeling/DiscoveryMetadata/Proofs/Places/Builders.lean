import DiscoveryMetadata.Proofs.Naming.Configured
import DiscoveryMetadata.Proofs.Places.Basic
/-
  Where the faults of builders lie.

  A builder has the parts of its component made by other builders and its attributes by the groups
  that they belong to, and then makes the component itself. What it refuses itself it places under
  the name of its element (`Makes`). What the others refuse it hands out as it is, and does not put
  its own name in front (`Delegates`). Of every kind of drafts an instance of `Delegating` says
  which name the element has and what is left to others.

  The main statement is `AnyDraft.commit_located`. The place of a fault need not begin with the name
  of the element that was to be built, and there may be no place: `AnyDraft.faults_elsewhere`.
-/
namespace DiscoveryMetadata

open Buildable
open Xml (Element QName)

/-- A broken rule lies at a place that begins with the name, if this is not empty. -/
def Fault.At (name : String) (f : Fault) : Prop :=
  name ≠ "" → ∀ m l, f = .invalid m l → ∃ rest, l = some ("/" ++ name ++ rest)

/-- No schema goes without a prefix. -/
def Context.Explicit (ctx : Context) : Prop := ∀ s, ctx.prefixes.of s ≠ ""

section Prefixes

variable {ctx : Context} {v : Version} {l : String}

/-- The contexts of all configurations that are accepted are such. -/
theorem Context.explicit_of_check {c : Configuration} {v₀ : Version} (h : c.check = .ok v₀)
    (hctx : ctx.prefixes = c.prefixes) : ctx.Explicit := by
  intro s hs
  have hmem : ctx.prefixes.of s ∈ Schema.all.map c.prefixes.of := by
    rw [hctx]
    exact List.mem_map_of_mem (by cases s <;> decide)
  have hname := Configuration.isNCName_of_check h _ hmem
  rw [hs] at hname
  exact absurd hname (by decide)

theorem written_prefixed {p u : String} (h : p ≠ "") :
    (QName.prefixed p u l).written = p ++ ":" ++ l := by
  have hne : p.isEmpty = false := by simpa using h
  simp [QName.prefixed, QName.written, hne]

theorem written_prefixed_ne {p u : String} (h : p ≠ "") : (QName.prefixed p u l).written ≠ "" := by
  rw [written_prefixed h]
  simp [String.append_eq_empty_iff]

namespace Context.Explicit

variable (h : ctx.Explicit)
include h

theorem written_ddmsName : (ctx.ddmsName v l).written = ctx.prefixes.ddms ++ ":" ++ l :=
  written_prefixed (h .ddms)

theorem written_gmlName : (ctx.gmlName v l).written = ctx.prefixes.gml ++ ":" ++ l :=
  written_prefixed (h .gml)

theorem written_ntkName : (ctx.ntkName l).written = ctx.prefixes.ntk ++ ":" ++ l :=
  written_prefixed (h .ntk)

theorem ddmsName_ne : (ctx.ddmsName v l).written ≠ "" := written_prefixed_ne (h .ddms)

theorem ismName_ne : (ctx.ismName v l).written ≠ "" := written_prefixed_ne (h .ism)

theorem gmlName_ne : (ctx.gmlName v l).written ≠ "" := written_prefixed_ne (h .gml)

theorem ntkName_ne : (ctx.ntkName l).written ≠ "" := written_prefixed_ne (h .ntk)

end Context.Explicit

end Prefixes

section Steps

variable {α ρ : Type} [Component α] {n : QName} {x : Outcome ρ} {e : Element} {ctx : Context}
  {v : Version}

theorem Fails.at_within {name : String} :
    Fails (Fault.At name) (DiscoveryMetadata.within name x) := by
  intro f hf hname m l hl
  have hne : name.isEmpty = false := by simpa using hname
  cases x with
  | ok r => cases hf
  | error g =>
    obtain rfl := Except.error.inj hf
    -- a place is put in front of a broken rule only
    cases g with
    | invalid m' l' =>
      simp only [Fault.locate, hne, Bool.false_eq_true, if_false, Fault.invalid.injEq] at hl
      exact ⟨_, hl.2.symm⟩
    | _ => cases hl

/-- Only a schema that the version does not draw on makes this fail, which breaks no rule. -/
theorem Fails.at_nameIn {name l : String} {s : Schema} :
    Fails (Fault.At name) (ctx.nameIn v s l) := by
  refine .bind ?_ fun _ _ => .pure
  cases s with
  | ntk | virt =>
    simp only [Version.uriOf]
    split
    · exact .ok
    · exact .error.2 fun _ _ _ h => by cases h
  | _ => exact .ok

theorem Fails.at_elementIn {name l : String} {s : Schema} :
    Fails (Fault.At name) (ctx.elementIn v s l) := .bind .at_nameIn fun _ _ => .pure

theorem Fails.at_putIn {name l value : String} {s : Schema} :
    Fails (Fault.At name) (ctx.putIn v s l value e) := by
  unfold Context.putIn
  split
  · exact .ok
  · exact .bind .at_nameIn fun _ _ => .pure

theorem Fails.at_listOf {name l : String} {entries : List AccessEntity} :
    Fails (Fault.At name) (Access.listOf ctx v l entries) := by
  unfold Access.listOf
  split
  · exact .ok
  · exact .bind .at_elementIn fun _ _ => .pure

/-- What is made has an element with the name, and a fault that hinders it lies under the name. -/
structure Makes (n : QName) (x : Outcome α) : Prop where
  named : ∀ c, x = .ok c → (Component.base c).element.name = n
  located : Fails (Fault.At n.written) x

namespace Makes

variable {k : ρ → Outcome α}

theorem step (hx : Fails (Fault.At n.written) x) (hk : ∀ r, x = .ok r → Makes n (k r)) :
    Makes n (x >>= k) where
  named c hc := by
    obtain ⟨r, hr, hc⟩ := bind_ok.1 hc
    exact (hk r hr).named c hc
  located := .bind hx fun r hr => (hk r hr).located

theorem within (he : e.name = n) (hk : ∀ r, x = .ok r → Makes n (k r)) :
    Makes n (DiscoveryMetadata.within e.writtenName x >>= k) := by
  refine .step ?_ fun r hr => hk r (within_ok.1 hr)
  rw [Element.writtenName, he]
  exact .at_within

/-- Security attributes are put on the element. -/
theorem marked {s : SecurityAttributes} {k : Element → Outcome α} (he : e.name = n)
    (hk : ∀ e' : Element, e'.name = n → Makes n (k e')) :
    Makes n (DiscoveryMetadata.within e.writtenName (s.addTo ctx v e) >>= k) := by
  refine .within he fun e' h => hk e' ?_
  obtain ⟨-, rfl⟩ := SecurityAttributes.addTo_ok.1 h
  rw [SecurityAttributes.name_mark, he]

/-- All that is done is done inside the element. -/
theorem inside {x : Outcome α} (he : e.name = n)
    (hx : ∀ c, x = .ok c → (Component.base c).element.name = n) :
    Makes n (DiscoveryMetadata.within e.writtenName x) where
  named c hc := hx c (within_ok.1 hc)
  located := by
    rw [Element.writtenName, he]
    exact .at_within

/-- Extensible attributes are put on the element as well. -/
theorem extended {s : SecurityAttributes} {a : ExtensibleAttributes} {k : Element → Outcome α}
    (he : e.name = n) (hk : ∀ e' : Element, e'.name = n → Makes n (k e')) :
    Makes n (DiscoveryMetadata.within e.writtenName
      (do a.addTo v (← s.addTo ctx v e)) >>= k) := by
  refine .within he fun e' h => hk e' ?_
  obtain ⟨e₁, h₁, h⟩ := bind_ok.1 h
  obtain ⟨-, rfl⟩ := SecurityAttributes.addTo_ok.1 h₁
  rw [ExtensibleAttributes.foldlM_ok (ExtensibleAttributes.addTo_ok h)]
  exact (SecurityAttributes.name_mark _).trans he

/-- The element is that of a shape. -/
theorem shaped {l id : String} {srs : SrsAttributes} {k : Element → Outcome α}
    (hk : ∀ e' : Element, e'.name = ctx.gmlName v l → Makes n (k e')) :
    Makes n (Shape.element ctx v l id srs >>= k) :=
  .step (.bind .at_elementIn fun _ _ => .at_putIn) fun e' h => hk e' (Shape.name_element h)

/-- The element is one of the need-to-know rules. -/
theorem needToKnow {l : String} {k : Element → Outcome α} (hctx : ctx.Explicit)
    (hk : ∀ e' : Element, e'.name = ctx.ntkName l → Makes (ctx.ntkName l) (k e')) :
    Makes (ctx.ntkName l) (Ntk.element ctx v l >>= k) := by
  refine .step ?_ fun e' h => hk e' (by rw [(Ntk.element_ok h).1])
  rw [Ntk.element, hctx.written_ntkName]
  exact .at_within

/-- An attribute of the need-to-know rules is put on the element. -/
theorem put {l value : String} {k : Element → Outcome α} (he : e.name = n)
    (hk : ∀ e' : Element, e'.name = n → Makes n (k e')) :
    Makes n (ctx.putIn v .ntk l value e >>= k) :=
  .step .at_putIn fun e' h => hk e' (by rw [Context.putIn_ntk h, Element.name_put, he])

/-- The rules of the component itself. -/
theorem check {b : Base} {k : ρ → α} (hb : b.element.name = n)
    (hk : ∀ r, (Component.base (k r)).element = b.element) :
    Makes n (do let r ← b.check x; return k r) := by
  refine .within hb fun r _ => ⟨fun c hc => ?_, .pure⟩
  obtain rfl := pure_ok.1 hc
  rw [hk, hb]

end Makes

/-- A builder has things done by others first, and does the rest itself. What is made has an element
with the name. A fault of the others is handed out as it is, and one of the rest lies under the
name, if the builder is aware of that. -/
structure Delegates (aware : Prop) (n : QName) (others : Outcome Unit) (x : Outcome α) : Prop where
  named : ∀ c, x = .ok c → (Component.base c).element.name = n
  handed : ∀ f, others = .error f → x = .error f
  own : aware → others = .ok () → Fails (Fault.At n.written) x

namespace Delegates

variable {aware : Prop}

/-- Another builder or a group of attributes. -/
theorem step {others : ρ → Outcome Unit} {k : ρ → Outcome α}
    (h : ∀ r, x = .ok r → Delegates aware n (others r) (k r)) :
    Delegates aware n (x >>= others) (x >>= k) := by
  cases x with
  | error f =>
    exact ⟨nofun, fun g hg => by cases hg; rfl, nofun⟩
  | ok r => exact h r rfl

/-- The rest, where nothing is left for others. -/
theorem rest {x : Outcome α} (h : Makes n x) : Delegates aware n (pure ()) x where
  named := h.named
  handed := nofun
  own _ _ := h.located

/-- A refusal under a name that is written out. -/
theorem refused {name : String} {f : Fault} (h : aware → name = n.written) :
    Delegates (α := α) aware n (pure ()) (within name (.error f)) where
  named := nofun
  handed := nofun
  own ha _ := h ha ▸ .at_within

/-- A refusal for want of a part, under a name with the usual prefix. -/
theorem missing {wanting : Bool} {p usual l name : String} {f : Fault} (hwanting : wanting = true)
    (hn : n.written = p ++ ":" ++ l) (hname : name = usual ++ ":" ++ l) :
    Delegates (α := α) (wanting = false ∨ p = usual) n (pure ()) (within name (.error f)) := by
  refine .refused fun haware => ?_
  rcases haware with hgiven | rfl
  · cases hwanting.symm.trans hgiven
  · rw [hn, hname]

end Delegates

end Steps

/-- The kinds of drafts for which it is known what is left to others. -/
class Delegating (δ : Type) {α : outParam Type} [Component α] [Buildable δ α] where
  /-- The name of the element that is built. -/
  root : Context → Version → δ → QName
  /-- What other builders and groups of attributes do. -/
  others : Context → Version → δ → Outcome Unit := fun _ _ _ => pure ()
  /-- The builder refuses under the name that its element has. Some write the usual prefix out when
  they miss a part. -/
  aware : Context → Version → δ → Prop := fun _ _ _ => True
  delegates : ∀ {ctx : Context} (v : Version) (d : δ), ctx.Explicit →
    Delegates (aware ctx v d) (root ctx v d) (others ctx v d) (build ctx v d)
  root_ne : ∀ {ctx : Context} (v : Version) (d : δ), ctx.Explicit → aware ctx v d →
    (root ctx v d).written ≠ ""

section Records

instance : Delegating Identifier.Draft where
  root ctx v _ := ctx.ddmsName v "identifier"
  delegates _ _ _ := .rest (.check (by simp) fun _ => rfl)
  root_ne _ _ h _ := h.ddmsName_ne

instance : Delegating Caption.Draft where
  root ctx v d := ctx.ddmsName v d.kind.name
  others ctx v d := do
    let _ ← d.security.commitAs ctx v
    return ()
  delegates _ _ _ := .step fun _ _ => .rest (.marked (by simp) fun _ he => .check he fun _ => rfl)
  root_ne _ _ h _ := h.ddmsName_ne

instance : Delegating Language.Draft where
  root ctx v _ := ctx.ddmsName v "language"
  delegates _ _ _ := .rest (.check (by simp) fun _ => rfl)
  root_ne _ _ h _ := h.ddmsName_ne

instance : Delegating Rights.Draft where
  root ctx v _ := ctx.ddmsName v "rights"
  delegates v d _ := by
    refine .rest (.inside (by simp) fun c hc => ?_)
    simp only [bind_ok, pure_ok] at hc
    obtain ⟨_, -, _, -, _, -, _, -, rfl⟩ := hc
    simp [Component.base]
  root_ne _ _ h _ := h.ddmsName_ne

instance : Delegating Source.Draft where
  root ctx v _ := ctx.ddmsName v "source"
  others ctx v d := do
    let _ ← d.security.commitAs ctx v
    return ()
  delegates _ _ _ := .step fun _ _ => .rest (.marked (by simp) fun _ he =>
    .within he fun _ _ => .check he fun _ => rfl)
  root_ne _ _ h _ := h.ddmsName_ne

instance : Delegating ResourceType.Draft where
  root ctx v _ := ctx.ddmsName v "type"
  others ctx v d := do
    let _ ← d.security.commitAs ctx v
    return ()
  delegates _ _ _ := .step fun _ _ => .rest (.marked (by simp) fun _ he =>
    .within he fun _ _ => .check he fun _ => rfl)
  root_ne _ _ h _ := h.ddmsName_ne

instance : Delegating Extent.Draft where
  root ctx v _ := ctx.ddmsName v "extent"
  delegates _ _ _ := .rest (.check (by simp) fun _ => rfl)
  root_ne _ _ h _ := h.ddmsName_ne

instance : Delegating Format.Draft where
  root ctx v _ := ctx.ddmsName v "format"
  others ctx v d := do
    let _ ← commitAs ctx v d.extent
    return ()
  delegates _ _ _ := .step fun _ _ => .rest (.check (by simp) fun _ => rfl)
  root_ne _ _ h _ := h.ddmsName_ne

instance : Delegating ApproximableDate.Draft where
  root ctx v d := ctx.ddmsName v d.name
  delegates _ _ _ := .rest (.check (by simp) fun _ => rfl)
  root_ne _ _ h _ := h.ddmsName_ne

instance : Delegating Dates.Draft where
  root ctx v _ := ctx.ddmsName v "dates"
  others ctx v d := do
    let _ ← commitAll ctx v d.acquiredOns
    return ()
  delegates _ _ _ := .step fun _ _ => .rest (.check (by simp [DateValues.entries]) fun _ => rfl)
  root_ne _ _ h _ := h.ddmsName_ne

end Records

section Roles

instance : Delegating Organization.Draft where
  root ctx v _ := ctx.ddmsName v (Entity.name v "organization")
  others ctx v d := do
    let _ ← commitAll ctx v d.subOrganizations
    return ()
  delegates _ _ _ := .step fun _ _ => .rest (.check (by simp) fun _ => rfl)
  root_ne _ _ h _ := h.ddmsName_ne

instance : Delegating SubOrganization.Draft where
  root ctx v _ := ctx.ddmsName v "subOrganization"
  others ctx v d := do
    let _ ← d.security.commitAs ctx v
    return ()
  delegates _ _ _ := .step fun _ _ => .rest (.marked (by simp) fun _ he => .check he fun _ => rfl)
  root_ne _ _ h _ := h.ddmsName_ne

instance : Delegating Person.Draft where
  root ctx v _ := ctx.ddmsName v (Entity.name v "person")
  delegates _ _ _ := .rest (.check (by simp) fun _ => rfl)
  root_ne _ _ h _ := h.ddmsName_ne

instance : Delegating NamedEntity.Draft where
  root ctx v d := ctx.ddmsName v (Entity.name v d.kind.name)
  delegates _ _ _ := .rest (.check (by simp) fun _ => rfl)
  root_ne _ _ h _ := h.ddmsName_ne

instance : Delegating ProducerRole.Draft where
  root ctx v d := ctx.ddmsName v d.kind.name
  others ctx v d := do
    match ← d.commitEntity ctx v with
    | none => return ()
    | some _ =>
      let _ ← d.security.commitAs ctx v
      return ()
  delegates {ctx} v d hctx := by
    refine .step fun entity _ => ?_
    cases entity with
    | none => exact .refused fun _ => hctx.written_ddmsName.symm
    | some entity =>
      refine .step fun _ _ => .rest (.within (by simp) fun e' he => .check ?_ fun _ => rfl)
      obtain ⟨e₁, h₁, h⟩ := bind_ok.1 he
      obtain ⟨-, rfl⟩ := SecurityAttributes.addTo_ok.1 h
      rw [SecurityAttributes.name_mark, ProducerRole.addPocTypes_ok h₁]
      split <;> simp
  root_ne _ _ h _ := h.ddmsName_ne

end Roles

section Subjects

instance : Delegating Link.Draft where
  root ctx v _ := ctx.ddmsName v "link"
  others ctx v d := do
    let _ ← LinkAttributes.locator v d.href d.role d.title d.label
    let _ ← d.security.commitAs ctx v
    return ()
  delegates _ _ _ := .step fun _ _ => .step fun _ _ => .rest (.marked (by simp) fun _ he =>
    .check he fun _ => rfl)
  root_ne _ _ h _ := h.ddmsName_ne

instance : Delegating RelatedResource.Draft where
  root ctx v _ := ctx.ddmsName v (RelatedResource.name v)
  others ctx v d := do
    let _ ← commitAll ctx v d.links
    let _ ← d.security.commitAs ctx v
    return ()
  delegates _ _ _ := .step fun _ _ => .step fun _ _ => .rest (.marked (by split <;> simp)
    fun _ he => .check he fun _ => rfl)
  root_ne _ _ h _ := h.ddmsName_ne

instance : Delegating Keyword.Draft where
  root ctx v _ := ctx.ddmsName v Keyword.name
  others ctx v d := do
    let _ ← d.security.commitAs ctx v
    return ()
  delegates _ _ _ := .step fun _ _ => .rest (.extended (by simp) fun _ he => .check he fun _ => rfl)
  root_ne _ _ h _ := h.ddmsName_ne

instance : Delegating Category.Draft where
  root ctx v _ := ctx.ddmsName v Category.name
  others ctx v d := do
    let _ ← d.security.commitAs ctx v
    return ()
  delegates _ _ _ := .step fun _ _ => .rest (.extended (by simp) fun _ he => .check he fun _ => rfl)
  root_ne _ _ h _ := h.ddmsName_ne

instance : Delegating ProductionMetric.Draft where
  root ctx v _ := ctx.ddmsName v "productionMetric"
  others ctx v d := do
    let _ ← d.security.commitAs ctx v
    return ()
  delegates _ _ _ := .step fun _ _ => .rest (.marked (by simp) fun _ he => .check he fun _ => rfl)
  root_ne _ _ h _ := h.ddmsName_ne

instance : Delegating NonStateActor.Draft where
  root ctx v _ := ctx.ddmsName v "nonStateActor"
  others ctx v d := do
    let _ ← d.security.commitAs ctx v
    return ()
  delegates _ _ _ := .step fun _ _ => .rest (.marked (by simp) fun _ he => .check he fun _ => rfl)
  root_ne _ _ h _ := h.ddmsName_ne

instance : Delegating SubjectCoverage.Draft where
  root ctx v _ := ctx.ddmsName v "subjectCoverage"
  others ctx v d := do
    let _ ← commitAll ctx v d.keywords
    let _ ← commitAll ctx v d.categories
    let _ ← commitAll ctx v d.productionMetrics
    let _ ← commitAll ctx v d.nonStateActors
    let _ ← d.security.commitAs ctx v
    return ()
  delegates _ _ _ := .step fun _ _ => .step fun _ _ => .step fun _ _ => .step fun _ _ =>
    .step fun _ _ => .rest (.marked (by simp) fun _ he => .check he fun _ => rfl)
  root_ne _ _ h _ := h.ddmsName_ne

instance : Delegating VirtualCoverage.Draft where
  root ctx v _ := ctx.ddmsName v "virtualCoverage"
  others ctx v d := do
    let _ ← d.security.commitAs ctx v
    return ()
  delegates _ _ _ := .step fun _ _ => .rest (.marked (by simp) fun _ he => .check he fun _ => rfl)
  root_ne _ _ h _ := h.ddmsName_ne

instance : Delegating TemporalCoverage.Draft where
  root ctx v _ := ctx.ddmsName v "temporalCoverage"
  others ctx v d := do
    let _ ← TemporalCoverage.Draft.bound ctx v d.startText d.approximableStart
    let _ ← TemporalCoverage.Draft.bound ctx v d.endText d.approximableEnd
    let _ ← d.security.commitAs ctx v
    return ()
  delegates _ _ _ := .step fun _ _ => .step fun _ _ => .step fun _ _ =>
    .rest (.marked (by simp) fun _ he => .check he fun _ => rfl)
  root_ne _ _ h _ := h.ddmsName_ne

end Subjects

section Spaces

instance : Delegating AreaCode.Draft where
  root ctx v d := ctx.ddmsName v d.kind.name
  delegates _ _ _ := .rest (.check (by simp) fun _ => rfl)
  root_ne _ _ h _ := h.ddmsName_ne

instance : Delegating FacilityIdentifier.Draft where
  root ctx v _ := ctx.ddmsName v "facilityIdentifier"
  delegates _ _ _ := .rest (.check (by simp) fun _ => rfl)
  root_ne _ _ h _ := h.ddmsName_ne

instance : Delegating GeographicIdentifier.Draft where
  root ctx v _ := ctx.ddmsName v "geographicIdentifier"
  others ctx v d := do
    let _ ← commitAs ctx v { d.countryCode with kind := .country }
    let _ ← commitAs ctx v { d.subDivisionCode with kind := .subDivision }
    let _ ← commitAs ctx v d.facilityIdentifier
    return ()
  delegates _ _ _ := by
    refine .step fun _ _ => .step fun _ _ => .step fun _ _ => .rest ?_
    exact .check (by simp) fun _ => rfl
  root_ne _ _ h _ := h.ddmsName_ne

instance : Delegating PostalAddress.Draft where
  root ctx v _ := ctx.ddmsName v "postalAddress"
  others ctx v d := do
    let _ ← commitAs ctx v { d.countryCode with kind := .country }
    return ()
  delegates _ _ _ := by
    refine .step fun _ _ => .rest ?_
    exact .check (by simp) fun _ => rfl
  root_ne _ _ h _ := h.ddmsName_ne

instance : Delegating BoundingBox.Draft where
  root ctx v _ := ctx.ddmsName v "boundingBox"
  delegates _ _ _ :=
    have he : ∀ ctx v west east south north,
        (BoundingBox.elementOf ctx v west east south north).name = ctx.ddmsName v "boundingBox" :=
      fun _ _ _ _ _ _ => rfl
    .rest (.within (he ..) fun _ _ => .within (he ..) fun _ _ => .within (he ..) fun _ _ =>
      .within (he ..) fun _ _ => .check (he ..) fun _ => rfl)
  root_ne _ _ h _ := h.ddmsName_ne

instance : Delegating VerticalExtent.Draft where
  root ctx v _ := ctx.ddmsName v "verticalExtent"
  delegates {ctx} v d _ := by
    have he : (VerticalExtent.elementOf ctx v d.minimum d.maximum d.unitOfMeasure d.datum).name =
        ctx.ddmsName v "verticalExtent" := by simp [VerticalExtent.elementOf]
    exact .rest (.within he fun _ _ => .within he fun _ _ => .check he fun _ => rfl)
  root_ne _ _ h _ := h.ddmsName_ne

instance : Delegating Position.Draft where
  root ctx v _ := ctx.gmlName v "pos"
  delegates _ _ _ := .rest (.check (by simp [Context.gmlName, Prefixes.of]) fun _ => rfl)
  root_ne _ _ h _ := h.gmlName_ne

instance : Delegating Point.Draft where
  root ctx v _ := ctx.gmlName v Shape.point
  others ctx v d := do
    let _ ← commitAs ctx v d.position
    return ()
  aware ctx _ d := isEmpty d.position = false ∨ ctx.prefixes.gml = "gml"
  delegates {ctx} v d hctx := by
    refine .step fun position hposition => ?_
    cases position with
    | none => exact .missing (commitAs_none.1 hposition) hctx.written_gmlName rfl
    | some position => exact .rest (.shaped fun _ he => .check (by simp [he]) fun _ => rfl)
  root_ne _ _ h _ := h.gmlName_ne

instance : Delegating Polygon.Draft where
  root ctx v _ := ctx.gmlName v Shape.polygon
  others ctx v d := do
    let _ ← commitAll ctx v d.positions
    return ()
  delegates _ _ _ := .step fun _ _ => .rest (.step .at_elementIn fun _ _ =>
    .step .at_elementIn fun _ _ => .shaped fun _ he => .check (by simp [he]) fun _ => rfl)
  root_ne _ _ h _ := h.gmlName_ne

instance : Delegating BoundingGeometry.Draft where
  root ctx v _ := ctx.ddmsName v "boundingGeometry"
  others ctx v d := do
    let _ ← commitAll ctx v d.polygons
    let _ ← commitAll ctx v d.points
    return ()
  delegates _ _ _ := .step fun _ _ => .step fun _ _ => .rest (.check (by simp) fun _ => rfl)
  root_ne _ _ h _ := h.ddmsName_ne

instance : Delegating GeospatialCoverage.Draft where
  root ctx v _ := ctx.ddmsName v "geospatialCoverage"
  others ctx v d := do
    let _ ← commitAs ctx v d.geographicIdentifier
    let _ ← commitAs ctx v d.boundingBox
    let _ ← commitAs ctx v d.boundingGeometry
    let _ ← commitAs ctx v d.postalAddress
    let _ ← commitAs ctx v d.verticalExtent
    let _ ← d.security.commitAs ctx v
    return ()
  delegates _ _ _ := .step fun _ _ => .step fun _ _ => .step fun _ _ => .step fun _ _ =>
    .step fun _ _ => .step fun _ _ => .rest (.marked (by simp) fun _ he => .check he fun _ => rfl)
  root_ne _ _ h _ := h.ddmsName_ne

end Spaces

section Managements

instance : Delegating ManagedText.Draft where
  root ctx v d := ctx.ddmsName v d.kind.name
  others ctx v d := do
    let _ ← d.security.commitAs ctx v
    return ()
  delegates _ _ _ := .step fun _ _ => .rest (.marked (by simp) fun _ he => .check he fun _ => rfl)
  root_ne _ _ h _ := h.ddmsName_ne

instance : Delegating ProcessingInfo.Draft where
  root ctx v _ := ctx.ddmsName v "processingInfo"
  others ctx v d := do
    let _ ← d.security.commitAs ctx v
    return ()
  delegates _ _ _ := .step fun _ _ => .rest (.marked (by simp) fun _ he => .check he fun _ => rfl)
  root_ne _ _ h _ := h.ddmsName_ne

instance : Delegating TaskId.Draft where
  root ctx v _ := ctx.ddmsName v "taskID"
  others _ v d := do
    let _ ← d.commitLink v
    return ()
  delegates {ctx} v d _ := by
    refine .step fun link _ => .rest ?_
    have he : (link.addTo ctx ((((ctx.textElement v "taskID" d.value).put
        (ctx.ddmsName v "taskingSystem") d.taskingSystem).put (TaskId.networkName ctx v)
        d.network).put (.unqualified "otherNetwork") d.otherNetwork)).name =
        ctx.ddmsName v "taskID" := by simp [LinkAttributes.name_addTo]
    exact .within he fun _ _ => .check he fun _ => rfl
  root_ne _ _ h _ := h.ddmsName_ne

instance : Delegating TaskingRole.Draft where
  root ctx v d := ctx.ddmsName v d.kind.name
  others ctx v d :=
    match d.entityType with
    | .organization | .person => do
      match ← d.commitEntity ctx v with
      | none => return ()
      | some _ =>
        let _ ← d.security.commitAs ctx v
        return ()
    | .service | .unknown => return ()
  delegates {ctx} v d hctx := by
    cases hentity : d.entityType with
    | organization | person =>
      refine .step fun entity _ => ?_
      cases entity with
      | none => exact .refused fun _ => hctx.written_ddmsName.symm
      | some entity =>
        exact .step fun _ _ => .rest (.marked (by simp) fun _ he => .check he fun _ => rfl)
    | service | unknown =>
      simp only [build, TaskingRole.Draft.commitEntity, hentity]
      exact .refused fun _ => hctx.written_ddmsName.symm
  root_ne _ _ h _ := h.ddmsName_ne

instance : Delegating TaskingInfo.Draft where
  root ctx v _ := ctx.ddmsName v "taskingInfo"
  others ctx v d := do
    let _ ← commitAll ctx v (d.requesters.map fun r => { r with kind := .requesterInfo })
    let _ ← commitAll ctx v (d.addressees.map fun r => { r with kind := .addressee })
    match ← commitAs ctx v d.taskId with
    | none => return ()
    | some _ =>
      let _ ← commitAs ctx v { d.description with kind := .description }
      let _ ← d.security.commitAs ctx v
      return ()
  aware ctx _ d := isEmpty d.taskId = false ∨ ctx.prefixes.ddms = "ddms"
  delegates {ctx} v d hctx := by
    refine .step fun _ _ => .step fun _ _ => .step fun taskId htask => ?_
    cases taskId with
    | none => exact .missing (commitAs_none.1 htask) hctx.written_ddmsName rfl
    | some taskId =>
      exact .step fun _ _ => .step fun _ _ => .rest (.marked (by simp) fun _ he =>
        .check he fun _ => rfl)
  root_ne _ _ h _ := h.ddmsName_ne

instance : Delegating RecordKeeper.Draft where
  root ctx v _ := ctx.ddmsName v "recordKeeper"
  others ctx v d := do
    let _ ← commitAs ctx v d.organization
    return ()
  aware ctx _ d := isEmpty d.organization = false ∨ ctx.prefixes.ddms = "ddms"
  delegates {ctx} v d hctx := by
    refine .step fun organization horganization => ?_
    cases organization with
    | none => exact .missing (commitAs_none.1 horganization) hctx.written_ddmsName rfl
    | some organization => exact .rest (.check (by simp) fun _ => rfl)
  root_ne _ _ h _ := h.ddmsName_ne

instance : Delegating RecordsInfo.Draft where
  root ctx v _ := ctx.ddmsName v "recordsManagementInfo"
  others ctx v d := do
    let _ ← commitAs ctx v d.recordKeeper
    let _ ← commitAs ctx v { d.applicationSoftware with kind := .applicationSoftware }
    return ()
  delegates _ _ _ := by
    refine .step fun _ _ => .step fun _ _ => .rest ?_
    exact .check (by simp) fun _ => rfl
  root_ne _ _ h _ := h.ddmsName_ne

instance : Delegating RevisionRecall.Draft where
  root ctx v _ := ctx.ddmsName v "revisionRecall"
  others ctx v d := do
    match d.revisionId with
    | none => return ()
    | some _ =>
      let _ ← d.commitLink v
      let _ ← d.security.commitAs ctx v
      let _ ← commitAll ctx v d.links
      let _ ← commitAll ctx v (d.details.map fun t => { t with kind := .details })
      return ()
  aware ctx _ d := d.revisionId.isNone = false ∨ ctx.prefixes.ddms = "ddms"
  delegates {ctx} v d hctx := by
    cases hid : d.revisionId with
    | none =>
      simp only [build, hid]
      exact .missing rfl hctx.written_ddmsName rfl
    | some revisionId =>
      simp only [build, hid]
      refine .step fun _ _ => .step fun _ _ => .step fun _ _ => .step fun _ _ => .rest ?_
      refine .within (by simp) fun e' he => .check ?_ fun _ => rfl
      obtain ⟨-, rfl⟩ := SecurityAttributes.addTo_ok.1 he
      simp [SecurityAttributes.name_mark, LinkAttributes.name_addTo]
  root_ne _ _ h _ := h.ddmsName_ne

instance : Delegating Management.Draft where
  root ctx v _ := ctx.ddmsName v "resourceManagement"
  others ctx v d := do
    let _ ← commitAs ctx v d.recordsInfo
    let _ ← commitAs ctx v d.revisionRecall
    let _ ← commitAll ctx v d.taskingInfos
    let _ ← commitAll ctx v d.processingInfos
    let _ ← d.security.commitAs ctx v
    return ()
  delegates _ _ _ := .step fun _ _ => .step fun _ _ => .step fun _ _ => .step fun _ _ =>
    .step fun _ _ => .rest (.marked (by simp) fun _ he => .check he fun _ => rfl)
  root_ne _ _ h _ := h.ddmsName_ne

end Managements

section Protections

instance : Delegating NoticeText.Draft where
  root ctx v _ := ctx.ismName v "NoticeText"
  others ctx v d := do
    let _ ← d.security.commitAs ctx v
    return ()
  delegates _ _ _ := .step fun _ _ => .rest (.marked (by simp [Context.ismName, Prefixes.of])
    fun _ he => .check (by simp [he]) fun _ => rfl)
  root_ne _ _ h _ := h.ismName_ne

instance : Delegating Notice.Draft where
  root ctx v _ := ctx.ismName v "Notice"
  others ctx v d := do
    let _ ← NoticeAttributes.ofValues ctx v d.noticeType d.noticeReason d.noticeDate
      d.unregisteredNoticeType d.externalNotice
    let _ ← commitAll ctx v d.texts
    let _ ← d.security.commitAs ctx v
    return ()
  delegates {ctx} v d _ := by
    refine .step fun _ _ => .step fun _ _ => .step fun _ _ => .rest (.step .at_elementIn ?_)
    rintro e he
    obtain rfl : { name := ctx.ismName v "Notice" } = e := Except.ok.inj he
    refine .within rfl fun e' h => .check ?_ fun _ => rfl
    obtain ⟨e₁, h₁, h⟩ := bind_ok.1 h
    obtain ⟨-, rfl⟩ := SecurityAttributes.addTo_ok.1 h₁
    rw [NoticeAttributes.addTo_ok h]
    simp
  root_ne _ _ h _ := h.ismName_ne

instance : Delegating NoticeList.Draft where
  root ctx v _ := ctx.ddmsName v "noticeList"
  others ctx v d := do
    let _ ← commitAll ctx v d.notices
    let _ ← d.security.commitAs ctx v
    return ()
  delegates _ _ _ := .step fun _ _ => .step fun _ _ => .rest (.marked (by simp) fun _ he =>
    .check he fun _ => rfl)
  root_ne _ _ h _ := h.ddmsName_ne

instance : Delegating AccessText.Draft where
  root ctx _ d := ctx.ntkName d.kind.name
  others ctx v d := do
    let _ ← d.security.commitAs ctx v
    return ()
  delegates _ _ h := .step fun _ _ => .rest (.needToKnow h fun _ he =>
    .put (by simp [he]) fun _ he => .put he fun _ he => .put he fun _ he => .put he fun _ he =>
      .marked he fun _ he => .check he fun _ => rfl)
  root_ne _ _ h _ := h.ntkName_ne

instance : Delegating AccessEntity.Draft where
  root ctx _ d := ctx.ntkName d.kind.name
  others ctx v d := do
    let _ ← commitAs ctx v { d.systemName with kind := .systemName }
    let _ ← commitAll ctx v (d.values.map fun t => { t with kind := d.kind.valueKind })
    let _ ← d.security.commitAs ctx v
    return ()
  delegates _ _ h := by
    refine .step fun _ _ => .step fun _ _ => .step fun _ _ => .rest ?_
    exact .needToKnow h fun _ he => .marked (by simp [he]) fun _ he => .check he fun _ => rfl
  root_ne _ _ h _ := h.ntkName_ne

instance : Delegating ProfileList.Draft where
  root ctx _ _ := ctx.ntkName ProfileList.name
  others ctx v d := do
    let _ ← commitAll ctx v (AccessEntity.Draft.allOf .profile d.profiles)
    let _ ← d.security.commitAs ctx v
    return ()
  delegates _ _ h := .step fun _ _ => .step fun _ _ =>
    .rest (.needToKnow h fun _ he => .marked (by simp [he]) fun _ he => .check he fun _ => rfl)
  root_ne _ _ h _ := h.ntkName_ne

instance : Delegating Access.Draft where
  root ctx _ _ := ctx.ntkName Access.name
  others ctx v d := do
    let _ ← commitAll ctx v (AccessEntity.Draft.allOf .individual d.individuals)
    let _ ← commitAll ctx v (AccessEntity.Draft.allOf .group d.groups)
    let _ ← commitAs ctx v d.profileList
    let _ ← d.security.commitAs ctx v
    return ()
  delegates _ _ h := .step fun _ _ => .step fun _ _ => .step fun _ _ => .step fun _ _ =>
    .rest (.needToKnow h fun _ he => .step .at_listOf fun _ _ => .step .at_listOf fun _ _ =>
      .marked (by simp [he]) fun _ he => .check he fun _ => rfl)
  root_ne _ _ h _ := h.ntkName_ne

instance : Delegating Security.Draft where
  root ctx v _ := ctx.ddmsName v Security.name
  others ctx v d := do
    let _ ← commitAs ctx v d.noticeList
    let _ ← commitAs ctx v d.access
    let _ ← d.security.commitAs ctx v
    return ()
  delegates _ _ _ := .step fun _ _ => .step fun _ _ => .step fun _ _ =>
    .rest (.marked (by split <;> simp) fun _ he => .check he fun _ => rfl)
  root_ne _ _ h _ := h.ddmsName_ne

end Protections

section Resources

/-- The name of the element that the draft holds as XML, if it holds one. -/
def ExtensibleElement.Draft.root (d : Draft) : QName :=
  ((Element.ofXml d.xml).toOption.map Element.name).getD (.unqualified "")

instance : Delegating ExtensibleElement.Draft where
  root _ _ d := d.root
  others _ _ d := do
    let _ ← Element.ofXml d.xml
    return ()
  aware _ _ d := d.root.written ≠ ""
  delegates v d _ := by
    refine .step fun e he => .rest (.check ?_ fun _ => rfl)
    rw [ExtensibleElement.Draft.root, he]
    rfl
  root_ne _ _ _ h := h

instance : Delegating Resource.Draft where
  root ctx v _ := ctx.ddmsName v (TopLevel.resourceName v)
  others ctx v d := do
    let _ ← d.commitComponents ctx v
    let _ ← NoticeAttributes.ofValues ctx v d.noticeType d.noticeReason d.noticeDate
      d.unregisteredNoticeType d.externalNotice
    let _ ← ExtensibleAttributes.ofList v d.extensible
    let _ ← d.security.commitAs ctx v
    return ()
  delegates {ctx} v d _ := by
    refine .step fun _ _ => .step fun _ _ => .step fun _ _ => .step fun _ _ => .rest ?_
    refine .within rfl fun e' he => .check ?_ fun _ => rfl
    obtain ⟨e₁, hmarked, h₁⟩ := bind_ok.1 he
    obtain ⟨e₂, hsecured, h₂⟩ := bind_ok.1 h₁
    obtain ⟨e₃, hnoticed, h₃⟩ := bind_ok.1 h₂
    rw [ExtensibleAttributes.foldlM_ok (ExtensibleAttributes.addTo_ok h₃),
      NoticeAttributes.addTo_ok hnoticed, (SecurityAttributes.addTo_ok.1 hsecured).2,
      (Markings.addTo_ok hmarked).1]
    simp [Markings.put, SecurityAttributes.name_mark]
  root_ne _ _ h _ := h.ddmsName_ne

end Resources

/-- A draft of any kind, with what is known of the kind. -/
structure Builder where
  {δ α : Type}
  [component : Component α]
  [buildable : Buildable δ α]
  [delegating : Delegating δ]
  draft : δ

namespace Builder

attribute [instance] component buildable delegating

variable (ctx : Context) (v : Version) (b : Builder)

/-- The draft holds nothing. -/
def isEmpty : Bool := Buildable.isEmpty b.draft

/-- Makes the component unless the draft is empty, and keeps of it what every component has. -/
def commitAs : Outcome (Option Base) :=
  (Buildable.commitAs ctx v b.draft).map (·.map Component.base)

/-- The name of the element that is built. -/
def root : QName := Delegating.root ctx v b.draft

/-- What other builders and groups of attributes do. -/
def others : Outcome Unit := Delegating.others ctx v b.draft

/-- The builder refuses under the name that its element has. -/
def Aware : Prop := Delegating.aware ctx v b.draft

variable {ctx v b}

theorem build_of_commitAs {f : Fault} (h : b.commitAs ctx v = .error f) :
    build ctx v b.draft = .error f := by
  have hcommit := map_error.1 h
  unfold Buildable.commitAs at hcommit
  split at hcommit
  · cases hcommit
  · exact map_error.1 hcommit

variable (hctx : ctx.Explicit)
include hctx

/-- What is made has an element with the name. -/
theorem named {base : Base} (h : b.commitAs ctx v = .ok (some base)) :
    base.element.name = b.root ctx v := by
  obtain ⟨o, ho, hbase⟩ := map_ok.1 h
  obtain ⟨c, rfl, rfl⟩ := Option.map_eq_some_iff.1 hbase
  exact (Delegating.delegates v b.draft hctx).named c (commitAs_some.1 ho).2

/-- A fault of the others is handed out as it is. -/
theorem handed {f : Fault} (hempty : b.isEmpty = false) (h : b.others ctx v = .error f) :
    b.commitAs ctx v = .error f := by
  have hempty : Buildable.isEmpty b.draft = false := hempty
  refine map_error.2 ?_
  unfold Buildable.commitAs
  rw [hempty, if_neg Bool.false_ne_true, (Delegating.delegates v b.draft hctx).handed f h]
  rfl

/-- Any other broken rule lies under the name of the element. -/
theorem own {m : String} {l : Option String} (haware : b.Aware ctx v)
    (h : b.commitAs ctx v = .error (.invalid m l)) : b.others ctx v = .error (.invalid m l) ∨
      ∃ rest, l = some ("/" ++ (b.root ctx v).written ++ rest) := by
  have hdelegates := Delegating.delegates v b.draft hctx
  have hbuild := build_of_commitAs h
  cases hothers : b.others ctx v with
  | error g =>
    rw [hdelegates.handed g hothers] at hbuild
    exact .inl (congrArg Except.error (Except.error.inj hbuild))
  | ok u =>
    have hname := Delegating.root_ne v b.draft hctx haware
    exact .inr (hdelegates.own haware hothers _ hbuild hname m l rfl)

end Builder

/-- The draft with what is known of its kind. -/
def AnyDraft.builder : AnyDraft → Builder
  | access d => ⟨d⟩
  | accessEntity d => ⟨d⟩
  | accessText d => ⟨d⟩
  | approximableDate d => ⟨d⟩
  | areaCode d => ⟨d⟩
  | boundingBox d => ⟨d⟩
  | boundingGeometry d => ⟨d⟩
  | caption d => ⟨d⟩
  | category d => ⟨d⟩
  | dates d => ⟨d⟩
  | extensibleElement d => ⟨d⟩
  | extent d => ⟨d⟩
  | facilityIdentifier d => ⟨d⟩
  | format d => ⟨d⟩
  | geographicIdentifier d => ⟨d⟩
  | geospatialCoverage d => ⟨d⟩
  | identifier d => ⟨d⟩
  | keyword d => ⟨d⟩
  | language d => ⟨d⟩
  | link d => ⟨d⟩
  | managedText d => ⟨d⟩
  | management d => ⟨d⟩
  | namedEntity d => ⟨d⟩
  | nonStateActor d => ⟨d⟩
  | notice d => ⟨d⟩
  | noticeList d => ⟨d⟩
  | noticeText d => ⟨d⟩
  | organization d => ⟨d⟩
  | person d => ⟨d⟩
  | point d => ⟨d⟩
  | polygon d => ⟨d⟩
  | position d => ⟨d⟩
  | postalAddress d => ⟨d⟩
  | processingInfo d => ⟨d⟩
  | producerRole d => ⟨d⟩
  | productionMetric d => ⟨d⟩
  | profileList d => ⟨d⟩
  | recordKeeper d => ⟨d⟩
  | recordsInfo d => ⟨d⟩
  | relatedResource d => ⟨d⟩
  | resource d => ⟨d⟩
  | resourceType d => ⟨d⟩
  | revisionRecall d => ⟨d⟩
  | rights d => ⟨d⟩
  | security d => ⟨d⟩
  | source d => ⟨d⟩
  | subOrganization d => ⟨d⟩
  | subjectCoverage d => ⟨d⟩
  | taskId d => ⟨d⟩
  | taskingInfo d => ⟨d⟩
  | taskingRole d => ⟨d⟩
  | temporalCoverage d => ⟨d⟩
  | verticalExtent d => ⟨d⟩
  | virtualCoverage d => ⟨d⟩

namespace AnyDraft

/-- With the usual prefixes a builder refuses under the name that its element has. Elements from
outside the schemas may have no name. -/
theorem aware_of_usual (d : AnyDraft) (ctx : Context) (v : Version)
    (hddms : ctx.prefixes.ddms = "ddms") (hgml : ctx.prefixes.gml = "gml")
    (hd : ∀ x, d = .extensibleElement x → x.root.written ≠ "") : d.builder.Aware ctx v := by
  cases d with
  | extensibleElement x => exact hd x rfl
  | point => exact .inr hgml
  | recordKeeper | revisionRecall | taskingInfo => exact .inr hddms
  | _ => trivial

/-- Whatever its kind, its content and the version, a draft leads to an element with the name of
its kind, or to a fault. A fault of another builder or of a group of attributes is handed out as it
is. Any other broken rule lies at a place that begins with the name of the element. -/
theorem commit_located (d : AnyDraft) (ctx : Context) (v : Version) (hctx : ctx.Explicit) :
    (∀ b, d.builder.commitAs ctx v = .ok (some b) → b.element.name = d.builder.root ctx v) ∧
    (∀ f, d.builder.isEmpty = false → d.builder.others ctx v = .error f →
      d.builder.commitAs ctx v = .error f) ∧
    (d.builder.Aware ctx v → ∀ m l, d.builder.commitAs ctx v = .error (.invalid m l) →
      d.builder.others ctx v = .error (.invalid m l) ∨
        ∃ rest, l = some ("/" ++ (d.builder.root ctx v).written ++ rest)) :=
  ⟨fun _ h => Builder.named hctx h, fun _ hempty h => Builder.handed hctx hempty h,
    fun haware _ _ h => Builder.own hctx haware h⟩

/-- An identifier without a value, which the schema asks for. -/
def unvalued : Identifier.Draft := { qualifier := "urn:isbn" }

theorem commit_located_unvalued : Context.Explicit {} ∧ ∃ m rest,
    (AnyDraft.identifier unvalued).builder.commitAs {} .v5_0 =
      .error (.invalid m (some ("/" ++ "ddms:identifier" ++ rest))) ∧
    (AnyDraft.resource { identifiers := [unvalued] }).builder.commitAs {} .v5_0 =
      .error (.invalid m (some ("/" ++ "ddms:identifier" ++ rest))) := by
  have hcheck : ({} : Configuration).check = .ok .v5_0 := toOption_ok.1 (by decide +kernel)
  have hctx : Context.Explicit {} := Context.explicit_of_check hcheck rfl
  have hfails : ((AnyDraft.identifier unvalued).builder.commitAs {} .v5_0).map (fun _ => ()) =
      .error (.invalid "value attribute is required." (some "/ddms:identifier")) := by
    decide +kernel
  have hcommit := map_error.1 hfails
  have haware := aware_of_usual (.identifier unvalued) {} .v5_0 rfl rfl nofun
  rcases (commit_located _ {} .v5_0 hctx).2.2 haware _ _ hcommit with hothers | ⟨rest, hrest⟩
  · cases hothers
  refine ⟨hctx, _, rest, hcommit.trans (by rw [hrest]; rfl), ?_⟩
  have hresource : (AnyDraft.resource { identifiers := [unvalued] }).builder.others {} .v5_0 =
      .error (.invalid "value attribute is required." (some "/ddms:identifier")) := by
    decide +kernel
  exact (commit_located _ {} .v5_0 hctx).2.1 _ rfl (hresource.trans (by rw [hrest]; rfl))

/-- Each broken rule that keeps the draft from being made lies under the name of its element. -/
def Located (d : AnyDraft) (ctx : Context) (v : Version) : Prop :=
  ∀ m l, d.builder.commitAs ctx v = .error (.invalid m l) →
    ∃ rest, l = some ("/" ++ (d.builder.root ctx v).written ++ rest)

theorem not_located {d : AnyDraft} {ctx : Context} {v : Version} {m : String} {l : Option String}
    (h : (d.builder.commitAs ctx v).map (fun _ => ()) = .error (.invalid m l))
    (hl : ¬("/" ++ (d.builder.root ctx v).written).toList <+: (l.getD "").toList) :
    ¬d.Located ctx v := by
  intro hlocated
  obtain ⟨rest, rfl⟩ := hlocated m l (map_error.1 h)
  exact hl ⟨rest.toList, by simp⟩

/-- What is wrong with the link of a task has no place at all, what is wrong with an identifier has
no place in its resource, and a recall is not found under the prefix in use. -/
theorem faults_elsewhere :
    ¬(AnyDraft.taskId { value := "T", role := "x y" }).Located {} .v5_0 ∧
      ¬(AnyDraft.resource { identifiers := [unvalued] }).Located {} .v5_0 ∧
      ¬(AnyDraft.revisionRecall { value := "T" }).Located { prefixes := { ddms := "d" } } .v5_0 :=
  have hlink : ((AnyDraft.taskId { value := "T", role := "x y" }).builder.commitAs {} .v5_0).map
      (fun _ => ()) = .error (.invalid "Invalid URI (Illegal character ' '): x y" none) := by
    decide +kernel
  have hidentifier : ((AnyDraft.resource { identifiers := [unvalued] }).builder.commitAs {}
      .v5_0).map (fun _ => ()) =
        .error (.invalid "value attribute is required." (some "/ddms:identifier")) := by
    decide +kernel
  have hrecall : ((AnyDraft.revisionRecall { value := "T" }).builder.commitAs
      { prefixes := { ddms := "d" } } .v5_0).map (fun _ => ()) =
        .error (.invalid "revision ID is required." (some "/ddms:revisionRecall")) := by
    decide +kernel
  ⟨not_located hlink (by decide), not_located hidentifier (by decide),
    not_located hrecall (by decide)⟩

end AnyDraft

end DiscoveryMetadata
