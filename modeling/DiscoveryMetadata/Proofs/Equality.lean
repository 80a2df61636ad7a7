import DiscoveryMetadata.Proofs.Text.Words
import DiscoveryMetadata.Resource
/-
  What is equal to itself, and the numbers on which that depends.

  Components are compared by the names of their elements and by their contents, and so each is
  equal to itself, with one exception: a number that is none equals nothing. The numbers of a
  resource are the coordinates, bounds and heights of its geospatial coverages; they are counted
  here on the drafts (`Resource.Draft.numbers`), and the numbers of a component are those of its
  draft. `Resource.beq_self` says that a resource without such numbers is equal to itself.
-/
namespace DiscoveryMetadata

namespace Double

/-- The double is a number, and the text it is written as reads back to it. -/
def Faithful (x : Double) : Prop := x.isNaN = false ∧ ofContent? x.format = some x

instance (x : Double) : Decidable x.Faithful := inferInstanceAs (Decidable (_ ∧ _))

theorem beq_self {x : Double} (h : x.isNaN = false) : (x == x) = true := by
  change x.equal x = true
  simp [equal, h]

theorem ofContent?_blank {t : String} (h : Text.isBlank t = true) : ofContent? t = none := by
  rw [ofContent?, Text.trim_of_isBlank h]
  decide

theorem Faithful.isBlank_format {x : Double} (h : x.Faithful) : Text.isBlank x.format = false := by
  rw [← Bool.not_eq_true]
  intro hb
  cases (ofContent?_blank hb).symm.trans h.2

end Double

section Collections

variable {α : Type} [BEq α]

theorem list_beq_self {l : List α} (h : ∀ x ∈ l, (x == x) = true) : (l == l) = true := by
  induction l with
  | nil => rfl
  | cons x r ih =>
    obtain ⟨hx, hr⟩ := List.forall_mem_cons.1 h
    rw [List.cons_beq_cons, hx, ih hr]
    rfl

theorem option_beq_self {o : Option α} (h : ∀ x ∈ o, (x == x) = true) : (o == o) = true := by
  cases o with
  | none => rfl
  | some x => exact h x rfl

end Collections

section Plain

instance : ReflBEq Base where
  rfl := by
    intro b
    change b.element.name.sameExpanded b.element.name = true
    simp [Xml.QName.sameExpanded]

instance : ReflBEq SecurityAttributes where
  rfl := by
    intro a
    change (a.values == a.values) = true
    exact beq_self_eq_true _

instance : ReflBEq NoticeAttributes where
  rfl := by
    intro a
    change (_ && _ && _ && _ && _) = true
    simp

instance : ReflBEq ExtensibleElement where
  rfl := by
    intro c
    change (_ && _) = true
    simp

deriving instance ReflBEq for
  Identifier, Caption, Language, ApproximableDate, Dates, Rights, Source, ResourceType, Extent,
  Format, SubOrganization, Organization, Person, NamedEntity, Producer, ProducerRole, Keyword,
  Category, ProductionMetric, NonStateActor, SubjectCoverage, VirtualCoverage, TimeBound,
  TemporalCoverage, AreaCode, FacilityIdentifier, GeographicIdentifier, PostalAddress, Link,
  RelatedResource, TaskingEntity, TaskingRole, TaskId, TaskingInfo, ManagedText, RevisionRecall,
  RecordKeeper, RecordsInfo, ProcessingInfo, Management, NoticeText, Notice, NoticeList,
  AccessText, AccessEntity, ProfileList, Access, Security

end Plain

section Numbers

/-- The coordinates that are given. -/
def Position.Draft.numbers (d : Position.Draft) : List Double := d.coordinates.filterMap id

/-- The coordinates of the position. -/
def Point.Draft.numbers (d : Point.Draft) : List Double := d.position.numbers

/-- The coordinates of the positions. -/
def Polygon.Draft.numbers (d : Polygon.Draft) : List Double := d.positions.flatMap (·.numbers)

/-- The coordinates of the shapes. -/
def BoundingGeometry.Draft.numbers (d : BoundingGeometry.Draft) : List Double :=
  d.polygons.flatMap (·.numbers) ++ d.points.flatMap (·.numbers)

/-- The bounds that are given. -/
def BoundingBox.Draft.numbers (d : BoundingBox.Draft) : List Double :=
  [d.west, d.east, d.south, d.north].filterMap id

/-- The heights that are given. -/
def VerticalExtent.Draft.numbers (d : VerticalExtent.Draft) : List Double :=
  [d.minimum, d.maximum].filterMap id

/-- The numbers that describe the space. -/
def GeospatialCoverage.Draft.numbers (d : GeospatialCoverage.Draft) : List Double :=
  d.boundingBox.numbers ++ d.boundingGeometry.numbers ++ d.verticalExtent.numbers

/-- The numbers of all geospatial coverages. -/
def Resource.Draft.numbers (d : Resource.Draft) : List Double :=
  d.geospatialCoverages.flatMap (·.numbers)

/-- The numbers of a component of a resource. -/
def TopLevel.numbers : TopLevel → List Double
  | .geospatial c => c.toDraft.numbers
  | _ => []

end Numbers

section Measured

/-- What is said of every number of a list of drafts is said of those of each. -/
theorem forall_numbers {α δ : Type} {f : α → δ} {numbers : δ → List Double} {p : Double → Prop}
    {cs : List α} (h : ∀ x ∈ (cs.map f).flatMap numbers, p x) :
    ∀ c ∈ cs, ∀ x ∈ numbers (f c), p x :=
  fun c hc x hx => h x (List.mem_flatMap.2 ⟨f c, List.mem_map_of_mem hc, hx⟩)

theorem Position.beq_self {c : Position} (h : ∀ x ∈ c.toDraft.numbers, x.isNaN = false) :
    (c == c) = true := by
  have hc : (c.coordinates == c.coordinates) = true :=
    list_beq_self fun x hx => Double.beq_self (h x (by simpa [toDraft, Draft.numbers] using hx))
  cases c
  change (_ == _ && (_ == _ && _ == _)) = true
  simpa using hc

theorem Point.beq_self {c : Point} (h : ∀ x ∈ c.toDraft.numbers, x.isNaN = false) :
    (c == c) = true := by
  obtain ⟨base, id, srs, position⟩ := c
  have hp : (position == position) = true := by
    refine option_beq_self ?_
    rintro p rfl
    exact Position.beq_self h
  change (_ == _ && (_ == _ && (_ == _ && _ == _))) = true
  simpa using hp

theorem Polygon.beq_self {c : Polygon} (h : ∀ x ∈ c.toDraft.numbers, x.isNaN = false) :
    (c == c) = true := by
  obtain ⟨base, id, srs, positions⟩ := c
  have hp : (positions == positions) = true :=
    list_beq_self fun p hp => Position.beq_self (forall_numbers h p hp)
  change (_ == _ && (_ == _ && (_ == _ && _ == _))) = true
  simpa using hp

theorem BoundingGeometry.beq_self {c : BoundingGeometry}
    (h : ∀ x ∈ c.toDraft.numbers, x.isNaN = false) : (c == c) = true := by
  obtain ⟨base, polygons, points⟩ := c
  obtain ⟨hpolygons, hpoints⟩ := List.forall_mem_append.1 h
  have hg : (polygons == polygons) = true :=
    list_beq_self fun p hp => Polygon.beq_self (forall_numbers hpolygons p hp)
  have hp : (points == points) = true :=
    list_beq_self fun p hp => Point.beq_self (forall_numbers hpoints p hp)
  change (_ == _ && (_ == _ && _ == _)) = true
  simp [hg, hp]

theorem BoundingBox.beq_self {c : BoundingBox} (h : ∀ x ∈ c.toDraft.numbers, x.isNaN = false) :
    (c == c) = true := by
  obtain ⟨base, west, east, south, north⟩ := c
  have hb : ∀ o ∈ [west, east, south, north], (o == o) = true := fun o ho =>
    option_beq_self fun x hx => Double.beq_self (h x (List.mem_filterMap.2 ⟨o, ho, hx⟩))
  change (_ == _ && (_ == _ && (_ == _ && (_ == _ && _ == _)))) = true
  simpa using hb

theorem VerticalExtent.beq_self {c : VerticalExtent}
    (h : ∀ x ∈ c.toDraft.numbers, x.isNaN = false) : (c == c) = true := by
  obtain ⟨base, minimum, maximum, unit, datum⟩ := c
  have hb : ∀ o ∈ [minimum, maximum], (o == o) = true := fun o ho =>
    option_beq_self fun x hx => Double.beq_self (h x (List.mem_filterMap.2 ⟨o, ho, hx⟩))
  change (_ == _ && (_ == _ && (_ == _ && (_ == _ && _ == _)))) = true
  simpa using hb

theorem GeospatialCoverage.beq_self {c : GeospatialCoverage}
    (h : ∀ x ∈ c.toDraft.numbers, x.isNaN = false) : (c == c) = true := by
  obtain ⟨base, ⟨identifier, box, geometry, address, vertical⟩, precedence, order, security⟩ := c
  obtain ⟨hrest, hvertical⟩ := List.forall_mem_append.1 h
  obtain ⟨hbox, hgeometry⟩ := List.forall_mem_append.1 hrest
  have hb : (box == box) = true := by
    refine option_beq_self ?_
    rintro b rfl
    exact BoundingBox.beq_self hbox
  have hg : (geometry == geometry) = true := by
    refine option_beq_self ?_
    rintro g rfl
    exact BoundingGeometry.beq_self hgeometry
  have hv : (vertical == vertical) = true := by
    refine option_beq_self ?_
    rintro x rfl
    exact VerticalExtent.beq_self hvertical
  change (_ == _ && ((_ == _ && (_ == _ && (_ == _ && (_ == _ && _ == _)))) &&
    (_ == _ && (_ == _ && _ == _)))) = true
  simp [hb, hg, hv]

theorem TopLevel.beq_self {t : TopLevel} (h : ∀ x ∈ t.numbers, x.isNaN = false) :
    (t == t) = true := by
  cases t with
  | geospatial c => exact GeospatialCoverage.beq_self h
  | _ c => exact beq_self_eq_true c

/-- A resource in which every number is one is equal to itself. -/
theorem Resource.beq_self {r : Resource}
    (h : ∀ t ∈ r.components, ∀ x ∈ t.numbers, x.isNaN = false) : (r == r) = true := by
  obtain ⟨base, components, markings, security, notice, extensible⟩ := r
  have hc : (components == components) = true :=
    list_beq_self fun t ht => TopLevel.beq_self (h t ht)
  change (_ == _ && (_ == _ && (_ == _ && (_ == _ && (_ == _ && _ == _))))) = true
  simpa using hc

end Measured

end DiscoveryMetadata
