import TacticalGateway.Kmz.Contract

/-! Which placemarks of a document are left out: those of whose shapes none can be drawn, as far as
the parser looks at them. -/
namespace TacticalGateway.Kmz
open ElementTree (Element)
open Normalizers (writeElement)

def shapeNames : List String := ["Point", "LineString", "Polygon"]

def Usable (py : Runtime) (shape : Element) : Prop :=
  (localName shape.tag = "Point" ∧ ∃ ps, Reads py (some shape) ps ∧ 1 ≤ ps.length) ∨
    (localName shape.tag = "LineString" ∧ ∃ ps, Reads py (some shape) ps ∧ 2 ≤ ps.length) ∨
      localName shape.tag = "Polygon" ∧ ∃ b ∈ boundaries shape,
        ∃ ps, Reads py (findNs b "LinearRing") ps ∧ 3 ≤ ps.length

/-- The shapes of a placemark: children, or in multi-geometries at any depth. -/
inductive ShapeOf : Element → Element → Prop where
  | own {placemark shape : Element} (child : shape ∈ placemark.children)
      (named : localName shape.tag ∈ shapeNames) : ShapeOf placemark shape
  | nested {placemark multi shape : Element} (child : multi ∈ placemark.children)
      (named : localName multi.tag = "MultiGeometry") (deeper : ShapeOf multi shape) :
      ShapeOf placemark shape

/-- The shapes that the parser looks at: the first child of each kind, and the first shape of the
first multi-geometry. -/
inductive LookedAt (placemark : Element) : Element → Prop where
  | own {shape : Element} {name : String} (kind : name ∈ shapeNames)
      (first : directFindNs placemark name = some shape) : LookedAt placemark shape
  | multi {multi shape : Element} (first : directFindNs placemark "MultiGeometry" = some multi)
      (child : multi.children.find? (fun c => localName c.tag ∈ shapeNames) = some shape) :
      LookedAt placemark shape

/-- The objects are those of the placemarks that are kept, in order of the document, and each bears
the position of its placemark among all of them. -/
structure Covers (py : Runtime) (intake : Intake) (ps kept : List (Element × Nat))
    (ctos : List CTO) : Prop where
  ordered : kept.Sublist ps
  objects : List.Forall₂ (fun i cto => placemarkToCto py intake i.2 i.1 = .ok (some cto) ∧
    cto.attributes.get? "kmz_feature_index" = some (.num i.2)) kept ctos

/-- Every placemark that is not kept is one of whose shapes, among those that count, none can be
used. -/
def OnlyUndrawable (py : Runtime) (counts : Element → Element → Prop)
    (ps kept : List (Element × Nat)) : Prop :=
  ∀ i ∈ ps, i ∉ kept → ∀ shape, counts i.1 shape → ¬ Usable py shape

/-- What is promised of a document, by the shapes that count. -/
def Covered (counts : Element → Element → Prop) (py : Runtime) (kmzBytes : List UInt8)
    (intake : Intake) (ctos : List CTO) : Prop :=
  ∃ kml root kept, readPrimaryKml py kmzBytes = .ok kml ∧ py.fromstring kml = .ok root ∧
    Covers py intake (placemarks root).zipIdx kept ctos ∧
      OnlyUndrawable py counts (placemarks root).zipIdx kept

variable {py : Runtime} {placemark : Element} {intake : Intake}

theorem undrawn_of_none (nothing : drawnGeometry py placemark = .ok none) :
    Undrawn py placemark := by
  rcases drawnGeometry_cases py placemark with malformed | short | undrawn | ⟨g, drawn⟩
  · obtain ⟨message, raised⟩ := malformed.drawnGeometry
    cases nothing.symm.trans raised
  · cases nothing.symm.trans short.drawnGeometry
  · exact undrawn
  · cases nothing.symm.trans drawn

theorem directFindNs_name {name : String} {shape : Element}
    (first : directFindNs placemark name = some shape) : localName shape.tag = name := by
  simpa using List.find?_some first

theorem Undrawn.not_usable {name : String} {shape : Element} (undrawn : Undrawn py placemark)
    (first : directFindNs placemark name = some shape) : ¬ Usable py shape := by
  have named := directFindNs_name first
  rintro (⟨is_point, ps, read, one⟩ | ⟨is_line, ps, read, two⟩ | ⟨is_polygon, b, among, ps, read,
    three⟩)
  · rw [← named, is_point] at first
    have nothing := undrawn.earlier.point
    rw [first] at nothing
    cases Except.ok.inj (read.symm.trans nothing)
    simp at one
  · rw [← named, is_line] at first
    obtain ⟨line, read', few⟩ := undrawn.earlier.line
    rw [first] at read'
    cases Except.ok.inj (read.symm.trans read')
    omega
  · rw [← named, is_polygon] at first
    have its_boundary : b ∈ boundariesOf placemark := by
      rw [boundariesOf, first]
      exact among
    obtain ⟨ring, read', few⟩ := undrawn.rings b its_boundary
    cases Except.ok.inj (read.symm.trans read')
    omega

theorem directFindNs_made (shape : Element) :
    directFindNs (.mk "Placemark" .empty none [shape]) (localName shape.tag) = some shape := by
  unfold directFindNs
  exact List.find?_cons_of_pos (by simp)

theorem not_usable_of_lookedAt {shape : Element}
    (nothing : placemarkGeometry py placemark = .ok none)
    (looked_at : LookedAt placemark shape) : ¬ Usable py shape := by
  unfold placemarkGeometry at nothing
  cases own : drawnGeometry py placemark with
  | error e =>
    rw [own] at nothing
    cases nothing
  | ok g =>
    cases g with
    | some g =>
      rw [own] at nothing
      cases nothing
    | none =>
      rw [own] at nothing
      cases looked_at with
      | own _ first => exact (undrawn_of_none own).not_usable first
      | multi first child =>
        have made_up : madeUp placemark = some (.mk "Placemark" .empty none [shape]) := by
          unfold madeUp
          rw [first, Option.bind_some]
          exact congrArg _ child
        rw [made_up] at nothing
        exact (undrawn_of_none nothing).not_usable (directFindNs_made shape)

theorem attributesOf_index (intake : Intake) (idx : Nat) (data : Dict String String)
    (kind description placemarkId : Option String) :
    (attributesOf intake idx data kind description placemarkId).get? "kmz_feature_index" =
      some (.num idx) := by
  have extended (attributes : Attributes) : (setExtended attributes data).get? "kmz_feature_index" =
      attributes.get? "kmz_feature_index" := by
    unfold setExtended
    split
    · rfl
    · exact Dict.get?_set_ne _ _ (by decide)
  unfold attributesOf
  simp only
  rw [setNonempty_get? (by decide), setNonempty_get? (by decide), setNonempty_get? (by decide),
    extended, Dict.get?_set_ne _ _ (by decide), Dict.get?_set_ne _ _ (by decide),
    Dict.get?_set_ne _ _ (by decide), Dict.get?_set_self]

theorem placemarkToCto_index {idx : Nat} {cto : CTO}
    (made : placemarkToCto py intake idx placemark = .ok (some cto)) :
    cto.attributes.get? "kmz_feature_index" = some (.num idx) := by
  obtain ⟨r, built⟩ := placemarkToCto_made made
  obtain ⟨description, id, attributes⟩ := built.attributes
  rw [attributes, attributesOf_index]

theorem placemarkToCto_none {idx : Nat}
    (left_out : placemarkToCto py intake idx placemark = .ok none) :
    placemarkGeometry py placemark = .ok none := by
  cases drawn : placemarkGeometry py placemark with
  | error e => cases left_out.symm.trans (placemarkToCto_error drawn)
  | ok g =>
    cases g with
    | none => rfl
    | some g =>
      unfold placemarkToCto at left_out
      simp only [bind, Except.bind, drawn] at left_out
      cases known : recognize py.tables py.env (textOf (directFindNs placemark "name"))
          (textOf (directFindNs placemark "description")) g.type with
      | error e =>
        rw [known] at left_out
        cases left_out
      | ok r =>
        simp only [known, Except.mapError] at left_out
        cases symbols : symbologyOf (explicitSidcOf (extendedData placemark)) r with
        | error e =>
          rw [symbols] at left_out
          cases left_out
        | ok symbology =>
          rw [symbols] at left_out
          cases left_out

/-- One object for each placemark that is kept, and no usable shape in the others. -/
theorem ctosFrom_covered {idx : Nat} {ps : List Element} {ctos : List CTO}
    (made : ctosFrom py intake idx ps = .ok ctos) :
    ∃ kept, Covers py intake (ps.zipIdx idx) kept ctos ∧
      OnlyUndrawable py LookedAt (ps.zipIdx idx) kept := by
  induction ps generalizing idx ctos with
  | nil =>
    cases made
    exact ⟨[], ⟨List.Sublist.refl _, .nil⟩, fun i among => by cases among⟩
  | cons placemark ps ih =>
    simp only [ctosFrom, bind, Except.bind] at made
    cases first : placemarkToCto py intake idx placemark with
    | error e =>
      rw [first] at made
      cases made
    | ok one =>
      cases rest : ctosFrom py intake (idx + 1) ps with
      | error e =>
        rw [first, rest] at made
        cases made
      | ok later =>
        rw [first, rest] at made
        cases made
        obtain ⟨kept, covers, undrawable⟩ := ih rest
        rw [List.zipIdx_cons]
        cases one with
        | some cto =>
          refine ⟨(placemark, idx) :: kept, ⟨covers.ordered.cons_cons _, ?_⟩, ?_⟩
          · exact .cons ⟨first, placemarkToCto_index first⟩ covers.objects
          · intro i among left_out
            rcases List.mem_cons.mp among with rfl | among
            · exact absurd List.mem_cons_self left_out
            · exact undrawable i among (fun kept => left_out (List.mem_cons_of_mem _ kept))
        | none =>
          refine ⟨kept, ⟨covers.ordered.cons _, covers.objects⟩, ?_⟩
          intro i among left_out
          rcases List.mem_cons.mp among with rfl | among
          · intro shape looked_at
            exact not_usable_of_lookedAt (placemarkToCto_none first) looked_at
          · exact undrawable i among left_out

/-- A document that is parsed without an error becomes one object for each placemark, in order and
numbered, but for those of whose shapes none that the parser looks at can be used. -/
theorem kmzToCtos_covered (py : Runtime) (kmzBytes : List UInt8) (intake : Intake)
    (ctos : List CTO) (made : kmzToCtos py kmzBytes intake = .ok ctos) :
    Covered LookedAt py kmzBytes intake ctos := by
  obtain ⟨kml, root, read, parsed, loop⟩ := kmzToCtos_ok made
  obtain ⟨kept, covers, undrawable⟩ := ctosFrom_covered loop
  exact ⟨kml, root, kept, read, parsed, covers, undrawable⟩

/-- One placemark of two is drawn, and the other left out. -/
theorem kmzToCtos_covered_area :
    ∃ cto, kmzToCtos (knows areaKmz areaKml) areaKmz inboxIntake = .ok [cto] ∧
      Covered LookedAt (knows areaKmz areaKml) areaKmz inboxIntake [cto] := by
  obtain ⟨cto, -, made⟩ := area_made
  exact ⟨cto, made, kmzToCtos_covered _ _ _ _ made⟩

def inMulti (shapes : List Element) : Element :=
  .mk "Placemark" .empty none [.mk "MultiGeometry" .empty none shapes]

def emptyPoint : Element := pointAt " "

def lineString : Element := .mk "LineString" .empty none [coordinates "0,0 1,1"]

/-- A line behind a point without coordinates, and a point in a multi-geometry in another. -/
def multiKml : Element :=
  .mk "kml" .empty none [inMulti [emptyPoint, lineString],
    inMulti [.mk "MultiGeometry" .empty none [pointAt "2,2"]]]

/-- The document, stored without compression in an archive as doc.kml. -/
def multiKmz : List UInt8 :=
  [0x50, 0x4B, 0x03, 0x04, 0x14, 0x00, 0x00, 0x00, 0x00, 0x00, 0x00, 0x00, 0x21, 0x00, 0x08, 0xC4,
    0x90, 0x41, 0x29, 0x01, 0x00, 0x00, 0x29, 0x01, 0x00, 0x00, 0x07, 0x00, 0x00, 0x00, 0x64, 0x6F,
    0x63, 0x2E, 0x6B, 0x6D, 0x6C] ++ Text.encode (writeElement multiKml) ++
  [0x50, 0x4B, 0x01, 0x02, 0x14, 0x03, 0x14, 0x00, 0x00, 0x00, 0x00, 0x00, 0x00, 0x00, 0x21, 0x00,
    0x08, 0xC4, 0x90, 0x41, 0x29, 0x01, 0x00, 0x00, 0x29, 0x01, 0x00, 0x00, 0x07, 0x00, 0x00, 0x00,
    0x00, 0x00, 0x00, 0x00, 0x00, 0x00, 0x00, 0x00, 0x80, 0x01, 0x00, 0x00, 0x00, 0x00, 0x64, 0x6F,
    0x63, 0x2E, 0x6B, 0x6D, 0x6C, 0x50, 0x4B, 0x05, 0x06, 0x00, 0x00, 0x00, 0x00, 0x01, 0x00, 0x01,
    0x00, 0x35, 0x00, 0x00, 0x00, 0x4E, 0x01, 0x00, 0x00, 0x00, 0x00]

def multiRuntime : Runtime := knows multiKmz multiKml

theorem multi_left_out : kmzToCtos multiRuntime multiKmz inboxIntake = .ok [] := by
  rw [multiRuntime, knows_kmzToCtos]
  rfl

theorem usable_line : Usable multiRuntime lineString :=
  .inr (.inl ⟨by decide, [⟨0, 0⟩, ⟨1, 1⟩], rfl, by decide⟩)

/-- Both placemarks are left out, though there is a line in the one and a point in the other. -/
theorem multi_drops_line :
    kmzToCtos multiRuntime multiKmz inboxIntake = .ok [] ∧
      ¬ Covered ShapeOf multiRuntime multiKmz inboxIntake [] := by
  refine ⟨multi_left_out, ?_⟩
  rintro ⟨kml, root, kept, read, parsed, covers, undrawable⟩
  cases (knows_read multiKmz multiKml).symm.trans read
  cases (knows_parsed multiKmz multiKml).symm.trans parsed
  have nothing : kept = [] := by
    cases covers.objects
    rfl
  have among : (inMulti [emptyPoint, lineString], 0) ∈ (placemarks multiKml).zipIdx :=
    List.mem_cons_self
  have shape : ShapeOf (inMulti [emptyPoint, lineString]) lineString :=
    .nested List.mem_cons_self (by decide)
      (.own (List.mem_cons_of_mem _ List.mem_cons_self) (by decide))
  exact undrawable _ among (by rw [nothing]; exact List.not_mem_nil) lineString shape usable_line

end TacticalGateway.Kmz
