import TacticalGateway.Ovl.Lossless

/-! The geometry of an overlay object: its type by the number of positions, the class of its code
and whether the line is closed, and its coordinates. -/
namespace TacticalGateway.Ovl
open Json (Value)

/-- The vertices that coordinates of a type list. -/
inductive Lists : GeometryType → Value → List Value → Prop where
  | point (v : Value) : Lists .point v [v]
  | lineString (vs : List Value) : Lists .lineString (.arr vs) vs
  | polygon (vs : List Value) : Lists .polygon (.arr [.arr vs]) vs

section

variable (py : Runtime)

/-- The line of at least three positions is open, and its code is not that of an area. -/
structure OpenLine (obj : MilbObject) : Prop where
  several : 3 ≤ obj.positions.length
  opened : closed py obj.positions = false
  no_area : classifyGeometry obj.milId ≠ some .area

/-- The first position once more, where the type is a polygon and the line is open. -/
def closing (type : GeometryType) (positions : List Position) : List Position :=
  if type = .polygon ∧ closed py positions = false then positions.head?.toList else []

structure GeometryRule (obj : MilbObject) (d : CtoDict) : Prop where
  point : d.type = .point ↔ obj.positions.length = 1
  line : d.type = .lineString ↔ obj.positions.length = 2 ∨ OpenLine py obj
  polygon : d.type = .polygon ↔
    ¬ (obj.positions.length = 1 ∨ obj.positions.length = 2 ∨ OpenLine py obj)
  vertices : Lists d.type d.coordinates
    ((obj.positions ++ closing py d.type obj.positions).map lonLat)
  conflict : ∃ flag, d.attributes.get? "geometry_conflict" = some (.bool flag) ∧
    (flag = true ↔ ∃ known, classifyGeometry obj.milId = some known ∧ known ≠ actualClass d.type)

/-- Float equality, on two written positions. -/
def sameCoordinates : Value → Value → Bool
  | .arr [.num lon, .num lat], .arr [.num lon', .num lat'] =>
    decide (lon = lon' ∧ lat = lat') && !py.nan lon && !py.nan lat
  | _, _ => false

/-- The ring as the source closes it, after the coordinates have been swapped. -/
def closeCoordinates (ring : List Value) : List Value :=
  match ring.head?, ring.getLast? with
  | some first, some last => if sameCoordinates py first last then ring else ring ++ [first]
  | _, _ => ring

end

variable {py : Runtime}

theorem sameCoordinates_lonLat (p q : Position) :
    sameCoordinates py (lonLat p) (lonLat q) = samePoint py p q := by
  obtain ⟨lat, lon⟩ := p
  obtain ⟨lat', lon'⟩ := q
  unfold samePoint lonLat sameCoordinates
  simp only [Position.mk.injEq, and_comm (a := lon = lon')]
  cases py.nan lat <;> cases py.nan lon <;> simp

/-- The two tests whether a line is closed agree, the one on the positions and the other on the
swapped coordinates. -/
theorem closeCoordinates_lonLat (ps : List Position) :
    closeCoordinates py (ps.map lonLat) = (ringOf py ps).map lonLat := by
  unfold closeCoordinates ringOf closed
  rw [List.head?_map, List.getLast?_map]
  cases first : ps.head? with
  | none =>
    rw [List.head?_eq_none_iff] at first
    rw [first]
    rfl
  | some p =>
    cases last : ps.getLast? with
    | none =>
      rw [List.getLast?_eq_none_iff] at last
      rw [last] at first
      cases first
    | some q =>
      simp only [Option.map_some, sameCoordinates_lonLat]
      split <;> simp

theorem type_point_iff {ps : List Position} (drawn : ps ≠ []) (sidc : String) :
    inferActualGeometry py ps sidc = .point ↔ ps.length = 1 := by
  have positive := List.length_pos_iff.mpr drawn
  unfold inferActualGeometry
  split_ifs <;> simp <;> omega

theorem type_line_iff (ps : List Position) (sidc : String) :
    inferActualGeometry py ps sidc = .lineString ↔
      ps.length = 2 ∨ 3 ≤ ps.length ∧ closed py ps = false ∧ classifyGeometry sidc ≠
        some .area := by
  unfold inferActualGeometry
  split_ifs with short two shut
  · simp
    omega
  · simp [two]
  · simp only [Bool.or_eq_true, decide_eq_true_eq] at shut
    simp only [false_iff, two, false_or, not_and]
    intro _ opened area
    rcases shut with is_area | is_closed
    · exact area is_area
    · rw [opened] at is_closed
      cases is_closed
  · simp only [Bool.or_eq_true, decide_eq_true_eq, not_or, Bool.not_eq_true] at shut
    simp only [true_iff]
    exact .inr ⟨by omega, shut.2, shut.1⟩

theorem openLine_iff (obj : MilbObject) :
    OpenLine py obj ↔ 3 ≤ obj.positions.length ∧ closed py obj.positions = false ∧
      classifyGeometry obj.milId ≠ some .area :=
  ⟨fun line => ⟨line.several, line.opened, line.no_area⟩,
    fun ⟨several, opened, no_area⟩ => ⟨several, opened, no_area⟩⟩

theorem lists_coordinates {type : GeometryType} {ps : List Position} (drawn : ps ≠ [])
    (single : type = .point → ps.length = 1) :
    Lists type (coordinatesOf py type ps) ((ps ++ closing py type ps).map lonLat) := by
  cases type with
  | point =>
    obtain ⟨p, rfl⟩ := List.length_eq_one_iff.mp (single rfl)
    exact .point (lonLat p)
  | lineString =>
    have nothing : closing py .lineString ps = [] := if_neg (fun both => by cases both.1)
    rw [nothing, List.append_nil]
    exact .lineString _
  | polygon =>
    have ring : ringOf py ps = ps ++ closing py .polygon ps := by
      unfold ringOf closing
      cases closed py ps <;> simp
    rw [← ring]
    exact .polygon _

/-- Every object with a position is drawn by the rule. -/
theorem milbobject_geometryRule (py : Runtime) (obj : MilbObject) (uri : String)
    (drawn : obj.positions ≠ []) : GeometryRule py obj (milbobjectToCtoDict py obj uri) := by
  have type : (milbobjectToCtoDict py obj uri).type =
    inferActualGeometry py obj.positions obj.milId := rfl
  have point : inferActualGeometry py obj.positions obj.milId = .point ↔
    obj.positions.length = 1 := type_point_iff drawn obj.milId
  have line : inferActualGeometry py obj.positions obj.milId = .lineString ↔
      obj.positions.length = 2 ∨ OpenLine py obj := by
    rw [openLine_iff]
    exact type_line_iff obj.positions obj.milId
  constructor
  case point => exact point
  case line => exact line
  case polygon =>
    rw [← line, ← point, ← type]
    cases (milbobjectToCtoDict py obj uri).type <;> simp
  case vertices => exact lists_coordinates drawn point.mp
  case conflict =>
    refine ⟨_, rfl, ?_⟩
    rw [type]
    generalize actualClass (inferActualGeometry py obj.positions obj.milId) = drawn_class
    cases classifyGeometry obj.milId with
    | none => simp
    | some known => simp

/-- A boundary of three positions, and an assembly area. -/
theorem milbobject_geometryRule_triangles :
    GeometryRule plainRuntime (triangle "GFGPGLB--------" [])
        (milbobjectToCtoDict plainRuntime (triangle "GFGPGLB--------" []) "") ∧
      GeometryRule plainRuntime (triangle "GFGPGAA--------" [])
        (milbobjectToCtoDict plainRuntime (triangle "GFGPGAA--------" []) "") :=
  ⟨milbobject_geometryRule plainRuntime _ "" (by simp [triangle]),
    milbobject_geometryRule plainRuntime _ "" (by simp [triangle])⟩

end TacticalGateway.Ovl
