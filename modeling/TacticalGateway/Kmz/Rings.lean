import TacticalGateway.Kmz.Contract

/-! The rings of a polygon: the first of them is taken for the outer one, whichever boundary it has
been read from. -/
namespace TacticalGateway.Kmz
open ElementTree (Element)
open Ovl (Position lonLat ringOf)

section

variable (py : Runtime)

/-- The closed ring of a boundary that has three points at least. -/
def usableRing (boundary : Element) : Option (List Position) :=
  match positionsIn py (findNs boundary "LinearRing") with
  | .ok ps => if 3 ≤ ps.length then some (ringOf py.toRuntime ps) else none
  | .error _ => none

/-- The polygon that is drawn for a placemark. -/
inductive DrawnPolygon (placemark : Element) : Element → Prop where
  | own {polygon : Element} {g : Geometry} (child : directFindNs placemark "Polygon" = some polygon)
      (drawn : drawnGeometry py placemark = .ok (some g)) : DrawnPolygon placemark polygon
  | multi {made polygon : Element} (nothing : drawnGeometry py placemark = .ok none)
      (made_up : madeUp placemark = some made)
      (child : directFindNs made "Polygon" = some polygon) : DrawnPolygon placemark polygon

/-- The first ring is that of the outer boundary, and behind it stand those of the inner ones, as
far as they can be used. -/
def RolesKept (polygon : Element) (g : Geometry) : Prop :=
  ∃ outer, (findNs polygon "outerBoundaryIs").bind (usableRing py) = some outer ∧
    g.coordinates = (outer :: (findallNs polygon "innerBoundaryIs").filterMap (usableRing py)).map
      ringValue

end

/-- The outer boundary has a ring with three coordinate tuples. -/
def OuterWritten (polygon : Element) : Prop :=
  ∃ outer, findNs polygon "outerBoundaryIs" = some outer ∧
    ∃ text, (findNs outer "LinearRing").bind coordinatesText = some text ∧ 3 ≤ (tokens text).length

variable {py : Runtime} {placemark : Element}

theorem geometryOf_eq_ok {type : GeometryType} {items : List Json.Value} {g : Geometry}
    (built : geometryOf type (.arr items) = .ok g) : g.type = type ∧ g.coordinates = items := by
  unfold geometryOf at built
  by_cases valid : validateCoordinates type items = .ok ()
  · have made : Geometry.build type (.arr items) = some ⟨type, items, valid⟩ := dif_pos valid
    rw [made] at built
    cases built
    exact ⟨rfl, rfl⟩
  · have refused : Geometry.build type (.arr items) = none := dif_neg valid
    rw [refused] at built
    cases built

theorem usableRing_read {b : Element} {ps : List Position}
    (read : Reads py (findNs b "LinearRing") ps) :
    usableRing py b = if 3 ≤ ps.length then some (ringOf py.toRuntime ps) else none := by
  unfold usableRing
  rw [read]

theorem rings_filterMap {bs : List Element} {drawn : List (List Position)}
    (pairs : List.Forall₂ (fun b ps => Reads py (findNs b "LinearRing") ps) bs drawn) :
    (drawn.filter (fun ps => 3 ≤ ps.length)).map (ringOf py.toRuntime) =
      bs.filterMap (usableRing py) := by
  induction pairs with
  | nil => rfl
  | @cons b ps bs drawn read _ ih =>
    rw [List.filterMap_cons, usableRing_read read, List.filter_cons]
    by_cases three : 3 ≤ ps.length
    · simp only [decide_eq_true three, if_true, if_pos three, List.map_cons, ih]
    · simp only [decide_eq_false three, Bool.false_eq_true, if_false, if_neg three, ih]

theorem filterMap_boundaries (f : Element → Option (List Position)) (polygon : Element) :
    (boundaries polygon).filterMap f = ((findNs polygon "outerBoundaryIs").bind f).toList ++
      (findallNs polygon "innerBoundaryIs").filterMap f := by
  unfold boundaries
  rw [List.filterMap_append]
  congr 1
  cases findNs polygon "outerBoundaryIs" with
  | none => rfl
  | some outer =>
    rw [Option.toList_some, List.filterMap_cons, Option.bind_some]
    cases f outer <;> rfl

theorem parseCoordinates_length {text : String} {points : List Point}
    (parsed : parseCoordinates py text = .ok points) : points.length = (tokens text).length := by
  unfold parseCoordinates at parsed
  generalize tokens text = ts at parsed
  induction ts generalizing points with
  | nil =>
    cases parsed
    rfl
  | cons t ts ih =>
    rw [List.mapM_cons] at parsed
    cases first : parseTuple py t with
    | error e =>
      rw [first] at parsed
      cases parsed
    | ok point =>
      cases rest : ts.mapM (parseTuple py) with
      | error e =>
        rw [first, rest] at parsed
        cases parsed
      | ok others =>
        rw [first, rest] at parsed
        cases parsed
        rw [List.length_cons, List.length_cons, ih rest]

theorem reads_length_iff {shape : Option Element} {ps : List Position} {n : Nat}
    (read : Reads py shape ps) (positive : 0 < n) :
    n ≤ ps.length ↔ ∃ text, shape.bind coordinatesText = some text ∧ n ≤ (tokens text).length := by
  unfold Reads positionsIn at read
  cases written : shape.bind coordinatesText with
  | none =>
    rw [written] at read
    cases read
    simp
    omega
  | some text =>
    rw [written] at read
    cases parsed : parseCoordinates py text with
    | error e =>
      simp only [parsed] at read
      cases read
    | ok points =>
      simp only [parsed] at read
      cases read
      simp [parseCoordinates_length parsed]

/-- All that is said of a polygon that has been drawn: its boundaries are read, and its rings are
the usable ones of these, in one list. -/
structure PolygonRead (py : Runtime) (polygon : Element) (g : Geometry) : Prop where
  readable : ∀ b ∈ boundaries polygon, ∃ ps, Reads py (findNs b "LinearRing") ps
  coordinates : g.coordinates = ((boundaries polygon).filterMap (usableRing py)).map ringValue

/-- What has been drawn is the point, the line or the rings. -/
inductive DrawnAs (py : Runtime) (placemark : Element) (g : Geometry) : Prop where
  | point {p : Position} {ps : List Position}
      (read : Reads py (directFindNs placemark "Point") (p :: ps))
      (built : geometryOf .point (lonLat p) = .ok g)
  | line {ps : List Position} (no_point : Reads py (directFindNs placemark "Point") [])
      (read : Reads py (directFindNs placemark "LineString") ps) (two : 2 ≤ ps.length)
      (built : geometryOf .lineString (.arr (ps.map lonLat)) = .ok g)
  | rings {drawn : List (List Position)} (earlier : NoPointOrLine py placemark)
      (pairs : List.Forall₂ (fun b ps => Reads py (findNs b "LinearRing") ps)
        (boundariesOf placemark) drawn)
      (some_ring : drawn.filter (fun ps => 3 ≤ ps.length) ≠ [])
      (built : geometryOf .polygon (.arr (((drawn.filter (fun ps => 3 ≤ ps.length)).map
        (ringOf py.toRuntime)).map ringValue)) = .ok g)

theorem map_some_eq_ok {r : Except Exn Geometry} {g : Geometry}
    (built : r.map some = .ok (some g)) : r = .ok g := by
  cases r with
  | error e => cases built
  | ok g' =>
    cases built
    rfl

theorem drawnAs {g : Geometry} (drawn : drawnGeometry py placemark = .ok (some g)) :
    DrawnAs py placemark g := by
  rcases positionsIn_cases py (directFindNs placemark "Point") with ⟨point, read⟩ | bad
  · rcases positionsIn_cases py (directFindNs placemark "LineString") with ⟨line, read_line⟩ | bad
    · cases point with
      | cons p ps =>
        unfold drawnGeometry at drawn
        simp only [bind, Except.bind, show positionsIn py _ = _ from read] at drawn
        exact .point read (map_some_eq_ok drawn)
      | nil =>
        by_cases two : 2 ≤ line.length
        · unfold drawnGeometry at drawn
          simp only [bind, Except.bind, show positionsIn py _ = _ from read,
            show positionsIn py _ = _ from read_line, if_pos two] at drawn
          exact .line read read_line two (map_some_eq_ok drawn)
        · have earlier : NoPointOrLine py placemark := ⟨read, line, read_line, by omega⟩
          rcases readRings_cases py (boundariesOf placemark) with
            ⟨rings, all, pairs⟩ | ⟨_, b, among, bad⟩
          · rw [drawnGeometry_read earlier all] at drawn
            split at drawn
            · cases drawn
            · rename_i some_ring
              exact .rings earlier pairs some_ring (map_some_eq_ok drawn)
          · obtain ⟨message, raised⟩ := (Malformed.ring earlier b among bad).drawnGeometry
            rw [raised] at drawn
            cases drawn
    · cases point with
      | cons p ps =>
        unfold drawnGeometry at drawn
        simp only [bind, Except.bind, show positionsIn py _ = _ from read] at drawn
        exact .point read (map_some_eq_ok drawn)
      | nil =>
        obtain ⟨message, raised⟩ := (Malformed.line read bad).drawnGeometry
        rw [raised] at drawn
        cases drawn
  · have malformed : Malformed py placemark := .point bad
    obtain ⟨message, raised⟩ := malformed.drawnGeometry
    rw [raised] at drawn
    cases drawn

theorem drawnGeometry_polygon {g : Geometry} (drawn : drawnGeometry py placemark = .ok (some g))
    (is_polygon : g.type = .polygon) :
    ∃ polygon, directFindNs placemark "Polygon" = some polygon ∧ PolygonRead py polygon g := by
  cases drawnAs drawn with
  | point _ built => cases (geometryOf_eq_ok built).1.symm.trans is_polygon
  | line _ _ _ built => cases (geometryOf_eq_ok built).1.symm.trans is_polygon
  | rings _ pairs some_ring built =>
    unfold boundariesOf at pairs
    cases child : directFindNs placemark "Polygon" with
    | none =>
      rw [child] at pairs
      cases pairs
      exact absurd rfl some_ring
    | some polygon =>
      rw [child] at pairs
      refine ⟨polygon, rfl, ?_, ?_⟩
      · intro b among
        obtain ⟨ps, _, read⟩ := Table.forall₂_left pairs among
        exact ⟨ps, read⟩
      · rw [(geometryOf_eq_ok built).2, rings_filterMap pairs]
        rfl

theorem outer_usable_iff {polygon : Element} {g : Geometry} (read : PolygonRead py polygon g) :
    (∃ outer, (findNs polygon "outerBoundaryIs").bind (usableRing py) = some outer) ↔
      OuterWritten polygon := by
  unfold OuterWritten
  cases found : findNs polygon "outerBoundaryIs" with
  | none => simp
  | some b =>
    have among : b ∈ boundaries polygon := by
      rw [boundaries, found]
      exact List.mem_append_left _ (List.mem_singleton.mpr rfl)
    obtain ⟨ps, reads⟩ := read.readable b among
    rw [Option.bind_some, usableRing_read reads]
    simp only [Option.some.injEq, exists_eq_left', ← reads_length_iff reads (n := 3) (by omega)]
    by_cases three : 3 ≤ ps.length
    · simp [three]
    · simp [three]

theorem PolygonRead.rolesKept_iff {polygon : Element} {g : Geometry}
    (read : PolygonRead py polygon g) : RolesKept py polygon g ↔ OuterWritten polygon := by
  rw [← outer_usable_iff read]
  constructor
  · rintro ⟨outer, usable, _⟩
    exact ⟨outer, usable⟩
  · rintro ⟨outer, usable⟩
    refine ⟨outer, usable, ?_⟩
    rw [read.coordinates, filterMap_boundaries, usable]
    rfl

theorem placemarkGeometry_some {g : Geometry}
    (drawn : placemarkGeometry py placemark = .ok (some g)) :
    drawnGeometry py placemark = .ok (some g) ∨
      drawnGeometry py placemark = .ok none ∧
        ∃ made, madeUp placemark = some made ∧ drawnGeometry py made = .ok (some g) := by
  unfold placemarkGeometry at drawn
  cases own : drawnGeometry py placemark with
  | error e =>
    rw [own] at drawn
    cases drawn
  | ok g' =>
    cases g' with
    | some g' =>
      rw [own] at drawn
      cases drawn
      exact .inl rfl
    | none =>
      rw [own] at drawn
      cases made_up : madeUp placemark with
      | none =>
        rw [made_up] at drawn
        cases drawn
      | some made =>
        rw [made_up] at drawn
        exact .inr ⟨rfl, made, rfl, drawn⟩

/-- Exactly where the outer boundary has a ring of three points, it is the first ring; everywhere
else an inner one stands in its place. -/
theorem rolesKept_iff_outerWritten (py : Runtime) (placemark : Element) (g : Geometry)
    (drawn : placemarkGeometry py placemark = .ok (some g)) (is_polygon : g.type = .polygon) :
    (∃ polygon, DrawnPolygon py placemark polygon) ∧
      ∀ polygon, DrawnPolygon py placemark polygon →
        (RolesKept py polygon g ↔ OuterWritten polygon) := by
  rcases placemarkGeometry_some drawn with own | ⟨nothing, made, made_up, own⟩
  · obtain ⟨polygon, child, read⟩ := drawnGeometry_polygon own is_polygon
    refine ⟨⟨polygon, .own child own⟩, ?_⟩
    intro polygon' is_drawn
    cases is_drawn with
    | own child' _ =>
      cases child.symm.trans child'
      exact read.rolesKept_iff
    | multi nothing _ _ => cases own.symm.trans nothing
  · obtain ⟨polygon, child, read⟩ := drawnGeometry_polygon own is_polygon
    refine ⟨⟨polygon, .multi nothing made_up child⟩, ?_⟩
    intro polygon' is_drawn
    cases is_drawn with
    | own _ drawn' => cases nothing.symm.trans drawn'
    | multi _ made_up' child' =>
      cases made_up.symm.trans made_up'
      cases child.symm.trans child'
      exact read.rolesKept_iff

def boundary (tag coordinates : String) : Element :=
  .mk tag .empty none [.mk "LinearRing" .empty none
    [.mk "coordinates" .empty (some coordinates) []]]

def hole : Element := boundary "innerBoundaryIs" "1,1 2,1 2,2 1,1"

/-- A polygon whose outer boundary has two points only, and a hole. -/
def holedPolygon : Element :=
  .mk "Polygon" .empty none [boundary "outerBoundaryIs" "0,0 9,9", hole]

def holedPlacemark : Element := .mk "Placemark" .empty none [holedPolygon]

def holeRing : List Position := [⟨1, 1⟩, ⟨1, 2⟩, ⟨2, 2⟩, ⟨1, 1⟩]

def holeDrawn : Geometry := ⟨.polygon, [ringValue holeRing], rfl⟩

theorem holed_drawn : drawnGeometry plainKmz holedPlacemark = .ok (some holeDrawn) := by
  have outer : Reads plainKmz (findNs (boundary "outerBoundaryIs" "0,0 9,9") "LinearRing")
      [⟨0, 0⟩, ⟨9, 9⟩] := rfl
  have inner : Reads plainKmz (findNs hole "LinearRing") holeRing := rfl
  have earlier : NoPointOrLine plainKmz holedPlacemark := ⟨rfl, [], rfl, by decide⟩
  have read : (boundariesOf holedPlacemark).mapM
      (fun b => positionsIn plainKmz (findNs b "LinearRing")) =
        .ok [[⟨0, 0⟩, ⟨9, 9⟩], holeRing] := rfl
  have shut : ringOf plainKmz.toRuntime holeRing = holeRing := if_pos (by decide)
  rw [drawnGeometry_read earlier read]
  have kept : [[⟨0, 0⟩, ⟨9, 9⟩], holeRing].filter (fun ps => 3 ≤ ps.length) = [holeRing] := rfl
  rw [kept, if_neg (List.cons_ne_nil _ _), List.map_singleton, shut]
  rfl

theorem rolesKept_iff_outerWritten_holed :
    (∃ polygon, DrawnPolygon plainKmz holedPlacemark polygon) ∧
      ∀ polygon, DrawnPolygon plainKmz holedPlacemark polygon →
        (RolesKept plainKmz polygon holeDrawn ↔ OuterWritten polygon) :=
  rolesKept_iff_outerWritten plainKmz holedPlacemark holeDrawn
    (by unfold placemarkGeometry; rw [holed_drawn]; rfl) rfl

/-- The hole is drawn as the area. -/
theorem hole_becomes_area :
    placemarkGeometry plainKmz holedPlacemark = .ok (some holeDrawn) ∧
      DrawnPolygon plainKmz holedPlacemark holedPolygon ∧
      findallNs holedPolygon "innerBoundaryIs" = [hole] ∧
      usableRing plainKmz hole = some holeRing ∧ holeDrawn.coordinates = [ringValue holeRing] ∧
      ¬ RolesKept plainKmz holedPolygon holeDrawn := by
  have shut : ringOf plainKmz.toRuntime holeRing = holeRing := if_pos (by decide)
  have inner : Reads plainKmz (findNs hole "LinearRing") holeRing := rfl
  refine ⟨?_, .own rfl holed_drawn, rfl, ?_, rfl, ?_⟩
  · unfold placemarkGeometry
    rw [holed_drawn]
    rfl
  · rw [usableRing_read inner, if_pos (by decide), shut]
  · rintro ⟨outer, usable, _⟩
    cases usable

end TacticalGateway.Kmz
