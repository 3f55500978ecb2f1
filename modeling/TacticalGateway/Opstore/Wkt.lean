import TacticalGateway.Lib.Decimal
import TacticalGateway.Opstore.Redelivery
import TacticalGateway.Schema.Geometry

/-! Which of the geometries that the schema accepts the writer turns into a text that the database
can read, and what becomes of a batch with another one in it. -/
namespace TacticalGateway.Opstore
open Json (Value)
open Decimal (readNumber readNumber_head)
open Text (join)

structure Vertex where
  lon : String
  lat : String
  lonNumber : (readNumber lon).isSome = true
  latNumber : (readNumber lat).isSome = true

def Vertex.text (v : Vertex) : String := v.lon ++ " " ++ v.lat

def Vertex.place (v : Vertex) : Option Rat × Option Rat := (readNumber v.lon, readNumber v.lat)

structure ClosedRing where
  vertices : List Vertex
  long : 4 ≤ vertices.length
  closed : (vertices.map Vertex.place).head? = (vertices.map Vertex.place).getLast?

def ClosedRing.text (r : ClosedRing) :
    String := "(" ++ join ", " (r.vertices.map Vertex.text) ++ ")"

/-- What PostGIS reads. -/
inductive Wkt where
  | point (v : Vertex)
  | lineString (vs : List Vertex)
  | polygon (rings : List ClosedRing)

def Wkt.text : Wkt → String
  | .point v => "SRID=4326;POINT(" ++ v.text ++ ")"
  | .lineString vs => "SRID=4326;LINESTRING(" ++ join ", " (vs.map Vertex.text) ++ ")"
  | .polygon rings => "SRID=4326;POLYGON(" ++ join ", " (rings.map ClosedRing.text) ++ ")"

/-- What `str` makes of a value that is neither a number nor a text. -/
structure Named (pyStr : Value → String) : Prop where
  null : pyStr .null = "None"
  bool : ∀ b, pyStr (.bool b) = if b then "True" else "False"
  list : ∀ items, ∃ rest, pyStr (.arr items) = "[" ++ rest
  dict : ∀ members, ∃ rest, pyStr (.obj members) = "\x7b" ++ rest

section

variable (pyStr : Value → String)

/-- The vertex is what is written of this position. -/
def Drawn (p : Value) (v : Vertex) : Prop :=
  ∃ x y, subscript p 0 = some x ∧ subscript p 1 = some y ∧ v.lon = pyStr x ∧ v.lat = pyStr y

/-- The vertices are those of the coordinates, one for each position. -/
inductive Draws (g : Geometry) : Wkt → Prop where
  | point (v : Vertex) (type : g.type = .point) (drawn : Drawn pyStr (.arr g.coordinates) v) :
      Draws g (.point v)
  | lineString (vs : List Vertex) (type : g.type = .lineString)
      (drawn : List.Forall₂ (Drawn pyStr) g.coordinates vs) : Draws g (.lineString vs)
  | polygon (rings : List ClosedRing) (type : g.type = .polygon)
      (drawn : List.Forall₂ (fun ring (r : ClosedRing) => ∃ points, ring = .arr points ∧
        List.Forall₂ (Drawn pyStr) points r.vertices) g.coordinates rings) :
      Draws g (.polygon rings)

/-- The writer returns a text in which each vertex is two numbers, and each ring is closed. -/
def WrittenAsWkt (g : Geometry) : Prop :=
  ∃ w, geometryToWkt pyStr g = some w.text ∧ Draws pyStr g w

def Coordinate : Value → Prop
  | .num q => (readNumber (pyStr (.num q))).isSome = true
  | .str s => (readNumber s).isSome = true
  | _ => False

/-- A list or a text with two coordinates in front. -/
def Located (p : Value) : Prop :=
  ∃ x y, subscript p 0 = some x ∧ subscript p 1 = some y ∧ Coordinate pyStr x ∧
    Coordinate pyStr y

def place (p : Value) : Option (Option Rat × Option Rat) :=
  match subscript p 0, subscript p 1 with
  | some x, some y => some (readNumber (pyStr x), readNumber (pyStr y))
  | _, _ => none

def Returns (points : List Value) : Prop :=
  (points.map (place pyStr)).head? = (points.map (place pyStr)).getLast?

/-- What the validator leaves out: it looks neither into the positions of a line nor into those of a
ring, nor at its ends, and takes a truth value for a number. -/
def Plotted (g : Geometry) : Prop :=
  match g.type with
  | .point => Located pyStr (.arr g.coordinates)
  | .lineString => ∀ p ∈ g.coordinates, Located pyStr p
  | .polygon => ∀ ring ∈ g.coordinates, ∀ points, ring = .arr points →
      (∀ p ∈ points, Located pyStr p) ∧ Returns pyStr points

end

variable {pyStr : Value → String}

section Text

theorem position_of_drawn {p : Value} {v : Vertex} (drawn : Drawn pyStr p v) :
    position pyStr p = some v.text := by
  obtain ⟨x, y, first, second, lon, lat⟩ := drawn
  rw [position, first, second, Vertex.text, lon, lat]

theorem positions_of_drawn {ps : List Value} {vs : List Vertex}
    (drawn : List.Forall₂ (Drawn pyStr) ps vs) :
    ps.mapM (position pyStr) = some (vs.map Vertex.text) := by
  rw [Table.mapM_eq_some, List.forall₂_map_right_iff]
  exact drawn.imp (fun _ _ one => position_of_drawn one)

theorem geometryToWkt_of_draws {g : Geometry} {w : Wkt} (draws : Draws pyStr g w) :
    geometryToWkt pyStr g = some w.text := by
  unfold geometryToWkt
  cases draws with
  | point v type drawn =>
    rw [type]
    exact congrArg (Option.map _) (position_of_drawn drawn)
  | lineString vs type drawn =>
    rw [type]
    exact congrArg (Option.map _) (positions_of_drawn drawn)
  | polygon rings type drawn =>
    have texts : g.coordinates.mapM (ringText pyStr) = some (rings.map ClosedRing.text) := by
      rw [Table.mapM_eq_some, List.forall₂_map_right_iff]
      refine drawn.imp ?_
      rintro ring r ⟨points, rfl, one⟩
      simp only [ringText, positions_of_drawn one, Option.map_some, ClosedRing.text]
    rw [type]
    exact congrArg (Option.map _) texts

theorem writtenAsWkt_iff_draws {g : Geometry} : WrittenAsWkt pyStr g ↔ ∃ w, Draws pyStr g w := by
  constructor
  · rintro ⟨w, -, draws⟩
    exact ⟨w, draws⟩
  · rintro ⟨w, draws⟩
    exact ⟨w, geometryToWkt_of_draws draws, draws⟩

end Text

section Numbers

theorem not_number {s : String} {c : Char} {rest : List Char} (chars : s.toList = c :: rest)
    (other : c.isDigit = false ∧ c ≠ '-') : ¬ (readNumber s).isSome = true := by
  intro read
  obtain ⟨q, number⟩ := Option.isSome_iff_exists.mp read
  obtain ⟨c', rest', chars', first⟩ := readNumber_head number
  obtain ⟨rfl, -⟩ := List.cons.inj (chars.symm.trans chars')
  rcases first with digit | minus
  · exact absurd digit (by simp [other.1])
  · exact other.2 minus

variable (named : Named pyStr) (spelled : ∀ s, pyStr (.str s) = s)
include named spelled

theorem number_iff_coordinate (v : Value) :
    (readNumber (pyStr v)).isSome = true ↔ Coordinate pyStr v := by
  cases v with
  | num q => exact Iff.rfl
  | str s => rw [spelled]; exact Iff.rfl
  | null =>
    rw [named.null]
    exact iff_of_false (not_number rfl (by decide)) id
  | bool b =>
    rw [named.bool]
    cases b with
    | true => exact iff_of_false (not_number rfl (by decide)) id
    | false => exact iff_of_false (not_number rfl (by decide)) id
  | arr items =>
    obtain ⟨rest, text⟩ := named.list items
    rw [text]
    exact iff_of_false (not_number (by rw [String.toList_append]; rfl) (by decide)) id
  | obj members =>
    obtain ⟨rest, text⟩ := named.dict members
    rw [text]
    exact iff_of_false (not_number (by rw [String.toList_append]; rfl) (by decide)) id

theorem exists_drawn_iff (p : Value) : (∃ v, Drawn pyStr p v) ↔ Located pyStr p := by
  constructor
  · rintro ⟨v, x, y, first, second, lon, lat⟩
    refine ⟨x, y, first, second, ?_, ?_⟩
    · rw [← number_iff_coordinate named spelled, ← lon]
      exact v.lonNumber
    · rw [← number_iff_coordinate named spelled, ← lat]
      exact v.latNumber
  · rintro ⟨x, y, first, second, lon, lat⟩
    rw [← number_iff_coordinate named spelled] at lon lat
    exact ⟨⟨pyStr x, pyStr y, lon, lat⟩, x, y, first, second, rfl, rfl⟩

theorem exists_vertices_iff (ps : List Value) :
    (∃ vs, List.Forall₂ (Drawn pyStr) ps vs) ↔ ∀ p ∈ ps, Located pyStr p := by
  rw [Table.exists_forall₂_iff]
  exact forall₂_congr (fun p _ => exists_drawn_iff named spelled p)

end Numbers

section Rings

theorem places_of_drawn {ps : List Value} {vs : List Vertex}
    (drawn : List.Forall₂ (Drawn pyStr) ps vs) :
    ps.map (place pyStr) = (vs.map Vertex.place).map some := by
  induction drawn with
  | nil => rfl
  | cons one _ ih =>
    obtain ⟨x, y, first, second, lon, lat⟩ := one
    rw [List.map_cons, List.map_cons, List.map_cons, ih, place, first, second, Vertex.place, lon,
      lat]

theorem returns_iff {ps : List Value} {vs : List Vertex}
    (drawn : List.Forall₂ (Drawn pyStr) ps vs) :
    Returns pyStr ps ↔ (vs.map Vertex.place).head? = (vs.map Vertex.place).getLast? := by
  rw [Returns, places_of_drawn drawn, List.head?_map, List.getLast?_map]
  exact (Option.map_injective (Option.some_injective _)).eq_iff

theorem exists_ring_iff (named : Named pyStr) (spelled : ∀ s, pyStr (.str s) = s)
    {points : List Value} (long : 4 ≤ points.length) :
    (∃ r : ClosedRing, ∃ points', Value.arr points = .arr points' ∧
        List.Forall₂ (Drawn pyStr) points' r.vertices) ↔
      (∀ p ∈ points, Located pyStr p) ∧ Returns pyStr points := by
  constructor
  · rintro ⟨r, points', same, drawn⟩
    cases same
    exact ⟨(exists_vertices_iff named spelled points).mp ⟨_, drawn⟩,
      (returns_iff drawn).mpr r.closed⟩
  · rintro ⟨located, returns⟩
    obtain ⟨vs, drawn⟩ := (exists_vertices_iff named spelled points).mpr located
    exact ⟨⟨vs, drawn.length_eq ▸ long, (returns_iff drawn).mp returns⟩, points, rfl, drawn⟩

end Rings

section Shapes

variable {g : Geometry}

theorem exists_draws_point (type : g.type = .point) :
    (∃ w, Draws pyStr g w) ↔ ∃ v, Drawn pyStr (.arr g.coordinates) v := by
  constructor
  · rintro ⟨w, draws⟩
    cases draws with
    | point v type' drawn => exact ⟨v, drawn⟩
    | lineString vs type' => cases type.symm.trans type'
    | polygon rings type' => cases type.symm.trans type'
  · rintro ⟨v, drawn⟩
    exact ⟨.point v, .point v type drawn⟩

theorem exists_draws_line (type : g.type = .lineString) :
    (∃ w, Draws pyStr g w) ↔ ∃ vs, List.Forall₂ (Drawn pyStr) g.coordinates vs := by
  constructor
  · rintro ⟨w, draws⟩
    cases draws with
    | point v type' => cases type.symm.trans type'
    | lineString vs type' drawn => exact ⟨vs, drawn⟩
    | polygon rings type' => cases type.symm.trans type'
  · rintro ⟨vs, drawn⟩
    exact ⟨.lineString vs, .lineString vs type drawn⟩

theorem exists_draws_rings (type : g.type = .polygon) :
    (∃ w, Draws pyStr g w) ↔ ∀ ring ∈ g.coordinates, ∃ r : ClosedRing, ∃ points,
      ring = .arr points ∧ List.Forall₂ (Drawn pyStr) points r.vertices := by
  rw [← Table.exists_forall₂_iff]
  constructor
  · rintro ⟨w, draws⟩
    cases draws with
    | point v type' => cases type.symm.trans type'
    | lineString vs type' => cases type.symm.trans type'
    | polygon rings type' drawn => exact ⟨rings, drawn⟩
  · rintro ⟨rings, drawn⟩
    exact ⟨.polygon rings, .polygon rings type drawn⟩

end Shapes

/-- An accepted geometry is written as the database reads it exactly where all that the validator
leaves out is in order. -/
theorem writtenAsWkt_iff_plotted (pg : Postgres) (named : Named pg.pyStr) (g : Geometry) :
    WrittenAsWkt pg.pyStr g ↔ Plotted pg.pyStr g := by
  have spelled := pg.pyStr_str
  rw [writtenAsWkt_iff_draws]
  cases type : g.type with
  | point =>
    simp only [Plotted, type]
    rw [exists_draws_point type, exists_drawn_iff named spelled]
  | lineString =>
    simp only [Plotted, type]
    rw [exists_draws_line type, exists_vertices_iff named spelled]
  | polygon =>
    simp only [Plotted, type]
    rw [exists_draws_rings type]
    refine forall₂_congr ?_
    intro ring member
    obtain ⟨points, rfl, long⟩ := g.ring_list type member
    rw [exists_ring_iff named spelled long]
    constructor
    · rintro one points' same
      cases same
      exact one
    · intro all
      exact all points rfl

section Batch

variable {pg : Postgres}

theorem row_none {cto : CTO} (raises : geometryToWkt pg.pyStr cto.geometry = none) :
    pg.row cto = none := by
  unfold Postgres.row
  rw [raises]

theorem insertCtos_none {cto : CTO} {ctos : List CTO} (member : cto ∈ ctos)
    (raises : pg.row cto = none) (t : CtoTable) (inserted : Nat) :
    insertCtos pg t inserted ctos = none := by
  induction ctos generalizing t inserted with
  | nil => cases member
  | cons first rest ih =>
    rw [insertCtos]
    cases row : pg.row first with
    | none => rfl
    | some row' =>
      rcases List.mem_cons.mp member with rfl | later
      · cases raises.symm.trans row
      · exact ih later _ _

theorem batch_lost {cto : CTO} {ctos : List CTO} (member : cto ∈ ctos)
    (raises : geometryToWkt pg.pyStr cto.geometry = none) (db : Database) :
    writeCtosWithSupersession pg db ctos = none := by
  cases ctos with
  | nil => cases member
  | cons sample rest =>
    rw [writeCtosWithSupersession]
    cases supersedeFor db sample with
    | none => rfl
    | some done => simp only [insertCtos_none member (row_none raises)]

end Batch

/-- `str` of texts, constants and whole numbers. -/
def pythonStr : Value → String
  | .null => "None"
  | .bool b => if b then "True" else "False"
  | .num q => (if q < 0 then "-" else "") ++ Text.decimal q.num.natAbs
  | .str s => s
  | .arr _ => "[" ++ "]"
  | .obj _ => "\x7b" ++ "\x7d"

def pythonPostgres : Postgres :=
  { plainPostgres with
    pyStr := pythonStr
    pyStr_str := fun _ => rfl }

theorem pythonStr_named : Named pythonStr :=
  ⟨rfl, fun _ => rfl, fun _ => ⟨"]", rfl⟩, fun _ => ⟨"\x7d", rfl⟩⟩

def lonLat (lon lat : Rat) : Value := .arr [.num lon, .num lat]

def closedTriangle : Geometry :=
  ⟨.polygon, [.arr [lonLat 0 0, lonLat 1 0, lonLat 1 1, lonLat 0 0]], rfl⟩

theorem writtenAsWkt_iff_plotted_triangle :
    WrittenAsWkt pythonPostgres.pyStr closedTriangle ↔
      Plotted pythonPostgres.pyStr closedTriangle :=
  writtenAsWkt_iff_plotted pythonPostgres pythonStr_named closedTriangle

def hollow : Geometry := ⟨.polygon, [.arr [.null, .null, .null, .null]], rfl⟩

/-- The ring is accepted and cannot be written; of the placemark before it in the batch, which can
be written alone, nothing is left either. -/
theorem hollow_ring_accepted :
    Geometry.build .polygon (.arr [.arr [.null, .null, .null, .null]]) = some hollow ∧
      ¬ WrittenAsWkt pythonPostgres.pyStr hollow ∧
      (writeCtosWithSupersession pythonPostgres ⟨.empty, []⟩ [placemark 1 newYear]).isSome =
        true ∧
      writeCtosWithSupersession pythonPostgres ⟨.empty, []⟩
        [placemark 1 newYear, { placemark 2 newYear with geometry := hollow }] = none := by
  have raises : geometryToWkt pythonPostgres.pyStr hollow = none := rfl
  refine ⟨rfl, ?_, rfl, ?_⟩
  · rintro ⟨w, text, -⟩
    cases raises.symm.trans text
  · exact batch_lost (List.mem_cons_of_mem _ List.mem_cons_self) raises ⟨.empty, []⟩

end TacticalGateway.Opstore
