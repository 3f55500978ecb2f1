import TacticalGateway.Schema.Models

/-! What the validator of coordinates lets through: numbers for a point, lists of two at least for a
line, and lists of four at least for a polygon; what stands in these lists it does not look at. -/
namespace TacticalGateway
open Json (Value)

theorem validate_point_iff (v : List Value) :
    validateCoordinates .point v = .ok () ↔ 2 ≤ v.length ∧ (v.take 2).all isNumber = true := by
  rw [validateCoordinates]
  split <;> simp_all

theorem validate_line_iff (v : List Value) :
    validateCoordinates .lineString v = .ok () ↔
      2 ≤ v.length ∧ ∀ p ∈ v, ∃ n, listLength p = some n ∧ 2 ≤ n := by
  have pairs : v.all (fun p => (listLength p).any (2 ≤ ·)) = true ↔
      ∀ p ∈ v, ∃ n, listLength p = some n ∧ 2 ≤ n := by
    simp [Option.any_eq_true]
  rw [validateCoordinates, ← pairs]
  split <;> simp_all

theorem validate_polygon_iff (v : List Value) :
    validateCoordinates .polygon v = .ok () ↔
      1 ≤ v.length ∧ ∀ ring ∈ v, ∃ n, listLength ring = some n ∧ 4 ≤ n := by
  have long : v.all (fun ring => (listLength ring).any (4 ≤ ·)) = true ↔
      ∀ ring ∈ v, ∃ n, listLength ring = some n ∧ 4 ≤ n := by
    simp [Option.any_eq_true]
  rw [validateCoordinates]
  by_cases lists : 1 ≤ v.length ∧ v.all (fun ring => (listLength ring).isSome) = true
  · rw [if_pos lists, ← long]
    split <;> simp_all
  · rw [if_neg lists]
    simp only [reduceCtorEq, false_iff]
    rintro ⟨positive, rings⟩
    refine lists ⟨positive, List.all_eq_true.mpr ?_⟩
    intro ring member
    obtain ⟨n, length, _⟩ := rings ring member
    rw [length]
    rfl

theorem Geometry.build_isSome_iff {type : GeometryType} {items : List Value} :
    (Geometry.build type (.arr items)).isSome = true ↔ validateCoordinates type items = .ok () := by
  unfold Geometry.build
  split <;> simp_all

theorem listLength_eq_some {v : Value} {n : Nat} (list : listLength v = some n) :
    ∃ items, v = .arr items ∧ items.length = n := by
  cases v with
  | arr items => exact ⟨items, rfl, Option.some.inj list⟩
  | null => cases list
  | bool b => cases list
  | num q => cases list
  | str s => cases list
  | obj members => cases list

theorem Geometry.head_list (g : Geometry) (other : g.type ≠ .point) :
    ∃ items rest, g.coordinates = .arr items :: rest := by
  obtain ⟨type, coordinates, valid⟩ := g
  have lists : coordinates ≠ [] ∧ ∀ v ∈ coordinates, ∃ n, listLength v = some n := by
    cases type with
    | point => exact absurd rfl other
    | lineString =>
      obtain ⟨two, pairs⟩ := (validate_line_iff _).mp valid
      refine ⟨List.length_pos_iff.mp (by omega), ?_⟩
      intro v member
      obtain ⟨n, length, _⟩ := pairs v member
      exact ⟨n, length⟩
    | polygon =>
      obtain ⟨positive, rings⟩ := (validate_polygon_iff _).mp valid
      refine ⟨List.length_pos_iff.mp positive, ?_⟩
      intro v member
      obtain ⟨n, length, _⟩ := rings v member
      exact ⟨n, length⟩
  cases coordinates with
  | nil => exact absurd rfl lists.1
  | cons v rest =>
    obtain ⟨n, length⟩ := lists.2 v List.mem_cons_self
    obtain ⟨items, rfl, _⟩ := listLength_eq_some length
    exact ⟨items, rest, rfl⟩

theorem Geometry.point_numbers (g : Geometry) (point : g.type = .point) :
    ∃ x y rest, g.coordinates = x :: y :: rest ∧ isNumber x = true ∧ isNumber y = true := by
  obtain ⟨type, coordinates, valid⟩ := g
  cases point
  obtain ⟨two, numeric⟩ := (validate_point_iff _).mp valid
  match coordinates, two, numeric with
  | x :: y :: rest, _, numeric =>
    simp only [List.take_succ_cons, List.take_zero, List.all_cons, List.all_nil, Bool.and_true,
      Bool.and_eq_true] at numeric
    exact ⟨x, y, rest, rfl, numeric.1, numeric.2⟩

theorem Geometry.ring_list (g : Geometry) (polygon : g.type = .polygon) {ring : Value}
    (member : ring ∈ g.coordinates) : ∃ points, ring = .arr points ∧ 4 ≤ points.length := by
  obtain ⟨type, coordinates, valid⟩ := g
  cases polygon
  obtain ⟨-, rings⟩ := (validate_polygon_iff _).mp valid
  obtain ⟨n, length, long⟩ := rings ring member
  obtain ⟨points, rfl, rfl⟩ := listLength_eq_some length
  exact ⟨points, rfl, long⟩

end TacticalGateway
