import TacticalGateway.Lib.Dict
import TacticalGateway.Lib.Json

/-! Python's equality of nested dictionaries and lists: the order of a dictionary does not count. -/
namespace Json

def lookup (key : String) (members : List (String × Value)) : Option Value :=
  (members.find? (fun m => m.1 = key)).map Prod.snd

mutual

def Same : Value → Value → Prop
  | .obj xs, .obj ys => SameMembers xs ys ∧ ∀ m ∈ ys, m.1 ∈ xs.map Prod.fst
  | .arr xs, .arr ys => SameItems xs ys
  | .null, .null => True
  | .bool a, .bool b => a = b
  | .num a, .num b => a = b
  | .str a, .str b => a = b
  | _, _ => False

def SameItems : List Value → List Value → Prop
  | [], [] => True
  | x :: xs, y :: ys => Same x y ∧ SameItems xs ys
  | _, _ => False

def SameMembers : List (String × Value) → List (String × Value) → Prop
  | [], _ => True
  | (key, x) :: xs, ys => (∃ y, lookup key ys = some y ∧ Same x y) ∧ SameMembers xs ys

end

theorem lookup_items (d : Dict String Value) (key : String) : lookup key d.items = d.get? key := rfl

theorem lookup_eq_none_iff {members : List (String × Value)} {key : String} :
    lookup key members = none ↔ key ∉ members.map Prod.fst := by
  simp only [lookup, Option.map_eq_none_iff, List.find?_eq_none, decide_eq_true_eq, List.mem_map,
    not_exists, not_and]

theorem mem_of_lookup {members : List (String × Value)} {key : String} {v : Value}
    (found : lookup key members = some v) : (key, v) ∈ members := by
  obtain ⟨m, here, rfl⟩ := Option.map_eq_some_iff.mp found
  have same : m.1 = key := by simpa using List.find?_some here
  exact same ▸ List.mem_of_find?_eq_some here

theorem lookup_of_mem {members : List (String × Value)} (distinct : (members.map Prod.fst).Nodup)
    {key : String} {v : Value} (member : (key, v) ∈ members) : lookup key members = some v := by
  cases found : lookup key members with
  | none => exact absurd (List.mem_map_of_mem member) (lookup_eq_none_iff.mp found)
  | some w =>
    have one := List.inj_on_of_nodup_map distinct member (mem_of_lookup found) rfl
    cases one
    rfl

theorem sameMembers_iff {xs ys : List (String × Value)} :
    SameMembers xs ys ↔ ∀ m ∈ xs, ∃ y, lookup m.1 ys = some y ∧ Same m.2 y := by
  induction xs with
  | nil => simp [SameMembers]
  | cons m xs ih =>
    obtain ⟨key, x⟩ := m
    rw [SameMembers, ih, List.forall_mem_cons]

theorem sameItems_iff {xs ys : List Value} : SameItems xs ys ↔ List.Forall₂ Same xs ys := by
  induction xs generalizing ys with
  | nil => cases ys <;> simp [SameItems]
  | cons x xs ih => cases ys <;> simp [SameItems, ih]

theorem same_obj_iff {xs ys : List (String × Value)} (distinct : (xs.map Prod.fst).Nodup) :
    Same (.obj xs) (.obj ys) ↔ ∀ key, Option.Rel Same (lookup key xs) (lookup key ys) := by
  rw [Same, sameMembers_iff]
  constructor
  · rintro ⟨forward, backward⟩ key
    cases found : lookup key xs with
    | none =>
      have absent : lookup key ys = none := by
        rw [lookup_eq_none_iff]
        intro there
        obtain ⟨m, member, rfl⟩ := List.mem_map.mp there
        exact lookup_eq_none_iff.mp found (backward m member)
      rw [absent]
      exact .none
    | some x =>
      obtain ⟨y, there, same⟩ := forward (key, x) (mem_of_lookup found)
      rw [there]
      exact .some same
  · intro answers
    constructor
    · rintro ⟨key, x⟩ member
      have answer := answers key
      rw [lookup_of_mem distinct member] at answer
      cases there : lookup key ys with
      | none =>
        rw [there] at answer
        cases answer
      | some y =>
        rw [there] at answer
        cases answer with
        | some same => exact ⟨y, rfl, same⟩
    · intro m member
      by_contra absent
      have answer := answers m.1
      rw [lookup_eq_none_iff.mpr absent] at answer
      cases there : lookup m.1 ys with
      | none => exact lookup_eq_none_iff.mp there (List.mem_map_of_mem member)
      | some y =>
        rw [there] at answer
        cases answer

theorem lookup_cons (key name : String) (v : Value) (members : List (String × Value)) :
    lookup key ((name, v) :: members) = if name = key then some v else lookup key members := by
  unfold lookup
  rw [List.find?_cons]
  by_cases here : name = key
  · simp [here]
  · simp [here]

theorem lookup_map {A : Type*} (f : A → Value) (d : Dict String A) (key : String) :
    lookup key (d.items.map (fun i => (i.1, f i.2))) = (d.get? key).map f := by
  simp only [lookup, Dict.get?, List.find?_map, Option.map_map]
  rfl

theorem rel_map_iff {A : Type*} {f : A → Value} (separates : ∀ a b, Same (f a) (f b) ↔ a = b)
    (a b : Option A) : Option.Rel Same (a.map f) (b.map f) ↔ a = b := by
  cases a <;> cases b <;> simp [separates]

theorem sameItems_map_iff {A : Type*} {f : A → Value}
    (separates : ∀ a b, Same (f a) (f b) ↔ a = b) (as bs : List A) :
    SameItems (as.map f) (bs.map f) ↔ as = bs := by
  rw [sameItems_iff, List.forall₂_map_left_iff, List.forall₂_map_right_iff]
  simp only [separates, List.forall₂_eq_eq_eq]

theorem same_map_iff {A : Type*} {f : A → Value} (separates : ∀ a b, Same (f a) (f b) ↔ a = b)
    (d d' : Dict String A) :
    Same (.obj (d.items.map (fun i => (i.1, f i.2))))
      (.obj (d'.items.map (fun i => (i.1, f i.2)))) ↔
      ∀ key, d.get? key = d'.get? key := by
  have distinct : ((d.items.map (fun i => (i.1, f i.2))).map Prod.fst).Nodup := by
    rw [List.map_map]
    exact d.distinct
  rw [same_obj_iff distinct]
  simp only [lookup_map, rel_map_iff separates]

theorem same_obj_of_forall₂ {xs ys : List (String × Value)} (distinct : (xs.map Prod.fst).Nodup)
    (all : List.Forall₂ (fun x y => x.1 = y.1 ∧ Same x.2 y.2) xs ys) :
    Same (.obj xs) (.obj ys) := by
  rw [same_obj_iff distinct]
  intro key
  clear distinct
  induction all with
  | nil => exact .none
  | @cons x y xs ys first _ ih =>
    obtain ⟨name, v⟩ := x
    obtain ⟨name', w⟩ := y
    obtain ⟨rfl, same⟩ := first
    rw [lookup_cons, lookup_cons]
    split
    · exact .some same
    · exact ih

end Json
