import Mathlib

/-! Tables with a primary key: rows in order of insertion, inserts that do nothing on a key
conflict, and updates that leave keys alone. -/

structure Table (K R : Type*) (key : R → K) where
  rows : List R
  keyed : (rows.map key).Nodup

namespace Table

variable {K R : Type*} {key : R → K}

def empty : Table K R key := ⟨[], List.nodup_nil⟩

def keys (t : Table K R key) : List K := t.rows.map key

theorem ext_rows {t u : Table K R key} (same : t.rows = u.rows) : t = u := by
  cases t
  cases u
  cases same
  rfl

/-- `UPDATE` of columns outside the key. -/
def update (t : Table K R key) (f : R → R) (keeps : ∀ r, key (f r) = key r) : Table K R key :=
  ⟨t.rows.map f, by
    have same : (t.rows.map f).map key = t.rows.map key := by simp [keeps]
    rw [same]
    exact t.keyed⟩

theorem keys_update (t : Table K R key) (f : R → R) (keeps : ∀ r, key (f r) = key r) :
    (t.update f keeps).keys = t.keys := by
  simp [keys, update, keeps]

theorem update_eq_self {t : Table K R key} {f : R → R} {keeps : ∀ r, key (f r) = key r} :
    t.update f keeps = t ↔ ∀ r ∈ t.rows, f r = r := by
  constructor
  · intro same r member
    have rows : t.rows.map f = t.rows.map id := by
      rw [List.map_id]
      exact congrArg Table.rows same
    exact List.map_inj_left.mp rows r member
  · intro fixed
    apply ext_rows
    calc t.rows.map f = t.rows.map id := List.map_congr_left fixed
      _ = t.rows := List.map_id _

variable [DecidableEq K]

/-- `INSERT … ON CONFLICT DO NOTHING`. -/
def insertNew (t : Table K R key) (r : R) : Table K R key :=
  if new : key r ∉ t.keys then
    ⟨t.rows ++ [r], by
      rw [List.map_append, List.nodup_append]
      refine ⟨t.keyed, List.nodup_singleton _, ?_⟩
      rintro k old k' last rfl
      have same : k = key r := List.mem_singleton.mp last
      exact new (same ▸ old)⟩
  else t

def insertAll (t : Table K R key) (rs : List R) : Table K R key := rs.foldl insertNew t

/-- The rows of a batch that are inserted: the first of each key that is not there yet. -/
def newcomers (key : R → K) : List K → List R → List R
  | _, [] => []
  | known, r :: rs =>
    if key r ∈ known then newcomers key known rs else r :: newcomers key (known ++ [key r]) rs

theorem insertNew_of_mem {t : Table K R key} {r : R} (known : key r ∈ t.keys) :
    t.insertNew r = t := by
  simp [insertNew, known]

theorem rows_insertNew {t : Table K R key} {r : R} (new : key r ∉ t.keys) :
    (t.insertNew r).rows = t.rows ++ [r] := by
  rw [insertNew, dif_pos new]

theorem keys_insertNew {t : Table K R key} {r : R} (new : key r ∉ t.keys) :
    (t.insertNew r).keys = t.keys ++ [key r] := by
  simp [keys, rows_insertNew new]

theorem rows_insertAll (t : Table K R key) (rs : List R) :
    (t.insertAll rs).rows = t.rows ++ newcomers key t.keys rs := by
  induction rs generalizing t with
  | nil => simp [insertAll, newcomers]
  | cons r rs ih =>
    have next : t.insertAll (r :: rs) = (t.insertNew r).insertAll rs := rfl
    rw [next, ih, newcomers]
    split
    · rename_i known
      rw [insertNew_of_mem known]
    · rename_i new
      rw [rows_insertNew new, keys_insertNew new, List.append_assoc, List.singleton_append]

theorem newcomers_subset (known : List K) (rs : List R) : newcomers key known rs ⊆ rs := by
  induction rs generalizing known with
  | nil => exact List.Subset.refl _
  | cons r rs ih =>
    rw [newcomers]
    split
    · exact List.Subset.trans (ih known) (List.subset_cons_self r rs)
    · exact List.cons_subset_cons r (ih _)

theorem mem_keys_insertAll (t : Table K R key) (rs : List R) {r : R} (member : r ∈ rs) :
    key r ∈ (t.insertAll rs).keys := by
  have kept (u : Table K R key) (rest : List R) {k : K} (known : k ∈ u.keys) :
      k ∈ (u.insertAll rest).keys := by
    rw [keys, rows_insertAll, List.map_append]
    exact List.mem_append_left _ known
  induction rs generalizing t with
  | nil => cases member
  | cons r' rs ih =>
    change key r ∈ ((t.insertNew r').insertAll rs).keys
    rcases List.mem_cons.mp member with rfl | later
    · apply kept
      by_cases known : key r ∈ t.keys
      · rwa [insertNew_of_mem known]
      · rw [keys_insertNew known]
        exact List.mem_append_right _ (List.mem_singleton.mpr rfl)
    · exact ih _ later

theorem insertAll_of_known (t : Table K R key) (rs : List R) (known : ∀ r ∈ rs, key r ∈ t.keys) :
    t.insertAll rs = t := by
  induction rs with
  | nil => rfl
  | cons r rs ih =>
    change (t.insertNew r).insertAll rs = t
    rw [insertNew_of_mem (known r List.mem_cons_self)]
    exact ih (fun r' later => known r' (List.mem_cons_of_mem r later))

theorem newcomers_fresh {known : List K} {rs : List R} (distinct : (rs.map key).Nodup)
    (fresh : ∀ r ∈ rs, key r ∉ known) : newcomers key known rs = rs := by
  induction rs generalizing known with
  | nil => rfl
  | cons r rs ih =>
    rw [List.map_cons, List.nodup_cons] at distinct
    rw [newcomers, if_neg (fresh r List.mem_cons_self), ih distinct.2]
    intro r' later among
    rcases List.mem_append.mp among with old | own
    · exact fresh r' (List.mem_cons_of_mem r later) old
    · apply distinct.1
      rw [← List.mem_singleton.mp own]
      exact List.mem_map_of_mem later

theorem mapM_eq_some {A B : Type*} {f : A → Option B} {as : List A} {bs : List B} :
    as.mapM f = some bs ↔ List.Forall₂ (fun a b => f a = some b) as bs := by
  induction as generalizing bs with
  | nil => simp [eq_comm]
  | cons a as ih =>
    rw [List.mapM_cons]
    cases first : f a with
    | none =>
      constructor
      · intro all
        cases all
      · rintro (_ | ⟨here, _⟩)
        rw [first] at here
        cases here
    | some b =>
      cases rest : as.mapM f with
      | none =>
        constructor
        · intro all
          cases all
        · rintro (_ | ⟨_, later⟩)
          rw [ih.mpr later] at rest
          cases rest
      | some later =>
        constructor
        · intro all
          cases all
          exact .cons first (ih.mp rest)
        · rintro (_ | ⟨here, tail⟩)
          rw [first] at here
          cases here
          rw [ih.mpr tail] at rest
          cases rest
          rfl

theorem forall₂_right {A B : Type*} {P : A → B → Prop} {as : List A} {bs : List B}
    (all : List.Forall₂ P as bs) {b : B} (member : b ∈ bs) : ∃ a ∈ as, P a b := by
  induction all with
  | nil => cases member
  | cons first _ ih =>
    rcases List.mem_cons.mp member with rfl | later
    · exact ⟨_, List.mem_cons_self, first⟩
    · obtain ⟨a, among, holds⟩ := ih later
      exact ⟨a, List.mem_cons_of_mem _ among, holds⟩

theorem forall₂_left {A B : Type*} {P : A → B → Prop} {as : List A} {bs : List B}
    (all : List.Forall₂ P as bs) {a : A} (member : a ∈ as) : ∃ b ∈ bs, P a b :=
  forall₂_right all.flip member

theorem exists_forall₂_iff {A B : Type*} {P : A → B → Prop} {as : List A} :
    (∃ bs, List.Forall₂ P as bs) ↔ ∀ a ∈ as, ∃ b, P a b := by
  constructor
  · rintro ⟨bs, all⟩ a member
    obtain ⟨b, -, holds⟩ := forall₂_left all member
    exact ⟨b, holds⟩
  · intro each
    induction as with
    | nil => exact ⟨[], .nil⟩
    | cons a as ih =>
      obtain ⟨b, first⟩ := each a List.mem_cons_self
      obtain ⟨bs, rest⟩ := ih (fun a member => each a (List.mem_cons_of_mem _ member))
      exact ⟨b :: bs, .cons first rest⟩

end Table
