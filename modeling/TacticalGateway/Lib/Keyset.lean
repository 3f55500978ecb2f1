import Mathlib

/-! Keyset pagination over a changing list of rows: each page goes on below the last key of the
page before. The rows of a state have distinct keys, and so has what a whole traversal returns. -/
namespace Keyset

variable {R K : Type*} [LinearOrder K]

/-- The rows below `after` that pass the filter, in descending order. -/
def select (key : R → K) (keep : R → Bool) (after : Option K) (rows : List R) : List R :=
  (rows.filter (fun r => keep r && after.all (fun k => key r < k))).insertionSort
    (fun a b => key b ≤ key a)

def Descending (key : R → K) (rows : List R) : Prop := rows.Pairwise (fun a b => key b < key a)

def Distinct (key : R → K) (rows : List R) : Prop := (rows.map key).Nodup

/-- A page of at most `limit` rows and the key to go on from, found by one row more. -/
def page (key : R → K) (keep : R → Bool) (limit : Nat) (after : Option K) (rows : List R) :
    List R × Option K :=
  let fetched := (select key keep after rows).take (limit + 1)
  let items := fetched.take limit
  (items, if limit < fetched.length then items.getLast?.map key else none)

variable {key : R → K} {keep : R → Bool} {after : Option K} {rows : List R} {limit : Nat}

theorem mem_select {r : R} : r ∈ select key keep after rows ↔
    r ∈ rows ∧ keep r = true ∧ ∀ k ∈ after, key r < k := by
  simp [select, List.mem_insertionSort, Option.all_eq_true]

theorem descending_select (keep : R → Bool) (after : Option K) (distinct : Distinct key rows) :
    Descending key (select key keep after rows) := by
  have sorted : (select key keep after rows).Pairwise (fun a b => key b ≤ key a) :=
    List.pairwise_insertionSort _ _
  have apart : (select key keep after rows).Pairwise (fun a b => key a ≠ key b) := by
    apply List.pairwise_map.mp
    apply ((List.perm_insertionSort _ _).map key).nodup_iff.mpr
    exact List.Sublist.nodup (List.filter_sublist.map key) distinct
  exact (sorted.and apart).imp (fun h => lt_of_le_of_ne h.1 h.2.symm)

/-- What a page is to its table. -/
structure Serves (key : R → K) (keep : R → Bool) (limit : Nat) (after : Option K) (rows : List R)
    (items : List R) (next : Option K) : Prop where
  sound : ∀ r ∈ items, r ∈ rows ∧ keep r = true ∧ ∀ k ∈ after, key r < k
  descending : Descending key items
  full : ∀ k ∈ next, items.length = limit
  above : ∀ k ∈ next, ∀ r ∈ items, k ≤ key r
  complete : ∀ r ∈ rows, keep r = true → (∀ k ∈ after, key r < k) → (∀ k ∈ next, k ≤ key r) →
    r ∈ items

theorem last_below {items : List R} {last : R} (descending : Descending key items)
    (found : items.getLast? = some last) : ∀ r ∈ items, key last ≤ key r := by
  obtain ⟨front, rfl⟩ := List.getLast?_eq_some_iff.mp found
  intro r member
  rcases List.mem_append.mp member with early | here
  · exact ((List.pairwise_append.mp descending).2.2 r early last (List.mem_singleton.mpr rfl)).le
  · rw [List.mem_singleton.mp here]

theorem page_serves (keep : R → Bool) (after : Option K) (positive : 1 ≤ limit)
    (distinct : Distinct key rows) :
    Serves key keep limit after rows (page key keep limit after rows).1
      (page key keep limit after rows).2 := by
  have sorted := descending_select keep after distinct
  have member (r : R) : r ∈ select key keep after rows ↔
      r ∈ rows ∧ keep r = true ∧ ∀ k ∈ after, key r < k := mem_select
  generalize found : select key keep after rows = s at sorted member
  have items : (page key keep limit after rows).1 = s.take limit := by
    simp only [page, found, List.take_take]
    rw [Nat.min_eq_left (Nat.le_succ limit)]
  have next : (page key keep limit after rows).2 =
      if limit < s.length then (s.take limit).getLast?.map key else none := by
    simp only [page, found, List.take_take, List.length_take]
    rw [Nat.min_eq_left (Nat.le_succ limit)]
    by_cases more : limit < s.length
    · rw [if_pos more, if_pos (by omega)]
    · rw [if_neg more, if_neg (by omega)]
  rw [items, next]
  have front : Descending key (s.take limit) := sorted.sublist (List.take_sublist limit s)
  refine ⟨?_, front, ?_, ?_, ?_⟩
  · exact fun r among => (member r).mp (List.mem_of_mem_take among)
  · intro k going
    split at going
    · rename_i more
      exact List.length_take_of_le more.le
    · cases going
  · intro k going
    split at going
    · obtain ⟨last, ends, rfl⟩ := Option.map_eq_some_iff.mp going
      exact last_below front ends
    · cases going
  · intro r there passes below reached
    have listed : r ∈ s := (member r).mpr ⟨there, passes, below⟩
    by_cases more : limit < s.length
    · rw [if_pos more] at reached
      rw [← List.take_append_drop limit s, List.mem_append] at listed
      rcases listed with early | late
      · exact early
      · have nonempty : s.take limit ≠ [] := by
          intro empty
          have len := congrArg List.length empty
          rw [List.length_take_of_le more.le, List.length_nil] at len
          omega
        have ends := List.getLast?_eq_some_getLast nonempty
        have bound := reached (key ((s.take limit).getLast nonempty)) (by rw [ends]; rfl)
        rw [← List.take_append_drop limit s] at sorted
        have under := (List.pairwise_append.mp sorted).2.2 _ (List.getLast_mem nonempty) r late
        exact absurd under (not_lt.mpr bound)
    · rwa [List.take_of_length_le (by omega)]

section Traversal

variable (key : R → K) (keep : R → Bool) (limits : Nat → Nat) (tables : Nat → List R)

/-- What request `i` asks for: none where the traversal has ended, some none for the first page. -/
def cursorAt : Nat → Option (Option K)
  | 0 => some none
  | i + 1 => (cursorAt i).bind (fun after => (page key keep (limits i) after (tables i)).2.map some)

def answer (i : Nat) : List R :=
  match cursorAt key keep limits tables i with
  | some after => (page key keep (limits i) after (tables i)).1
  | none => []

def returned (n : Nat) : List R := (List.range n).flatMap (answer key keep limits tables)

end Traversal

variable {limits : Nat → Nat} {tables : Nat → List R}

theorem returned_succ (n : Nat) : returned key keep limits tables (n + 1) =
    returned key keep limits tables n ++ answer key keep limits tables n := by
  simp [returned, List.range_succ]

/-- The traversal has gone past this key. -/
def Passed (cursor : Option (Option K)) (κ : K) : Prop :=
  ∀ after, cursor = some after → ∃ k ∈ after, k ≤ κ

structure Progress (key : R → K) (keep : R → Bool) (limits : Nat → Nat) (tables : Nat → List R)
    (n : Nat) : Prop where
  descending : Descending key (returned key keep limits tables n)
  fresh : cursorAt key keep limits tables n = some none → n = 0
  above : ∀ k, cursorAt key keep limits tables n = some (some k) →
    ∀ r ∈ returned key keep limits tables n, k ≤ key r
  many : (cursorAt key keep limits tables n).isSome → n ≤ (returned key keep limits tables n).length
  complete : ∀ κ, (∀ i < n, (cursorAt key keep limits tables i).isSome →
      ∃ r ∈ tables i, key r = κ ∧ keep r = true) →
    Passed (cursorAt key keep limits tables n) κ →
      ∃ r ∈ returned key keep limits tables n, key r = κ

theorem progress_zero : Progress key keep limits tables 0 where
  descending := .nil
  fresh _ := rfl
  above _ going := by cases going
  many _ := Nat.zero_le _
  complete κ _ passed := by
    obtain ⟨k, none_yet, _⟩ := passed none rfl
    cases none_yet

theorem progress_ended {n : Nat} (h : Progress key keep limits tables n)
    (ended : cursorAt key keep limits tables n = none) :
    Progress key keep limits tables (n + 1) := by
  have next : cursorAt key keep limits tables (n + 1) = none := by
    rw [cursorAt, ended]
    rfl
  have same : returned key keep limits tables (n + 1) = returned key keep limits tables n := by
    rw [returned_succ, answer, ended, List.append_nil]
  refine ⟨same ▸ h.descending, ?_, ?_, ?_, ?_⟩
  · rw [next]
    intro going
    cases going
  · rw [next]
    intro k going
    cases going
  · rw [next]
    intro going
    cases going
  · intro κ present _
    rw [same]
    apply h.complete κ (fun i early => present i (by omega))
    rw [ended]
    intro after going
    cases going

theorem progress_page {n : Nat} {after : Option K} (positive : 1 ≤ limits n)
    (distinct : Distinct key (tables n)) (h : Progress key keep limits tables n)
    (asked : cursorAt key keep limits tables n = some after) :
    Progress key keep limits tables (n + 1) := by
  have serves := page_serves keep after positive distinct
  have next : cursorAt key keep limits tables (n + 1) =
      (page key keep (limits n) after (tables n)).2.map some := by
    rw [cursorAt, asked]
    rfl
  have items : answer key keep limits tables n = (page key keep (limits n) after (tables n)).1 := by
    rw [answer, asked]
  generalize (page key keep (limits n) after (tables n)).1 = here at serves items
  generalize (page key keep (limits n) after (tables n)).2 = going at serves next
  have all : returned key keep limits tables (n + 1) =
      returned key keep limits tables n ++ here := by
    rw [returned_succ, items]
  have crossed : ∀ a ∈ returned key keep limits tables n, ∀ b ∈ here, key b < key a := by
    intro a old b new
    cases after with
    | none =>
      have start := h.fresh asked
      subst start
      cases old
    | some k => exact lt_of_lt_of_le ((serves.sound b new).2.2 k rfl) (h.above k asked a old)
  refine ⟨?_, ?_, ?_, ?_, ?_⟩
  · rw [all]
    exact List.pairwise_append.mpr ⟨h.descending, serves.descending, crossed⟩
  · rw [next]
    intro restart
    obtain ⟨_, _, wrong⟩ := Option.map_eq_some_iff.mp restart
    cases wrong
  · rw [next, all]
    intro k more r member
    obtain ⟨k', going', same⟩ := Option.map_eq_some_iff.mp more
    cases same
    rcases List.mem_append.mp member with old | new
    · -- the new page is full, so its rows lie between the cursor and the rows before it
      have filled := serves.full k going'
      obtain ⟨b, among⟩ := List.exists_mem_of_length_pos (show 0 < here.length by omega)
      exact (serves.above k going' b among).trans (crossed r old b among).le
    · exact serves.above k going' r new
  · rw [next, all, List.length_append]
    intro more
    obtain ⟨k, going'⟩ := Option.isSome_iff_exists.mp (by simpa using more)
    have filled := serves.full k going'
    have before := h.many (by rw [asked]; rfl)
    omega
  · intro κ present passed
    rw [all]
    by_cases earlier : Passed (cursorAt key keep limits tables n) κ
    · obtain ⟨r, member, same⟩ := h.complete κ (fun i early => present i (by omega)) earlier
      exact ⟨r, List.mem_append_left _ member, same⟩
    · obtain ⟨r, there, rfl, passes⟩ := present n (by omega) (by rw [asked]; rfl)
      refine ⟨r, List.mem_append_right _ ?_, rfl⟩
      apply serves.complete r there passes
      · intro k under
        by_contra not_below
        apply earlier
        rintro after' same
        cases asked.symm.trans same
        exact ⟨k, under, not_lt.mp not_below⟩
      · intro k going'
        obtain ⟨k', same, bound⟩ := passed (some k) (by rw [next, going']; rfl)
        cases same
        exact bound

theorem progress (keep : R → Bool) (positive : ∀ i, 1 ≤ limits i)
    (distinct : ∀ i, Distinct key (tables i)) (n : Nat) :
    Progress key keep limits tables n := by
  induction n with
  | zero => exact progress_zero
  | succ n ih =>
    cases asked : cursorAt key keep limits tables n with
    | none => exact progress_ended ih asked
    | some after => exact progress_page (positive n) (distinct n) ih asked

theorem answer_sound (positive : ∀ i, 1 ≤ limits i)
    (distinct : ∀ i, Distinct key (tables i)) (i : Nat) :
    ∀ r ∈ answer key keep limits tables i, r ∈ tables i ∧ keep r = true := by
  intro r member
  rw [answer] at member
  split at member
  · have served := (page_serves keep _ (positive i) (distinct i)).sound r member
    exact ⟨served.1, served.2.1⟩
  · cases member

theorem terminates {U : Type*} [DecidableEq U] (ident : R → U) (positive : ∀ i, 1 ≤ limits i)
    (distinct : ∀ i, Distinct key (tables i)) (known : Finset U)
    (finite : ∀ i, ∀ r ∈ tables i, ident r ∈ known)
    (once : ((returned key keep limits tables (known.card + 1)).map ident).Nodup) :
    cursorAt key keep limits tables (known.card + 1) = none := by
  by_contra going
  have many := (progress keep positive distinct (known.card + 1)).many
    (Option.ne_none_iff_isSome.mp going)
  have inside :
      ((returned key keep limits tables (known.card + 1)).map ident).toFinset ⊆ known := by
    intro u member
    obtain ⟨r, among, rfl⟩ := List.mem_map.mp (List.mem_toFinset.mp member)
    obtain ⟨i, _, here⟩ := List.mem_flatMap.mp among
    exact finite i r (answer_sound positive distinct i r here).1
  have few := Finset.card_le_card inside
  rw [List.toFinset_card_of_nodup once, List.length_map] at few
  omega

/-- Over a table that does not change, the pages are the filtered table in order. -/
theorem returned_constant (positive : ∀ i, 1 ≤ limits i) (distinct : Distinct key rows) {n : Nat}
    (ended : cursorAt key keep limits (fun _ => rows) n = none) :
    returned key keep limits (fun _ => rows) n = select key keep none rows := by
  have h := progress keep positive (fun _ => distinct) n
  apply List.Pairwise.eq_of_mem_iff (r := fun a b => key b < key a) h.descending
    (descending_select keep none distinct)
  intro r
  rw [mem_select]
  constructor
  · intro member
    obtain ⟨i, _, here⟩ := List.mem_flatMap.mp member
    obtain ⟨there, passes⟩ := answer_sound positive (fun _ => distinct) i r here
    exact ⟨there, passes, by simp⟩
  · rintro ⟨there, passes, _⟩
    obtain ⟨r', member, same⟩ := h.complete (key r) (fun _ _ _ => ⟨r, there, rfl, passes⟩)
      (by rw [ended]; intro after going; cases going)
    obtain ⟨i, _, here⟩ := List.mem_flatMap.mp member
    have stored := (answer_sound positive (fun _ => distinct) i r' here).1
    have equal : r' = r := List.inj_on_of_nodup_map distinct stored there same
    exact equal ▸ member

end Keyset
