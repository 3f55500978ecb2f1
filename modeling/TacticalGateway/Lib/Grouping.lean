import Mathlib

/-! Lists put together by a key: the elements of a key stand behind one another, in their order,
and the keys in the order in which they first appear. -/
namespace Grouping

variable {A B K : Type*} [DecidableEq K]

def grouped (key : A → K) (l : List A) : List A :=
  (l.map key).eraseDups.flatMap (fun k => l.filter (fun a => key a = k))

variable {key : A → K}

theorem grouped_cons (a : A) (l : List A) :
    grouped key (a :: l) = a :: (l.filter (fun b => key b = key a) ++
      grouped key (l.filter (fun b => key b ≠ key a))) := by
  have keys : ((a :: l).map key).eraseDups =
      key a :: ((l.filter (fun b => key b ≠ key a)).map key).eraseDups := by
    rw [List.map_cons, List.eraseDups_cons, List.filter_map]
    congr 4
    funext b
    rw [Function.comp_apply, beq_eq_decide]
    exact decide_not.symm
  rw [grouped, keys, List.flatMap_cons, List.filter_cons_of_pos (by simp), List.cons_append,
    grouped]
  congr 2
  -- of the other keys, the elements with the first key are none
  refine List.flatMap_congr fun k member => ?_
  have other : k ≠ key a := by
    obtain ⟨b, kept, rfl⟩ := List.mem_map.mp (List.mem_eraseDups.mp member)
    simpa using (List.mem_filter.mp kept).2
  rw [List.filter_cons_of_neg (by simpa using other.symm), List.filter_filter]
  refine List.filter_congr fun b _ => ?_
  by_cases own : key b = k
  · simp [own, other]
  · simp [own]

theorem grouped_nil : grouped key ([] : List A) = [] := rfl

theorem grouped_perm : ∀ l : List A, (grouped key l).Perm l
  | [] => .refl _
  | a :: l => by
    rw [grouped_cons]
    refine List.Perm.cons a ?_
    refine ((grouped_perm (l.filter (fun b => key b ≠ key a))).append_left _).trans ?_
    simpa only [ne_eq, decide_not] using List.filter_append_perm (fun b => decide (key b = key a)) l
termination_by l => l.length
decreasing_by exact Nat.lt_succ_of_le (List.length_filter_le _ l)

theorem mem_grouped {l : List A} {a : A} : a ∈ grouped key l ↔ a ∈ l := (grouped_perm l).mem_iff

theorem grouped_map {other : B → K} {f : A → B} (same : ∀ a, other (f a) = key a) (l : List A) :
    grouped other (l.map f) = (grouped key l).map f := by
  have keys : (l.map f).map other = l.map key := by
    rw [List.map_map]
    exact List.map_congr_left fun a _ => same a
  rw [grouped, grouped, keys, List.map_flatMap]
  refine List.flatMap_congr fun k _ => ?_
  rw [List.filter_map]
  congr 1
  refine List.filter_congr fun a _ => ?_
  rw [Function.comp_apply, same]

theorem grouped_filter (p : K → Bool) : ∀ l : List A,
    grouped key (l.filter (fun a => p (key a))) = (grouped key l).filter (fun a => p (key a))
  | [] => rfl
  | a :: l => by
    have rest := grouped_filter p (l.filter (fun b => key b ≠ key a))
    rw [grouped_cons, List.filter_cons, List.filter_cons]
    by_cases own : p (key a) = true
    · rw [if_pos own, if_pos own, grouped_cons, List.filter_append, ← rest,
        List.filter_comm, List.filter_comm (fun b => decide (key b ≠ key a))]
    · have others : (l.filter (fun b => decide (key b ≠ key a))).filter (fun b => p (key b)) =
          l.filter (fun b => p (key b)) := by
        rw [List.filter_filter]
        refine List.filter_congr fun b _ => ?_
        by_cases same : key b = key a
        · simp [same, own]
        · simp [same]
      have none_own : (l.filter (fun b => decide (key b = key a))).filter (fun b => p (key b)) =
          [] := by
        rw [List.filter_eq_nil_iff]
        intro b member
        have same : key b = key a := by simpa using (List.mem_filter.mp member).2
        rw [same]
        exact own
      rw [if_neg own, if_neg own, List.filter_append, none_own, List.nil_append, ← rest, others]
termination_by l => l.length
decreasing_by exact Nat.lt_succ_of_le (List.length_filter_le _ l)

theorem grouped_grouped : ∀ l : List A, grouped key (grouped key l) = grouped key l
  | [] => rfl
  | a :: l => by
    have again := grouped_grouped (l.filter (fun b => key b ≠ key a))
    have apart : ∀ b ∈ grouped key (l.filter (fun b => key b ≠ key a)), key b ≠ key a := by
      intro b member
      simpa using (List.mem_filter.mp (mem_grouped.mp member)).2
    have own : (grouped key (l.filter (fun b => key b ≠ key a))).filter
        (fun b => decide (key b = key a)) = [] := by
      rw [List.filter_eq_nil_iff]
      intro b member
      simpa using apart b member
    have rest : (grouped key (l.filter (fun b => key b ≠ key a))).filter
        (fun b => decide (key b ≠ key a)) = grouped key (l.filter (fun b => key b ≠ key a)) := by
      rw [List.filter_eq_self]
      intro b member
      simpa using apart b member
    rw [grouped_cons, grouped_cons, List.filter_append, List.filter_append, own, rest,
      List.filter_filter, List.filter_filter, List.append_nil]
    congr 2
    · simp
    · have none_own :
          l.filter (fun b => decide (key b ≠ key a) && decide (key b = key a)) = [] := by
        rw [List.filter_eq_nil_iff]
        intro b _
        simp
      rw [none_own, List.nil_append, again]
termination_by l => l.length
decreasing_by exact Nat.lt_succ_of_le (List.length_filter_le _ l)

end Grouping
