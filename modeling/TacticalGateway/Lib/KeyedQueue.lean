import TacticalGateway.Lib.Dict

/-! Items queued per key and taken a whole queue at a time: for each key the batches taken and the
queue that is left are, in order, what arrived. -/
namespace KeyedQueue

variable {K A : Type*} [DecidableEq K] {key : A → K}

structure InOrder (key : A → K) (arrived : List A) (taken : List (List A))
    (buffer : Dict K (List A)) : Prop where
  order : ∀ k, arrived.filter (fun a => key a = k) =
    taken.flatten.filter (fun a => key a = k) ++ buffer.queue k
  uniform : ∀ batch ∈ taken, batch ≠ [] ∧ ∃ k, ∀ a ∈ batch, key a = k
  waiting : ∀ k, ∀ a ∈ buffer.queue k, key a = k

variable {arrived : List A} {taken : List (List A)} {buffer buffer' : Dict K (List A)}

theorem inOrder_empty (key : A → K) : InOrder key [] [] .empty where
  order _ := rfl
  uniform := by simp
  waiting := by simp

theorem InOrder.congr (h : InOrder key arrived taken buffer)
    (same : ∀ k, buffer'.queue k = buffer.queue k) : InOrder key arrived taken buffer' where
  order k := by rw [same]; exact h.order k
  uniform := h.uniform
  waiting k := by rw [same]; exact h.waiting k

theorem InOrder.push (h : InOrder key arrived taken buffer) (a : A) :
    InOrder key (arrived ++ [a]) taken (buffer.push (key a) a) where
  order k := by
    rw [List.filter_append, h.order k]
    by_cases own : k = key a
    · subst own
      simp
    · rw [Dict.queue_push_ne _ _ own, List.filter_cons_of_neg (by simpa using fun e => own e.symm)]
      simp
  uniform := h.uniform
  waiting k b member := by
    by_cases own : k = key a
    · subst own
      rw [Dict.queue_push_self] at member
      rcases List.mem_append.mp member with old | new
      · exact h.waiting _ b old
      · rw [List.mem_singleton.mp new]
    · rw [Dict.queue_push_ne _ _ own] at member
      exact h.waiting k b member

theorem InOrder.take (h : InOrder key arrived taken buffer) {k : K} (full : buffer.queue k ≠ [])
    (popped : buffer'.queue k = []) (same : ∀ j, j ≠ k → buffer'.queue j = buffer.queue j) :
    InOrder key arrived (taken ++ [buffer.queue k]) buffer' where
  order j := by
    rw [h.order j, List.flatten_append, List.filter_append, List.flatten_singleton,
      List.append_assoc]
    congr 1
    by_cases own : j = k
    · subst own
      have all : (buffer.queue j).filter (fun a => key a = j) = buffer.queue j := by
        apply List.filter_eq_self.mpr
        intro a member
        simpa using h.waiting j a member
      rw [all, popped, List.append_nil]
    · have none_left : (buffer.queue k).filter (fun a => key a = j) = [] := by
        apply List.filter_eq_nil_iff.mpr
        intro a member
        have away : key a = k := h.waiting k a member
        simpa [away] using fun e => own e.symm
      rw [none_left, same j own, List.nil_append]
  uniform batch member := by
    rcases List.mem_append.mp member with old | new
    · exact h.uniform batch old
    · rw [List.mem_singleton.mp new]
      exact ⟨full, k, h.waiting k⟩
  waiting j a member := by
    by_cases own : j = k
    · rw [own, popped] at member
      cases member
    · rw [same j own] at member
      exact h.waiting j a member

theorem InOrder.perm (h : InOrder key arrived taken buffer) (empty : ∀ k, buffer.queue k = []) :
    arrived.Perm taken.flatten := by
  classical
  rw [List.perm_iff_count]
  intro a
  have order := h.order (key a)
  rw [empty, List.append_nil] at order
  calc arrived.count a
    _ = (arrived.filter (fun b => key b = key a)).count a := (List.count_filter (by simp)).symm
    _ = (taken.flatten.filter (fun b => key b = key a)).count a := by rw [order]
    _ = taken.flatten.count a := List.count_filter (by simp)

theorem InOrder.nodup (h : InOrder key arrived taken buffer) (distinct : arrived.Nodup) :
    taken.flatten.Nodup := by
  classical
  rw [List.nodup_iff_count_le_one]
  intro a
  have own : (taken.flatten.filter (fun b => key b = key a)).Sublist arrived := by
    refine List.Sublist.trans ?_ (List.filter_sublist (p := fun b => key b = key a))
    rw [h.order (key a)]
    exact List.sublist_append_left _ _
  calc taken.flatten.count a
    _ = (taken.flatten.filter (fun b => key b = key a)).count a :=
      (List.count_filter (by simp)).symm
    _ ≤ 1 := List.nodup_iff_count_le_one.mp (distinct.sublist own) a

/-- So an item tells its batch. -/
theorem InOrder.batch_eq (h : InOrder key arrived taken buffer) (distinct : arrived.Nodup)
    {b b' : List A} (member : b ∈ taken) (member' : b' ∈ taken) {a : A} (inside : a ∈ b)
    (inside' : a ∈ b') : b = b' := by
  by_contra other
  have symmetric : Std.Symm (List.Disjoint : List A → List A → Prop) := ⟨fun _ _ h => h.symm⟩
  have apart := (List.nodup_flatten.mp (h.nodup distinct)).2
  exact apart.forall member member' other inside inside'

theorem flatten_filter_head (p : A → Bool) {batches : List (List A)}
    (uniform : ∀ batch ∈ batches, batch ≠ [] ∧ ∀ a ∈ batch, ∀ b ∈ batch, p a = p b) :
    (batches.filter (fun batch => batch.head?.any p)).flatten = batches.flatten.filter p := by
  induction batches with
  | nil => rfl
  | cons batch batches ih =>
    obtain ⟨nonempty, same⟩ := uniform batch List.mem_cons_self
    have later := ih (fun b member => uniform b (List.mem_cons_of_mem _ member))
    rw [List.flatten_cons, List.filter_append, ← later]
    cases batch with
    | nil => exact absurd rfl nonempty
    | cons a rest =>
      have all (b : A) (member : b ∈ a :: rest) : p b = p a := same b member a List.mem_cons_self
      cases meets : p a with
      | true =>
        have kept : (a :: rest).filter p = a :: rest :=
          List.filter_eq_self.mpr (fun b member => (all b member).trans meets)
        rw [List.filter_cons_of_pos (by simpa using meets), List.flatten_cons, kept]
      | false =>
        have dropped : (a :: rest).filter p = [] :=
          List.filter_eq_nil_iff.mpr (fun b member => by simp [all b member, meets])
        rw [List.filter_cons_of_neg (by simp [meets]), dropped, List.nil_append]

end KeyedQueue
