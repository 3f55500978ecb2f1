import Mathlib

/-! A channel that delivers in order and at most once: what is sent waits in flight, where each
message is lost or arrives behind those ahead of it. -/

structure Channel (M : Type*) where
  sent : List M
  flight : List M
  arrived : List M
  lost : List M
  inOrder : (arrived ++ flight).Sublist sent
  accounted : (arrived ++ flight ++ lost).Perm sent

namespace Channel

variable {M : Type*}

def empty : Channel M := ⟨[], [], [], [], List.Sublist.refl _, List.Perm.refl _⟩

def send (c : Channel M) (m : M) : Channel M where
  sent := c.sent ++ [m]
  flight := c.flight ++ [m]
  arrived := c.arrived
  lost := c.lost
  inOrder := by
    rw [← List.append_assoc]
    exact c.inOrder.append_right [m]
  accounted := by
    have last : (c.arrived ++ (c.flight ++ [m]) ++ c.lost).Perm
        (c.arrived ++ c.flight ++ c.lost ++ [m]) := by
      simp only [List.append_assoc]
      exact (List.perm_append_comm.append_left _).append_left _
    exact last.trans (c.accounted.append_right [m])

/-- The message at the head of the flight arrives. -/
def deliver (c : Channel M) : Option (M × Channel M) :=
  match waiting : c.flight with
  | [] => none
  | m :: rest => some (m,
    { c with
      flight := rest
      arrived := c.arrived ++ [m]
      inOrder := by simpa [waiting] using c.inOrder
      accounted := by simpa [waiting] using c.accounted })

/-- The message at a place of the flight is lost. -/
def lose (c : Channel M) (i : Nat) : Option (Channel M) :=
  if present : i < c.flight.length then
    some
      { c with
        flight := c.flight.eraseIdx i
        lost := c.flight[i] :: c.lost
        inOrder := ((List.eraseIdx_sublist c.flight i).append_left c.arrived).trans c.inOrder
        accounted := by
          have out : (c.flight.eraseIdx i ++ c.flight[i] :: c.lost).Perm (c.flight ++ c.lost) :=
            List.perm_middle.trans ((List.getElem_cons_eraseIdx_perm present).append_right c.lost)
          rw [List.append_assoc]
          refine (out.append_left c.arrived).trans ?_
          rw [← List.append_assoc]
          exact c.accounted }
  else none

theorem deliver_spec {c d : Channel M} {m : M} (h : c.deliver = some (m, d)) :
    c.flight = m :: d.flight ∧ d.arrived = c.arrived ++ [m] ∧ d.sent = c.sent ∧
      d.lost = c.lost := by
  unfold deliver at h
  split at h
  · cases h
  · rename_i waiting
    cases h
    exact ⟨waiting, rfl, rfl, rfl⟩

theorem lose_spec {c d : Channel M} {i : Nat} (h : c.lose i = some d) :
    d.sent = c.sent ∧ d.arrived = c.arrived ∧ d.flight.Sublist c.flight ∧
      c.lost ⊆ d.lost := by
  unfold lose at h
  split at h
  · cases h
    exact ⟨rfl, rfl, List.eraseIdx_sublist _ _, List.subset_cons_self _ _⟩
  · cases h

theorem arrived_sublist (c : Channel M) : c.arrived.Sublist c.sent :=
  (List.sublist_append_left _ _).trans c.inOrder

theorem mem_sent_iff (c : Channel M) (m : M) :
    m ∈ c.sent ↔ m ∈ c.arrived ∨ m ∈ c.flight ∨ m ∈ c.lost := by
  rw [← c.accounted.mem_iff, List.mem_append, List.mem_append, or_assoc]

end Channel
