import Mathlib

/-! What stands at increasing positions of a list is a part of it, in its order. -/
namespace Positions

variable {A : Type*}

theorem sublist_take {l : List A} {ps : List (Nat × A)} (n : Nat)
    (increasing : (ps.map Prod.fst).Pairwise (· < ·)) (below : ∀ p ∈ ps, p.1 < n)
    (there : ∀ p ∈ ps, l[p.1]? = some p.2) : (ps.map Prod.snd).Sublist (l.take n) := by
  induction ps using List.reverseRecOn generalizing n with
  | nil => exact List.nil_sublist _
  | append_singleton ps p ih =>
    rw [List.map_append, List.pairwise_append] at increasing
    obtain ⟨before, _, last⟩ := increasing
    have own := List.mem_append_right ps (List.mem_singleton.mpr (rfl : p = p))
    have early := ih p.1 before
      (fun q member => last q.1 (List.mem_map_of_mem member) p.1 (List.mem_singleton.mpr rfl))
      (fun q member => there q (List.mem_append_left _ member))
    have next : l.take (p.1 + 1) = l.take p.1 ++ [p.2] := by
      rw [List.take_add_one, there p own, Option.toList_some]
    rw [List.map_append]
    refine List.Sublist.trans (early.append_right [p.2]) ?_
    rw [← next]
    exact (List.take_prefix_take_left (below p own)).sublist

theorem sublist {l : List A} {ps : List (Nat × A)}
    (increasing : (ps.map Prod.fst).Pairwise (· < ·)) (there : ∀ p ∈ ps, l[p.1]? = some p.2) :
    (ps.map Prod.snd).Sublist l := by
  rw [← List.take_length (l := l)]
  exact sublist_take l.length increasing
    (fun p member => (List.getElem?_eq_some_iff.mp (there p member)).1) there

end Positions
