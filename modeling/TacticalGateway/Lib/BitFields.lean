import Mathlib

/-! Words put together from bit fields, the highest first, each shifted to its place and or-ed to
the others. -/
namespace BitFields

structure Field where
  width : Nat
  value : Nat
  fits : value < 2 ^ width

def size : List Field → Nat
  | [] => 0
  | f :: fs => f.width + size fs

def word : List Field → Nat
  | [] => 0
  | f :: fs => f.value <<< size fs ||| word fs

theorem word_lt (fs : List Field) : word fs < 2 ^ size fs := by
  induction fs with
  | nil => decide
  | cons f fs ih =>
    refine Nat.or_lt_two_pow ?_ ?_
    · rw [Nat.shiftLeft_eq, size, Nat.pow_add]
      exact Nat.mul_lt_mul_of_pos_right f.fits (Nat.two_pow_pos _)
    · exact Nat.lt_of_lt_of_le ih (Nat.pow_le_pow_right (by decide) (Nat.le_add_left _ _))

theorem word_cons (f : Field) (fs : List Field) :
    word (f :: fs) = f.value * 2 ^ size fs + word fs := by
  rw [word, ← Nat.shiftLeft_add_eq_or_of_lt (word_lt fs), Nat.shiftLeft_eq]

theorem size_append (high low : List Field) : size (high ++ low) = size high + size low := by
  induction high with
  | nil => exact (Nat.zero_add _).symm
  | cons f high ih => rw [List.cons_append, size, size, ih, Nat.add_assoc]

theorem word_append (high low : List Field) :
    word (high ++ low) = word high * 2 ^ size low + word low := by
  induction high with
  | nil => simp [word]
  | cons f high ih =>
    rw [List.cons_append, word_cons, word_cons, ih, size_append, Nat.pow_add, Nat.add_mul,
      Nat.mul_assoc, Nat.add_assoc]

theorem word_shiftRight (high low : List Field) :
    word (high ++ low) >>> size low = word high := by
  rw [Nat.shiftRight_eq_div_pow, word_append, Nat.mul_comm,
    Nat.mul_add_div (Nat.two_pow_pos _), Nat.div_eq_of_lt (word_lt low), Nat.add_zero]

theorem word_field (high : List Field) (f : Field) (low : List Field) :
    word (high ++ f :: low) >>> size low % 2 ^ f.width = f.value := by
  have split : high ++ f :: low = (high ++ [f]) ++ low := by simp
  rw [split, word_shiftRight, word_append, word_cons]
  simp only [size, word, Nat.add_zero, Nat.pow_zero, Nat.mul_one]
  rw [Nat.mul_comm, Nat.mul_add_mod, Nat.mod_eq_of_lt f.fits]

/-- The highest field decides the order, whatever stands below it. -/
theorem word_lt_word {f g : Field} {fs gs : List Field} (same : size fs = size gs)
    (less : f.value < g.value) : word (f :: fs) < word (g :: gs) := by
  have low := word_lt fs
  rw [word_cons, word_cons, ← same]
  calc f.value * 2 ^ size fs + word fs < f.value * 2 ^ size fs + 2 ^ size fs :=
        Nat.add_lt_add_left low _
    _ = (f.value + 1) * 2 ^ size fs := (Nat.succ_mul _ _).symm
    _ ≤ g.value * 2 ^ size fs := Nat.mul_le_mul_right _ less
    _ ≤ g.value * 2 ^ size fs + word gs := Nat.le_add_right _ _

end BitFields
