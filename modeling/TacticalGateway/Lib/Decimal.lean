import TacticalGateway.Lib.Text

/-! Rationals printed with a fixed number of decimals, ties to even, and read back. -/
namespace Decimal
open Text

/-- The nearest natural number of a nonnegative rational, the even one at a tie. -/
def nearest (q : Rat) : Nat :=
  let low := q.floor.toNat
  if q - low < 1 / 2 then low
  else if 1 / 2 < q - low then low + 1
  else if low % 2 = 0 then low
  else low + 1

def scaled (digits : Nat) (q : Rat) : Nat := nearest (|q| * 10 ^ digits)

def rounded (digits : Nat) (q : Rat) : Rat :=
  if q < 0 then -(scaled digits q / 10 ^ digits) else scaled digits q / 10 ^ digits

/-- `f"{q:.2f}"` and its like. -/
def fixed (digits : Nat) (q : Rat) : String :=
  (if q < 0 then "-" else "") ++ decimal (scaled digits q / 10 ^ digits) ++ "." ++
    zeroPad digits (scaled digits q % 10 ^ digits)

theorem nearest_natCast (n : Nat) : nearest n = n := by
  have low : (n : Rat).floor.toNat = n := by
    have exact_value := Rat.floor_intCast (n : Int)
    rw [Rat.intCast_natCast] at exact_value
    rw [exact_value]
    rfl
  simp only [nearest, low, sub_self]
  norm_num

theorem scaled_of_natCast (digits m : Nat) {q : Rat} (size : |q| * 10 ^ digits = m) :
    scaled digits q = m := by
  rw [scaled, size, nearest_natCast]

theorem abs_rounded (digits : Nat) (q : Rat) :
    |rounded digits q| * 10 ^ digits = scaled digits q := by
  have unit : (0 : Rat) < 10 ^ digits := by positivity
  have size : |rounded digits q| = scaled digits q / 10 ^ digits := by
    unfold rounded
    split
    · rw [abs_neg, abs_of_nonneg (by positivity)]
    · rw [abs_of_nonneg (by positivity)]
  rw [size, div_mul_cancel₀ _ unit.ne']

theorem rounded_rounded (digits : Nat) (q : Rat) :
    rounded digits (rounded digits q) = rounded digits q := by
  have same : scaled digits (rounded digits q) = scaled digits q :=
    scaled_of_natCast digits _ (abs_rounded digits q)
  have unit : (0 : Rat) < 10 ^ digits := by positivity
  by_cases negative : q < 0
  · by_cases zero : scaled digits q = 0
    · have vanished : rounded digits q = 0 := by simp [rounded, zero]
      rw [vanished] at same ⊢
      simp [rounded, same, zero]
    · have below : rounded digits q < 0 := by
        have positive : (0 : Rat) < scaled digits q := by exact_mod_cast Nat.pos_of_ne_zero zero
        rw [rounded, if_pos negative]
        exact neg_neg_of_pos (div_pos positive unit)
      conv_lhs => rw [rounded, if_pos below, same]
      rw [rounded, if_pos negative]
  · have above : ¬ rounded digits q < 0 := by
      rw [rounded, if_neg negative]
      exact not_lt.mpr (by positivity)
    conv_lhs => rw [rounded, if_neg above, same]
    rw [rounded, if_neg negative]

def readSign : List Char → Bool × List Char
  | '-' :: cs => (true, cs)
  | cs => (false, cs)

def readUnsigned (cs : List Char) : Option Rat :=
  let whole := cs.takeWhile Char.isDigit
  match cs.dropWhile Char.isDigit with
  | [] => if whole = [] then none else some (Nat.ofDigitChars 10 whole 0)
  | '.' :: fraction =>
    if whole ≠ [] ∧ fraction ≠ [] ∧ fraction.all Char.isDigit then
      some (Nat.ofDigitChars 10 whole 0 + Nat.ofDigitChars 10 fraction 0 / 10 ^ fraction.length)
    else none
  | _ => none

/-- A reader of plain decimals. -/
def readDecimal (s : String) : Option Rat :=
  (readUnsigned (readSign s.toList).2).map (fun q => if (readSign s.toList).1 then -q else q)

theorem readSign_digit {c : Char} (cs : List Char) (digit : c.isDigit = true) :
    readSign (c :: cs) = (false, c :: cs) := by
  unfold readSign
  split
  · rename_i same
    rw [(List.cons.inj same).1] at digit
    exact absurd digit (by decide)
  · rfl

theorem readUnsigned_fixed {digits : Nat} (m : Nat) (positive : 0 < digits) :
    readUnsigned ((decimal (m / 10 ^ digits)).toList ++ '.' ::
      (zeroPad digits (m % 10 ^ digits)).toList) =
      some ((m : Rat) / 10 ^ digits) := by
  have whole : ∀ c ∈ (decimal (m / 10 ^ digits)).toList, c.isDigit = true :=
    fun c member => decimal_isDigit member
  have fraction : (zeroPad digits (m % 10 ^ digits)).toList.all Char.isDigit = true :=
    List.all_eq_true.mpr (fun c member => zeroPad_isDigit member)
  have len := zeroPad_length positive (Nat.mod_lt m (show 0 < 10 ^ digits by positivity))
  have some_whole : (decimal (m / 10 ^ digits)).toList ≠ [] := by
    rw [decimal, String.toList_ofList]
    exact Nat.toDigits_ne_nil
  have some_fraction : (zeroPad digits (m % 10 ^ digits)).toList ≠ [] := by
    intro empty
    rw [empty] at len
    exact absurd len.symm positive.ne'
  rw [readUnsigned, List.takeWhile_append_of_pos whole, List.dropWhile_append_of_pos whole,
    List.takeWhile_cons_of_neg (by decide), List.dropWhile_cons_of_neg (by decide), List.append_nil]
  simp only [if_pos (And.intro some_whole (And.intro some_fraction fraction)), decimal_value,
    zeroPad_value, len, Option.some.injEq]
  have unit : (10 ^ digits : Rat) ≠ 0 := by positivity
  have parts : (m : Rat) = 10 ^ digits * (m / 10 ^ digits : Nat) + (m % 10 ^ digits : Nat) := by
    exact_mod_cast (Nat.div_add_mod m (10 ^ digits)).symm
  rw [parts]
  field_simp

theorem readDecimal_fixed {digits : Nat} (positive : 0 < digits) (q : Rat) :
    readDecimal (fixed digits q) = some (rounded digits q) := by
  have text : (fixed digits q).toList = (if q < 0 then ['-'] else []) ++
      ((decimal (scaled digits q / 10 ^ digits)).toList ++
        '.' :: (zeroPad digits (scaled digits q % 10 ^ digits)).toList) := by
    unfold fixed
    split <;> simp [String.toList_append]
  have size := readUnsigned_fixed (scaled digits q) positive
  by_cases negative : q < 0
  · rw [if_pos negative] at text
    simp only [readDecimal, text, List.singleton_append, readSign, size, Option.map_some, if_true,
      rounded, if_pos negative]
  · rw [if_neg negative, List.nil_append] at text
    cases first : (decimal (scaled digits q / 10 ^ digits)).toList with
    | nil =>
      rw [decimal, String.toList_ofList] at first
      exact absurd first Nat.toDigits_ne_nil
    | cons c cs =>
      have digit : c.isDigit = true := decimal_isDigit (first ▸ List.mem_cons_self)
      have sign :=
        readSign_digit (cs ++ '.' :: (zeroPad digits (scaled digits q % 10 ^ digits)).toList) digit
      rw [first] at size text
      rw [List.cons_append] at size text
      simp only [readDecimal, text, sign, size, Option.map_some, Bool.false_eq_true, if_false,
        rounded, if_neg negative]

def readDigits (cs : List Char) : Option Int :=
  if cs ≠ [] ∧ cs.all Char.isDigit then some (Nat.ofDigitChars 10 cs 0) else none

def readExponent : List Char → Option Int
  | '+' :: digits => readDigits digits
  | '-' :: digits => (readDigits digits).map (- ·)
  | digits => readDigits digits

/-- A decimal, with a power of ten behind an `e` if there is one. -/
def readNumber (s : String) : Option Rat :=
  match s.toList.dropWhile (· ≠ 'e') with
  | [] => readDecimal s
  | _ :: exponent => do
    let q ← readDecimal (String.ofList (s.toList.takeWhile (· ≠ 'e')))
    let k ← readExponent exponent
    return q * 10 ^ k

theorem readDecimal_head {s : String} {q : Rat} (read : readDecimal s = some q) :
    ∃ c rest, s.toList = c :: rest ∧ (c.isDigit = true ∨ c = '-') := by
  obtain ⟨value, unsigned, -⟩ := Option.map_eq_some_iff.mp read
  cases chars : s.toList with
  | nil =>
    rw [chars] at unsigned
    cases unsigned
  | cons c rest =>
    refine ⟨c, rest, rfl, ?_⟩
    by_cases minus : c = '-'
    · exact .inr minus
    · have sign : (readSign (c :: rest)).2 = c :: rest := by
        unfold readSign
        split
        · rename_i same
          exact absurd (List.cons.inj same).1 minus
        · rfl
      rw [chars, sign] at unsigned
      by_contra other
      have letter : c.isDigit = false := by simpa [minus] using other
      rw [readUnsigned, List.takeWhile_cons_of_neg (by simp [letter]),
        List.dropWhile_cons_of_neg (by simp [letter])] at unsigned
      simp only [ne_eq, not_true_eq_false, false_and, if_false] at unsigned
      split at unsigned
      · cases unsigned
      · cases unsigned
      · cases unsigned

theorem readNumber_head {s : String} {q : Rat} (read : readNumber s = some q) :
    ∃ c rest, s.toList = c :: rest ∧ (c.isDigit = true ∨ c = '-') := by
  unfold readNumber at read
  split at read
  · exact readDecimal_head read
  · obtain ⟨mantissa, decimal, -⟩ := Option.bind_eq_some_iff.mp read
    obtain ⟨c, rest, chars, first⟩ := readDecimal_head decimal
    rw [String.toList_ofList] at chars
    refine ⟨c, rest ++ s.toList.dropWhile (· ≠ 'e'), ?_, first⟩
    rw [← List.cons_append, ← chars, List.takeWhile_append_dropWhile]

end Decimal
