import Mathlib

/-! Regular expressions as a backtracking matcher runs them: from each place in the text, the
places where a match ends, in the order in which they are tried. -/
namespace Regex

inductive Pattern where
  | empty
  | one (p : Char → Bool)
  | many (p : Char → Bool) (least : Nat) (most : Option Nat)
  | start
  | finish
  | boundary
  | seq (first second : Pattern)
  | alt (first second : Pattern)

/-- One pattern after the other. -/
def Pattern.inOrder (rs : List Pattern) : Pattern := rs.foldr .seq .empty

def Pattern.anyOf (r : Pattern) (rs : List Pattern) : Pattern := rs.foldl .alt r

variable (isWord : Char → Bool)

def wordBefore (s : List Char) (i : Nat) : Bool := i ≠ 0 && (s[i - 1]?).any isWord

def wordAfter (s : List Char) (i : Nat) : Bool := (s[i]?).any isWord

def Pattern.ends (s : List Char) : Pattern → Nat → List Nat
  | .empty, i => [i]
  | .one p, i => if (s[i]?).any p then [i + 1] else []
  | .many p least most, i =>
    -- greedy: the longest repetition is tried first
    let run := ((s.drop i).takeWhile p).length
    let longest := most.elim run (min run)
    ((List.range' least (longest + 1 - least)).reverse).map (i + ·)
  | .start, i => if i = 0 then [i] else []
  | .finish, i => if i = s.length || s.drop i = ['\n'] then [i] else []
  | .boundary, i => if wordBefore isWord s i ≠ wordAfter isWord s i then [i] else []
  | .seq first second, i => (first.ends s i).flatMap (second.ends s)
  | .alt first second, i => first.ends s i ++ second.ends s i

/-- The end of `re.match`. -/
def Pattern.matchEnd (r : Pattern) (s : List Char) : Option Nat := (r.ends isWord s 0).head?

/-- Whether `re.search` finds anything. -/
def Pattern.occurs (r : Pattern) (s : List Char) : Bool :=
  (List.range (s.length + 1)).any (fun i => !(r.ends isWord s i).isEmpty)

theorem ends_ones_cons (p : Char → Bool) (ps : List (Char → Bool)) (s : List Char) (i : Nat) :
    (Pattern.inOrder ((p :: ps).map .one)).ends isWord s i =
      if (s[i]?).any p then (Pattern.inOrder (ps.map .one)).ends isWord s (i + 1) else [] := by
  show (if (s[i]?).any p then [i + 1] else []).flatMap _ = _
  split
  · exact List.flatMap_singleton ..
  · rfl

theorem ends_ones {ps : List (Char → Bool)} {s word rest : List Char} {i : Nat}
    (fits : List.Forall₂ (fun p c => p c = true) ps word) (parts : s.drop i = word ++ rest) :
    (Pattern.inOrder (ps.map .one)).ends isWord s i = [i + word.length] := by
  induction fits generalizing i with
  | nil => rfl
  | @cons p c ps word fit fits ih =>
    have here : s[i]? = some c := by
      rw [← List.head?_drop, parts]
      rfl
    have later : s.drop (i + 1) = word ++ rest := by
      rw [← List.drop_drop, parts]
      rfl
    rw [ends_ones_cons, here, Option.any_some, if_pos fit, ih later, List.length_cons]
    congr 1
    omega

theorem parts_of_ends_ones {ps : List (Char → Bool)} {s : List Char} {i e : Nat}
    (ended : e ∈ (Pattern.inOrder (ps.map .one)).ends isWord s i) :
    ∃ word rest, s.drop i = word ++ rest ∧ List.Forall₂ (fun p c => p c = true) ps word ∧
      e = i + word.length := by
  induction ps generalizing i with
  | nil => exact ⟨[], s.drop i, rfl, .nil, List.mem_singleton.mp ended⟩
  | cons p ps ih =>
    rw [ends_ones_cons] at ended
    split at ended
    · rename_i here
      cases found : s[i]? with
      | none => simp [found] at here
      | some c =>
        rw [found, Option.any_some] at here
        obtain ⟨word, rest, parts, fits, stop⟩ := ih ended
        refine ⟨c :: word, rest, ?_, .cons here fits, ?_⟩
        · rw [List.drop_eq_getElem?_toList_append, found, parts]
          rfl
        · rw [stop, List.length_cons]
          omega
    · cases ended

/-- An unbounded repetition takes the whole run first. -/
theorem ends_many_head {p : Char → Bool} {s : List Char} {i : Nat}
    (found : (s.drop i).takeWhile p ≠ []) :
    ((Pattern.many p 1 none).ends isWord s i).head? =
      some (i + ((s.drop i).takeWhile p).length) := by
  obtain ⟨n, length⟩ := Nat.exists_eq_succ_of_ne_zero (List.length_eq_zero_iff.not.mpr found)
  have last : List.range' 1 (n + 1) = List.range' 1 n ++ [n + 1] := by
    rw [List.range'_1_concat, Nat.add_comm 1 n]
  simp only [Pattern.ends, Option.elim_none, length, Nat.succ_eq_add_one, Nat.add_sub_cancel, last,
    List.reverse_append, List.reverse_singleton, List.singleton_append, List.map_cons,
    List.head?_cons]

theorem ends_many_nil {p : Char → Bool} {s : List Char} {i : Nat}
    (missing : (s.drop i).takeWhile p = []) : (Pattern.many p 1 none).ends isWord s i = [] := by
  simp only [Pattern.ends, missing, Option.elim_none, List.length_nil]
  rfl

section Membership

variable {isWord} {s : List Char} {i e : Nat}

theorem isSome_matchEnd_iff {r : Pattern} :
    (r.matchEnd isWord s).isSome = true ↔ ∃ e, e ∈ r.ends isWord s 0 := by
  rw [Pattern.matchEnd]
  cases r.ends isWord s 0 with
  | nil => simp
  | cons e es => exact ⟨fun _ => ⟨e, List.mem_cons_self⟩, fun _ => rfl⟩

@[simp] theorem mem_ends_one {p : Char → Bool} :
    e ∈ (Pattern.one p).ends isWord s i ↔ (s[i]?).any p = true ∧ e = i + 1 := by
  simp only [Pattern.ends]
  split <;> simp_all

@[simp] theorem mem_ends_start : e ∈ Pattern.start.ends isWord s i ↔ i = 0 ∧ e = i := by
  simp only [Pattern.ends]
  split <;> simp_all

@[simp] theorem mem_ends_finish :
    e ∈ Pattern.finish.ends isWord s i ↔ (i = s.length ∨ s.drop i = ['\n']) ∧ e = i := by
  simp only [Pattern.ends, Bool.or_eq_true, decide_eq_true_eq]
  split <;> simp_all

@[simp] theorem mem_ends_boundary :
    e ∈ Pattern.boundary.ends isWord s i ↔
      wordBefore isWord s i ≠ wordAfter isWord s i ∧ e = i := by
  simp only [Pattern.ends]
  split <;> simp_all

@[simp] theorem mem_ends_seq {first second : Pattern} :
    e ∈ (Pattern.seq first second).ends isWord s i ↔
      ∃ m ∈ first.ends isWord s i, e ∈ second.ends isWord s m := List.mem_flatMap

@[simp] theorem mem_ends_alt {first second : Pattern} :
    e ∈ (Pattern.alt first second).ends isWord s i ↔
      e ∈ first.ends isWord s i ∨ e ∈ second.ends isWord s i := List.mem_append

@[simp] theorem mem_ends_inOrder_nil :
    e ∈ (Pattern.inOrder []).ends isWord s i ↔ e = i := List.mem_singleton

@[simp] theorem mem_ends_inOrder_cons {r : Pattern} {rs : List Pattern} :
    e ∈ (Pattern.inOrder (r :: rs)).ends isWord s i ↔
      ∃ m ∈ r.ends isWord s i, e ∈ (Pattern.inOrder rs).ends isWord s m := List.mem_flatMap

theorem mem_ends_many {p : Char → Bool} :
    e ∈ (Pattern.many p 1 none).ends isWord s i ↔
      ∃ n, 1 ≤ n ∧ n ≤ ((s.drop i).takeWhile p).length ∧ e = i + n := by
  simp only [Pattern.ends, Option.elim_none, Nat.add_sub_cancel, List.mem_map, List.mem_reverse,
    List.mem_range'_1]
  constructor
  · rintro ⟨n, ⟨least, most⟩, rfl⟩
    exact ⟨n, least, by omega, rfl⟩
  · rintro ⟨n, least, most, rfl⟩
    exact ⟨n, ⟨least, by omega⟩, rfl⟩

theorem mem_ends_ones {ps : List (Char → Bool)} :
    e ∈ (Pattern.inOrder (ps.map .one)).ends isWord s i ↔
      ∃ word rest, s.drop i = word ++ rest ∧ List.Forall₂ (fun p c => p c = true) ps word ∧
        e = i + word.length := by
  constructor
  · exact parts_of_ends_ones isWord
  · rintro ⟨word, rest, parts, fits, rfl⟩
    rw [ends_ones isWord fits parts]
    exact List.mem_singleton_self _

end Membership

end Regex
