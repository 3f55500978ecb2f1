import Mathlib

/-! Byte strings, UTF-8, decimal fields and line splitting as Python has them.
A `str` is a Lean string, a `bytes` object a list of bytes. -/
namespace Text

abbrev Bytes := List UInt8

/-- `s.encode("utf-8")`. -/
def encode (s : String) : Bytes := s.toByteArray.data.toList

/-- `b.decode("utf-8")`; none is the UnicodeDecodeError. -/
def decode (b : Bytes) : Option String := String.fromUTF8? ⟨b.toArray⟩

theorem decode_encode (s : String) : decode (encode s) = some s := by
  change String.fromUTF8? s.toByteArray = some s
  rw [String.fromUTF8?, dif_pos s.isValidUTF8]
  rfl

/-- The bytes that `bytes.strip` removes by default. -/
def whitespace : Bytes := [0x20, 0x09, 0x0A, 0x0D, 0x0B, 0x0C]

def lstrip (b : Bytes) : Bytes := b.dropWhile (fun c => c ∈ whitespace)

def strip (b : Bytes) : Bytes := (lstrip (lstrip b).reverse).reverse

theorem lstrip_eq_nil {b : Bytes} : lstrip b = [] ↔ ∀ c ∈ b, c ∈ whitespace := by
  simp [lstrip, List.dropWhile_eq_nil_iff]

theorem head_lstrip {b rest : Bytes} {c : UInt8} (h : lstrip b = c :: rest) : c ∉ whitespace := by
  induction b with
  | nil => cases h
  | cons d b ih =>
    rw [lstrip, List.dropWhile_cons] at h
    split at h
    · exact ih h
    · rename_i kept
      cases h
      simpa using kept

def blanks (b : Bytes) : Bytes := b.takeWhile (fun c => c ∈ whitespace)

theorem head_lstrip_take {b : Bytes} {c : UInt8} {n : Nat} :
    (lstrip (b.take n)).head? = some c ↔ (lstrip b).head? = some c ∧ (blanks b).length < n := by
  induction b generalizing n with
  | nil => simp [lstrip]
  | cons d b ih =>
    cases n with
    | zero => simp [lstrip]
    | succ n =>
      by_cases blank : d ∈ whitespace
      · have inside := ih (n := n)
        simp only [lstrip, blanks] at inside ⊢
        simp [blank, inside]
      · simp [lstrip, blanks, blank]

theorem lstrip_of_spaces {spaces b : Bytes} {c : UInt8} (part : ∀ d ∈ spaces, d ∈ whitespace)
    (other : c ∉ whitespace) (first : (b.dropWhile (fun d => d ∈ spaces)).head? = some c) :
    (lstrip b).head? = some c ∧ blanks b = b.takeWhile (fun d => d ∈ spaces) := by
  induction b with
  | nil => cases first
  | cons d b ih =>
    by_cases space : d ∈ spaces
    · have blank := part d space
      have rest := ih (by simpa [space] using first)
      simp only [lstrip, blanks] at rest ⊢
      simpa [space, blank] using rest
    · have same : d = c := by simpa [space] using first
      subst same
      simp [lstrip, blanks, space, other]

theorem strip_eq_nil {b : Bytes} : strip b = [] ↔ ∀ c ∈ b, c ∈ whitespace := by
  rw [← lstrip_eq_nil]
  constructor
  · intro empty
    rw [strip, List.reverse_eq_nil_iff, lstrip_eq_nil] at empty
    cases rest : lstrip b with
    | nil => rfl
    | cons c cs => exact absurd (empty c (by simp [rest])) (head_lstrip rest)
  · intro empty
    rw [strip, empty]
    rfl

/-- `b.find(sub)`; none stands for -1. -/
def find (sub : Bytes) : Bytes → Option Nat
  | [] => if sub = [] then some 0 else none
  | c :: b => if sub <+: c :: b then some 0 else (find sub b).map (· + 1)

theorem find_le {sub b : Bytes} {i : Nat} (h : find sub b = some i) :
    i + sub.length ≤ b.length := by
  induction b generalizing i with
  | nil =>
    simp only [find] at h
    split at h
    · rename_i empty
      cases h
      simp [empty]
    · cases h
  | cons c b ih =>
    simp only [find] at h
    split at h
    · rename_i here
      cases h
      simpa using here.length_le
    · obtain ⟨j, found, rfl⟩ := Option.map_eq_some_iff.mp h
      have le := ih found
      rw [List.length_cons]
      omega

theorem find_append {sub b : Bytes} {i : Nat} (more : Bytes) (h : find sub b = some i) :
    find sub (b ++ more) = some i := by
  induction b generalizing i with
  | nil =>
    simp only [find] at h
    split at h
    · rename_i empty
      cases h
      cases more with
      | nil => simp [find, empty]
      | cons c more => simp [find, empty]
    · cases h
  | cons c b ih =>
    simp only [find] at h
    split at h
    · rename_i here
      cases h
      rw [List.cons_append, find, if_pos]
      exact here.trans (List.prefix_append (c :: b) more)
    · rename_i later
      obtain ⟨j, found, rfl⟩ := Option.map_eq_some_iff.mp h
      have fits := find_le found
      have still : ¬ sub <+: c :: (b ++ more) := by
        intro here
        apply later
        apply List.prefix_of_prefix_length_le here (List.prefix_append (c :: b) more)
        rw [List.length_cons]
        omega
      rw [List.cons_append, find, if_neg still, ih found]
      rfl

theorem find_take {sub b : Bytes} {i : Nat} (h : find sub b = some i) :
    find sub (b.take (i + sub.length)) = some i := by
  induction b generalizing i with
  | nil => simpa using h
  | cons c b ih =>
    simp only [find] at h
    split at h
    · rename_i here
      cases h
      rw [Nat.zero_add, ← List.prefix_iff_eq_take.mp here]
      cases sub with
      | nil => rfl
      | cons d sub => rw [find, if_pos List.prefix_rfl]
    · rename_i later
      obtain ⟨j, found, rfl⟩ := Option.map_eq_some_iff.mp h
      have still : ¬ sub <+: c :: b.take (j + sub.length) := by
        intro here
        exact later (here.trans ((List.cons_prefix_cons).mpr ⟨rfl, List.take_prefix _ _⟩))
      rw [Nat.add_right_comm, List.take_succ_cons, find, if_neg still, ih found]
      rfl

theorem find_skip {first : UInt8} {sub v : Bytes} (b : Bytes) (skip : first ∉ v) :
    find (first :: sub) (v ++ b) = (find (first :: sub) b).map (· + v.length) := by
  induction v with
  | nil => simp
  | cons c v ih =>
    have other : ¬ first :: sub <+: c :: (v ++ b) := by
      rintro ⟨rest, same⟩
      have heads : first = c := (List.cons.inj same).1
      exact skip (heads ▸ List.mem_cons_self)
    rw [List.cons_append, find, if_neg other,
      ih (fun member => skip (List.mem_cons_of_mem _ member)),
      Option.map_map]
    rfl

theorem find_parts {sub b : Bytes} {i : Nat} (found : find sub b = some i) :
    ∃ front rest, b = front ++ sub ++ rest ∧ front.length = i := by
  induction b generalizing i with
  | nil =>
    simp only [find] at found
    split at found
    · rename_i empty
      cases found
      exact ⟨[], [], by simp [empty], rfl⟩
    · cases found
  | cons c b ih =>
    simp only [find] at found
    split at found
    · rename_i here
      cases found
      obtain ⟨rest, same⟩ := here
      exact ⟨[], rest, same.symm, rfl⟩
    · obtain ⟨j, later, rfl⟩ := Option.map_eq_some_iff.mp found
      obtain ⟨front, rest, same, length⟩ := ih later
      exact ⟨c :: front, rest, by rw [same]; rfl, by rw [List.length_cons, length]⟩

theorem find_of_parts (sub front rest : Bytes) :
    ∃ i, find sub (front ++ sub ++ rest) = some i ∧ i ≤ front.length := by
  induction front with
  | nil =>
    refine ⟨0, ?_, Nat.le_refl 0⟩
    rw [List.nil_append]
    cases whole : sub ++ rest with
    | nil => rw [find, if_pos (List.append_eq_nil_iff.mp whole).1]
    | cons c b => rw [find, if_pos ⟨rest, whole⟩]
  | cons c front ih =>
    obtain ⟨i, found, early⟩ := ih
    rw [List.cons_append, List.cons_append, find]
    split
    · exact ⟨0, rfl, Nat.zero_le _⟩
    · refine ⟨i + 1, by rw [found]; rfl, ?_⟩
      rw [List.length_cons]
      omega

/-- `s[:n]`. -/
def prefixOf (n : Nat) (s : String) : String := String.ofList (s.toList.take n)

/-- `sep.join(lines)`. -/
def join (sep : String) : List String → String
  | [] => ""
  | [line] => line
  | line :: next :: rest => line ++ sep ++ join sep (next :: rest)

/-- The characters at which `str.splitlines` ends a line. -/
def lineBreaks : List Char :=
  ['\n', '\r', '\x0b', '\x0c', '\x1c', '\x1d', '\x1e', '\u0085', '\u2028', '\u2029']

/-- The scan behind `splitlines`, with the characters of the open line, latest first. -/
def splitlinesFrom : List Char → List Char → List (List Char)
  | [], [] => []
  | [], opened => [opened.reverse]
  | '\r' :: '\n' :: rest, opened => opened.reverse :: splitlinesFrom rest []
  | c :: rest, opened =>
    if c ∈ lineBreaks then opened.reverse :: splitlinesFrom rest []
    else splitlinesFrom rest (c :: opened)

def splitlines (s : String) : List String := (splitlinesFrom s.toList []).map String.ofList

def SingleLine (s : String) : Prop := ∀ c ∈ s.toList, c ∉ lineBreaks

theorem splitlinesFrom_line (line rest opened : List Char) (single : ∀ c ∈ line, c ∉ lineBreaks) :
    splitlinesFrom (line ++ '\n' :: rest) opened =
      (opened.reverse ++ line) :: splitlinesFrom rest [] := by
  induction line generalizing opened with
  | nil =>
    have h : ('\n' : Char) ∈ lineBreaks := by decide
    simp [splitlinesFrom, h]
  | cons c line ih =>
    have hc : c ∉ lineBreaks := single c (List.mem_cons_self)
    have hr : c ≠ '\r' := fun h => hc (h ▸ by decide)
    have next := ih (c :: opened) (fun d hd => single d (List.mem_cons_of_mem _ hd))
    rw [List.cons_append, splitlinesFrom.eq_4 _ _ _ (fun _ h _ => hr h), if_neg hc, next]
    simp

def unlines (lines : List String) : String := join "\n" lines ++ "\n"

theorem unlines_cons (line next : String) (rest : List String) :
    unlines (line :: next :: rest) = line ++ "\n" ++ unlines (next :: rest) := by
  simp only [unlines, join, String.append_assoc]

theorem splitlines_unlines (lines : List String) (nonempty : lines ≠ [])
    (single : ∀ line ∈ lines, SingleLine line) : splitlines (unlines lines) = lines := by
  induction lines with
  | nil => exact absurd rfl nonempty
  | cons line rest ih =>
    have here := single line List.mem_cons_self
    cases rest with
    | nil =>
      have h := splitlinesFrom_line line.toList [] [] here
      simp [splitlines, unlines, join, String.toList_append, h, splitlinesFrom]
    | cons next rest =>
      have later := ih (by simp) (fun l hl => single l (List.mem_cons_of_mem _ hl))
      have h := splitlinesFrom_line line.toList (unlines (next :: rest)).toList [] here
      simp only [splitlines] at later
      have text : (unlines (line :: next :: rest)).toList =
          line.toList ++ '\n' :: (unlines (next :: rest)).toList := by
        simp [unlines_cons, String.toList_append]
      rw [splitlines, text, h, List.map_cons, later]
      simp

/-- `f"{n:0wd}"`, the decimal digits padded with zeros to the width. -/
def zeroPad (width n : Nat) : String := String.ofList ((Nat.toDigits 10 n).leftpad width '0')

theorem zeroPad_value (width n : Nat) : Nat.ofDigitChars 10 (zeroPad width n).toList 0 = n := by
  rw [zeroPad, String.toList_ofList, List.leftpad, Nat.ofDigitChars_append,
    Nat.ofDigitChars_replicate_zero, Nat.mul_zero,
    Nat.ofDigitChars_toDigits (by decide) (by decide)]

theorem zeroPad_injective {width m n : Nat} (same : zeroPad width m = zeroPad width n) : m = n := by
  rw [← zeroPad_value width m, same, zeroPad_value]

theorem zeroPad_isDigit {width n : Nat} {c : Char} (member : c ∈ (zeroPad width n).toList) :
    c.isDigit = true := by
  rw [zeroPad, String.toList_ofList, List.leftpad, List.mem_append] at member
  rcases member with pad | digit
  · rw [List.eq_of_mem_replicate pad]; rfl
  · exact Nat.isDigit_of_mem_toDigits (by decide) (by decide) digit

theorem zeroPad_length {width n : Nat} (positive : 0 < width) (bound : n < 10 ^ width) :
    (zeroPad width n).toList.length = width := by
  have short := (Nat.length_toDigits_le_iff (b := 10) (by decide) positive).mpr bound
  rw [zeroPad, String.toList_ofList, List.leftpad, List.length_append, List.length_replicate]
  omega

def decimal (n : Nat) : String := String.ofList (Nat.toDigits 10 n)

theorem decimal_isDigit {n : Nat} {c : Char} (member : c ∈ (decimal n).toList) :
    c.isDigit = true := by
  rw [decimal, String.toList_ofList] at member
  exact Nat.isDigit_of_mem_toDigits (by decide) (by decide) member

theorem decimal_value (n : Nat) : Nat.ofDigitChars 10 (decimal n).toList 0 = n := by
  rw [decimal, String.toList_ofList, Nat.ofDigitChars_toDigits (by decide) (by decide)]

def hexDigits : List Char :=
  ['0', '1', '2', '3', '4', '5', '6', '7', '8', '9', 'a', 'b', 'c', 'd', 'e', 'f']

def hexDigit (n : Nat) : Char := hexDigits.getD n '0'

theorem hexDigit_mem (n : Nat) : hexDigit n ∈ hexDigits := by
  unfold hexDigit
  rw [List.getD_eq_getElem?_getD]
  cases found : hexDigits[n]? with
  | none => decide
  | some c => exact List.mem_of_getElem? found

theorem cut_unique {a b s t : List Char} {sep : Char} (ha : sep ∉ a) (hb : sep ∉ b)
    (same : a ++ sep :: s = b ++ sep :: t) : a = b ∧ s = t := by
  induction a generalizing b with
  | nil =>
    cases b with
    | nil => exact ⟨rfl, (List.cons.inj same).2⟩
    | cons d b => exact absurd (List.mem_cons.mpr (.inl (List.cons.inj same).1)) hb
  | cons c a ih =>
    cases b with
    | nil => exact absurd (List.mem_cons.mpr (.inl (List.cons.inj same).1.symm)) ha
    | cons d b =>
      have h := List.cons.inj same
      have rest := ih (fun m => ha (List.mem_cons_of_mem _ m))
        (fun m => hb (List.mem_cons_of_mem _ m)) h.2
      exact ⟨by rw [h.1, rest.1], rest.2⟩

theorem cut_unique_last {a b s t : List Char} {sep : Char} (hs : sep ∉ s) (ht : sep ∉ t)
    (same : a ++ sep :: s = b ++ sep :: t) : a = b ∧ s = t := by
  have turned : s.reverse ++ sep :: a.reverse = t.reverse ++ sep :: b.reverse := by
    simpa using congrArg List.reverse same
  have parts := cut_unique (by simpa using hs) (by simpa using ht) turned
  exact ⟨List.reverse_injective parts.2, List.reverse_injective parts.1⟩

end Text
