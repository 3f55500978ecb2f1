import TacticalGateway.Lib.Text

/-! Reading a text file line by line, as Python does by default: every line end is read as a line
feed, and a line keeps its line feed. -/
namespace Text

/-- Universal newlines. -/
def universal : List Char → List Char
  | [] => []
  | '\r' :: '\n' :: rest => '\n' :: universal rest
  | '\r' :: rest => '\n' :: universal rest
  | c :: rest => c :: universal rest

/-- The lines of a text, with the characters of the open line, latest first. -/
def linesFrom : List Char → List Char → List (List Char)
  | [], [] => []
  | [], opened => [opened.reverse]
  | c :: rest, opened =>
    if c = '\n' then (c :: opened).reverse :: linesFrom rest []
    else linesFrom rest (c :: opened)

def fileLines (text : String) : List String :=
  (linesFrom (universal text.toList) []).map String.ofList

theorem universal_eq_self {cs : List Char} (plain : '\r' ∉ cs) : universal cs = cs := by
  induction cs with
  | nil => rfl
  | cons c cs ih =>
    have other : c ≠ '\r' := fun same => plain (same ▸ List.mem_cons_self)
    rw [universal.eq_4 _ _ (fun _ same _ => other same) other,
      ih (fun member => plain (List.mem_cons_of_mem c member))]

theorem linesFrom_line {line : List Char} (single : '\n' ∉ line) (rest opened : List Char) :
    linesFrom (line ++ '\n' :: rest) opened =
      (opened.reverse ++ line ++ ['\n']) :: linesFrom rest [] := by
  induction line generalizing opened with
  | nil => simp [linesFrom]
  | cons c line ih =>
    have other : c ≠ '\n' := fun same => single (same ▸ List.mem_cons_self)
    rw [List.cons_append, linesFrom, if_neg other,
      ih (fun member => single (List.mem_cons_of_mem c member))]
    simp

theorem not_mem_unlines {c : Char} (other : c ≠ '\n') {lines : List String}
    (absent : ∀ line ∈ lines, c ∉ line.toList) : c ∉ (unlines lines).toList := by
  induction lines with
  | nil => simpa [unlines, join, String.toList_append] using other
  | cons line rest ih =>
    have here := absent line List.mem_cons_self
    cases rest with
    | nil => simpa [unlines, join, String.toList_append] using ⟨here, other⟩
    | cons next rest =>
      have later := ih (fun l member => absent l (List.mem_cons_of_mem _ member))
      rw [unlines_cons]
      simp only [String.toList_append, List.mem_append, not_or]
      exact ⟨⟨here, by simpa using other⟩, later⟩

theorem linesFrom_unlines {lines : List String} (nonempty : lines ≠ [])
    (single : ∀ line ∈ lines, '\n' ∉ line.toList) :
    linesFrom (unlines lines).toList [] = lines.map (fun line => line.toList ++ ['\n']) := by
  induction lines with
  | nil => exact absurd rfl nonempty
  | cons line rest ih =>
    have here := single line List.mem_cons_self
    cases rest with
    | nil =>
      have chars : (unlines [line]).toList = line.toList ++ '\n' :: [] := by
        simp [unlines, join, String.toList_append]
      rw [chars, linesFrom_line here]
      rfl
    | cons next rest =>
      have later := ih (by simp) (fun l member => single l (List.mem_cons_of_mem _ member))
      have chars : (unlines (line :: next :: rest)).toList =
          line.toList ++ '\n' :: (unlines (next :: rest)).toList := by
        simp [unlines_cons, String.toList_append]
      rw [chars, linesFrom_line here, List.map_cons, later]
      rfl

theorem fileLines_unlines {lines : List String} (nonempty : lines ≠ [])
    (single : ∀ line ∈ lines, SingleLine line) :
    fileLines (unlines lines) = lines.map (fun line => line ++ "\n") := by
  have plain : '\r' ∉ (unlines lines).toList := not_mem_unlines (by decide)
    (fun line member inside => single line member '\r' inside (by decide))
  rw [fileLines, universal_eq_self plain, linesFrom_unlines nonempty
    (fun line member inside => single line member '\n' inside (by decide)), List.map_map]
  refine List.map_congr_left (fun line _ => ?_)
  apply String.toList_inj.mp
  simp [String.toList_append]

end Text
