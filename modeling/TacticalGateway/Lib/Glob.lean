import Mathlib

/-! Shell-style patterns, as `fnmatch.fnmatchcase` reads them. -/
namespace Glob

inductive Token where
  | star
  | one (p : Char → Bool)

def members : List Char → List (Char × Char)
  | first :: '-' :: last :: rest => (first, last) :: members rest
  | c :: rest => (c, c) :: members rest
  | [] => []

def inBracket (negated : Bool) (inside : List Char) (c : Char) : Bool :=
  (members inside).any (fun m => m.1 ≤ c && c ≤ m.2) != negated

/-- What stands in a bracket, whose first character may be the closing one, and the pattern behind
it; none where it is not closed. -/
def closedBracket (negated : Bool) (body : List Char) : Option ((Char → Bool) × List Char) :=
  match (body.drop 1).dropWhile (· ≠ ']') with
  | [] => none
  | _ :: rest => some (inBracket negated (body.take 1 ++ (body.drop 1).takeWhile (· ≠ ']')), rest)

def bracket (pattern : List Char) : Option ((Char → Bool) × List Char) :=
  if pattern.head? = some '!' then closedBracket true (pattern.drop 1)
  else closedBracket false pattern

theorem length_closedBracket {negated : Bool} {body rest : List Char} {p : Char → Bool}
    (closed : closedBracket negated body = some (p, rest)) : rest.length ≤ body.length := by
  unfold closedBracket at closed
  split at closed
  · cases closed
  · rename_i behind
    cases closed
    have dropped := (List.dropWhile_sublist (· ≠ ']') (l := body.drop 1)).length_le
    rw [behind, List.length_cons, List.length_drop] at dropped
    omega

theorem length_bracket {pattern rest : List Char} {p : Char → Bool}
    (closed : bracket pattern = some (p, rest)) : rest.length ≤ pattern.length := by
  unfold bracket at closed
  split at closed
  · have shorter := length_closedBracket closed
    rw [List.length_drop] at shorter
    omega
  · exact length_closedBracket closed

def tokens : List Char → List Token
  | [] => []
  | c :: pattern =>
    if c = '*' then .star :: tokens pattern
    else if c = '?' then .one (fun _ => true) :: tokens pattern
    else if c = '[' then
      match _ : bracket pattern with
      | some (p, rest) => .one p :: tokens rest
      | none => .one (· = '[') :: tokens pattern
    else .one (· = c) :: tokens pattern
termination_by pattern => pattern.length
decreasing_by
  · simp
  · simp
  · rename_i closed
    have shorter := length_bracket closed
    rw [List.length_cons]
    omega
  · simp
  · simp

def matchTokens : List Token → List Char → Bool
  | [], s => s.isEmpty
  | .star :: ts, s => s.tails.any (matchTokens ts)
  | .one p :: ts, c :: s => p c && matchTokens ts s
  | .one _ :: _, [] => false

def fnmatchcase (name pattern : String) : Bool := matchTokens (tokens pattern.toList) name.toList

end Glob
