import TacticalGateway.Lib.Json

/-! The reader of the texts that `json.dumps` writes by default, but for numbers: strings, the
three constants, and arrays and objects with a blank after each comma and colon. -/
namespace Json
open Text (join)

mutual

/-- The value at the front of the text, and the rest; the fuel bounds the length. -/
def readValue : Nat → List Char → Option (Value × List Char)
  | 0, _ => none
  | fuel + 1, cs =>
    match cs with
    | '"' :: rest => (readString rest).map (fun r => (.str (String.ofList r.1), r.2))
    | 'n' :: 'u' :: 'l' :: 'l' :: rest => some (.null, rest)
    | 't' :: 'r' :: 'u' :: 'e' :: rest => some (.bool true, rest)
    | 'f' :: 'a' :: 'l' :: 's' :: 'e' :: rest => some (.bool false, rest)
    | '[' :: rest =>
      if rest.head? = some ']' then some (.arr [], rest.tail)
      else (readItems fuel rest).map (fun r => (.arr r.1, r.2))
    | '\x7b' :: rest =>
      if rest.head? = some '\x7d' then some (.obj [], rest.tail)
      else (readMembers fuel rest).map (fun r => (.obj r.1, r.2))
    | _ => none

def readItems : Nat → List Char → Option (List Value × List Char)
  | 0, _ => none
  | fuel + 1, cs =>
    match readValue fuel cs with
    | some (v, ']' :: rest) => some ([v], rest)
    | some (v, ',' :: ' ' :: rest) => (readItems fuel rest).map (fun r => (v :: r.1, r.2))
    | _ => none

def readMembers : Nat → List Char → Option (List (String × Value) × List Char)
  | 0, _ => none
  | fuel + 1, cs =>
    match readValue fuel cs with
    | some (.str key, ':' :: ' ' :: rest) =>
      match readValue fuel rest with
      | some (v, '\x7d' :: rest) => some ([(key, v)], rest)
      | some (v, ',' :: ' ' :: rest) =>
        (readMembers fuel rest).map (fun r => ((key, v) :: r.1, r.2))
      | _ => none
    | _ => none

end

/-- `json.loads` of such a text. -/
def loads (text : String) : Option Value :=
  match readValue (text.toList.length + 1) text.toList with
  | some (v, []) => some v
  | _ => none

/-- The text is read as the value, whatever follows it. -/
def ReadAs (text : String) (v : Value) : Prop :=
  ∀ fuel rest, text.toList.length < fuel → readValue fuel (text.toList ++ rest) = some (v, rest)

theorem readAs_null : ReadAs "null" .null := by
  intro fuel rest enough
  cases fuel with
  | zero => omega
  | succ fuel => rfl

theorem readAs_true : ReadAs "true" (.bool true) := by
  intro fuel rest enough
  cases fuel with
  | zero => omega
  | succ fuel => rfl

theorem readAs_false : ReadAs "false" (.bool false) := by
  intro fuel rest enough
  cases fuel with
  | zero => omega
  | succ fuel => rfl

theorem readAs_str (s : String) : ReadAs ("\"" ++ quoted s) (.str s) := by
  intro fuel rest enough
  cases fuel with
  | zero => omega
  | succ fuel =>
    have chars : ("\"" ++ quoted s).toList ++ rest = '"' :: ((quoted s).toList ++ rest) := by
      rw [String.toList_append]
      rfl
    rw [chars]
    simp only [readValue, readString_quoted, Option.map_some, String.ofList_toList]

theorem readValue_bracket (fuel : Nat) (rest : List Char) :
    readValue fuel (']' :: rest) = none := by
  cases fuel with
  | zero => rfl
  | succ fuel => rfl

theorem ReadAs.head {text : String} {v : Value} (read : ReadAs text v) (rest : List Char) :
    (text.toList ++ rest).head? ≠ some ']' := by
  intro first
  have again := read (text.toList.length + 1) rest (Nat.lt_succ_self _)
  cases chars : text.toList ++ rest with
  | nil => simp [chars] at first
  | cons c cs =>
    rw [chars] at first again
    cases Option.some.inj first
    rw [readValue_bracket] at again
    cases again

theorem join_cons (sep : String) {text : String} {texts : List String} (more : texts ≠ []) :
    (join sep (text :: texts)).toList = text.toList ++ (sep.toList ++ (join sep texts).toList) := by
  cases texts with
  | nil => exact absurd rfl more
  | cons next texts =>
    simp only [join, String.toList_append, List.append_assoc]

theorem comma : ", ".toList = [',', ' '] := rfl

theorem colon : ": ".toList = [':', ' '] := rfl

theorem readItems_join {texts : List String} {vs : List Value}
    (read : List.Forall₂ ReadAs texts vs) (some_text : texts ≠ []) {fuel : Nat} {rest : List Char}
    (enough : (join ", " texts).toList.length + 1 < fuel) :
    readItems fuel ((join ", " texts).toList ++ ']' :: rest) = some (vs, rest) := by
  -- what follows an item is shorter by its comma, so that the fuel left still bounds it
  induction read generalizing fuel with
  | nil => exact absurd rfl some_text
  | @cons text v texts vs here later ih =>
    obtain ⟨fuel, rfl⟩ := Nat.exists_eq_succ_of_ne_zero (Nat.ne_of_gt (by omega : 0 < fuel))
    by_cases more : texts = []
    · subst more
      cases later
      have one : readValue fuel (text.toList ++ ']' :: rest) = some (v, ']' :: rest) :=
        here fuel _ (by simp only [join] at enough; omega)
      simp only [join, readItems, one]
    · rw [join_cons ", " more, comma] at enough ⊢
      simp only [List.length_append, List.length_cons, List.length_nil] at enough
      have one := here fuel (',' :: ' ' :: ((join ", " texts).toList ++ ']' :: rest)) (by omega)
      have two := ih more (by omega : (join ", " texts).toList.length + 1 < fuel)
      simp only [List.append_assoc, List.cons_append, List.nil_append]
      simp only [readItems, one, two, Option.map_some]

theorem readAs_arr {texts : List String} {vs : List Value}
    (read : List.Forall₂ ReadAs texts vs) : ReadAs ("[" ++ join ", " texts ++ "]") (.arr vs) := by
  intro fuel rest enough
  obtain ⟨fuel, rfl⟩ := Nat.exists_eq_succ_of_ne_zero (Nat.ne_of_gt (by omega : 0 < fuel))
  have chars : ("[" ++ join ", " texts ++ "]").toList ++ rest =
      '[' :: ((join ", " texts).toList ++ ']' :: rest) := by
    simp only [String.toList_append, List.append_assoc]
    rfl
  rw [chars]
  cases read with
  | nil => rfl
  | @cons text v texts vs here later =>
    have wide : (join ", " (text :: texts)).toList.length + 1 < fuel := by
      simp only [String.toList_append, List.length_append] at enough
      have brackets : "[".toList.length = 1 ∧ "]".toList.length = 1 := ⟨rfl, rfl⟩
      omega
    have open_ : ((join ", " (text :: texts)).toList ++ ']' :: rest).head? ≠ some ']' := by
      by_cases more : texts = []
      · subst more
        exact here.head _
      · rw [join_cons ", " more, List.append_assoc]
        exact here.head _
    simp only [readValue, open_, if_false, readItems_join (.cons here later) (by simp) wide,
      Option.map_some]

def memberText (m : String × String) : String := "\"" ++ quoted m.1 ++ ": " ++ m.2

/-- The members are written with the names that are read, and with values that are read so. -/
def ReadMembers : List (String × String) → List (String × Value) → Prop :=
  List.Forall₂ (fun m v => m.1 = v.1 ∧ ReadAs m.2 v.2)

theorem readValue_name {fuel : Nat} (m : String × String) (rest : List Char)
    (enough : (memberText m).toList.length < fuel) :
    readValue fuel ((memberText m).toList ++ rest) =
      some (.str m.1, ':' :: ' ' :: (m.2.toList ++ rest)) := by
  have name := readAs_str m.1 fuel (':' :: ' ' :: (m.2.toList ++ rest)) (by
    simp only [memberText, String.toList_append, List.length_append] at enough ⊢
    omega)
  have chars : (memberText m).toList ++ rest =
      ("\"" ++ quoted m.1).toList ++ ':' :: ' ' :: (m.2.toList ++ rest) := by
    simp only [memberText, String.toList_append, colon, List.append_assoc, List.cons_append,
      List.nil_append]
  rw [chars, name]

theorem readMembers_join {members : List (String × String)} {vs : List (String × Value)}
    (read : ReadMembers members vs) (some_member : members ≠ []) {fuel : Nat} {rest : List Char}
    (enough : (join ", " (members.map memberText)).toList.length + 1 < fuel) :
    readMembers fuel ((join ", " (members.map memberText)).toList ++ '\x7d' :: rest) =
      some (vs, rest) := by
  induction read generalizing fuel with
  | nil => exact absurd rfl some_member
  | @cons m v members vs here later ih =>
    obtain ⟨same, value⟩ := here
    obtain ⟨fuel, rfl⟩ := Nat.exists_eq_succ_of_ne_zero (Nat.ne_of_gt (by omega : 0 < fuel))
    have inside : m.2.toList.length ≤ (memberText m).toList.length := by
      simp only [memberText, String.toList_append, List.length_append]
      omega
    rw [List.map_cons] at enough ⊢
    by_cases more : members = []
    · subst more
      cases later
      simp only [List.map_nil, join] at enough ⊢
      have name := readValue_name m ('\x7d' :: rest) (by omega : _ < fuel)
      have one := value fuel ('\x7d' :: rest) (by omega)
      simp only [readMembers, name, one, same]
    · have more_texts : members.map memberText ≠ [] := by simpa using more
      rw [join_cons ", " more_texts, comma] at enough ⊢
      simp only [List.length_append, List.length_cons, List.length_nil] at enough
      have name := readValue_name m
        (',' :: ' ' :: ((join ", " (members.map memberText)).toList ++ '\x7d' :: rest))
        (by omega : _ < fuel)
      have one := value fuel
        (',' :: ' ' :: ((join ", " (members.map memberText)).toList ++ '\x7d' :: rest)) (by omega)
      have two := ih more
        (by omega : (join ", " (members.map memberText)).toList.length + 1 < fuel)
      simp only [List.append_assoc, List.cons_append, List.nil_append]
      simp only [readMembers, name, one, two, same, Option.map_some]

theorem loads_object {members : List (String × String)} {vs : List (String × Value)}
    (read : ReadMembers members vs) :
    loads ("\x7b" ++ join ", " (members.map memberText) ++ "\x7d") = some (.obj vs) := by
  have chars : ("\x7b" ++ join ", " (members.map memberText) ++ "\x7d").toList =
      '\x7b' :: ((join ", " (members.map memberText)).toList ++ '\x7d' :: []) := by
    simp only [String.toList_append]
    rfl
  rw [loads, chars]
  cases read with
  | nil => rfl
  | @cons m v members vs here later =>
    have name_first : ((join ", " ((m :: members).map memberText)).toList ++
        '\x7d' :: []).head? ≠ some '\x7d' := by
      rw [List.map_cons]
      by_cases more : members.map memberText = []
      · rw [more]
        simp [join, memberText, String.toList_append]
      · rw [join_cons ", " more]
        simp [memberText, String.toList_append]
    have whole : readMembers
        (((join ", " ((m :: members).map memberText)).toList ++ '\x7d' :: []).length + 1)
        ((join ", " ((m :: members).map memberText)).toList ++ '\x7d' :: []) =
          some (v :: vs, []) := readMembers_join (.cons here later) (by simp) (by simp)
    simp only [List.length_cons, readValue, name_first, if_false, whole, Option.map_some]

end Json
