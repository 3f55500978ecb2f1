import TacticalGateway.Lib.Dict
import TacticalGateway.Lib.Json

/-! The text of a JSON value without blanks, and a reader of the whole grammar, which allows white
space between the tokens. How a number is written and read is a parameter. -/
namespace JsonGrammar
open Json (Value hexValue hex4Value unicodeEscape unescape)

def numberChars : List Char :=
  ['-', '+', '.', 'e', 'E', '0', '1', '2', '3', '4', '5', '6', '7', '8', '9']

/-- How numbers are written, and what a token of digits stands for; `exact` are the numbers that
are written without loss. -/
structure Numbers where
  write : Rat → List Char
  read : List Char → Option Rat
  exact : Rat → Prop
  read_write : ∀ q, exact q → read (write q) = some q
  write_chars : ∀ q, exact q → write q ≠ [] ∧ ∀ c ∈ write q, c ∈ numberChars

def control (c : Char) : Bool := c.toNat < 32

def escapeChar (c : Char) : List Char :=
  if c = '"' then ['\\', '"']
  else if c = '\\' then ['\\', '\\']
  else if c = '\n' then ['\\', 'n']
  else if c = '\r' then ['\\', 'r']
  else if c = '\t' then ['\\', 't']
  else if c = '\x0c' then ['\\', 'f']
  else if c = '\x08' then ['\\', 'b']
  else if control c then unicodeEscape c.toNat
  else [c]

def writeText (s : String) : List Char := s.toList.flatMap escapeChar ++ ['"']

section Writer

variable (n : Numbers)

mutual

def write : Value → List Char
  | .null => ['n', 'u', 'l', 'l']
  | .bool true => ['t', 'r', 'u', 'e']
  | .bool false => ['f', 'a', 'l', 's', 'e']
  | .num q => n.write q
  | .str s => '"' :: writeText s
  | .arr items => '[' :: (writeItems items ++ [']'])
  | .obj members => '\x7b' :: (writeMembers members ++ ['\x7d'])

def writeItems : List Value → List Char
  | [] => []
  | v :: vs => write v ++ writeMoreItems vs

def writeMoreItems : List Value → List Char
  | [] => []
  | v :: vs => ',' :: (write v ++ writeMoreItems vs)

def writeMembers : List (String × Value) → List Char
  | [] => []
  | (name, v) :: ms => '"' :: (writeText name ++ ':' :: (write v ++ writeMoreMembers ms))

def writeMoreMembers : List (String × Value) → List Char
  | [] => []
  | (name, v) :: ms => ',' :: '"' :: (writeText name ++ ':' :: (write v ++ writeMoreMembers ms))

end

def dumps (v : Value) : String := String.ofList (write n v)

mutual

/-- What is written without loss: exact numbers, and no name twice in one object. -/
def Writable : Value → Prop
  | .num q => n.exact q
  | .arr items => WritableItems items
  | .obj members => (members.map Prod.fst).Nodup ∧ WritableMembers members
  | _ => True

def WritableItems : List Value → Prop
  | [] => True
  | v :: vs => Writable v ∧ WritableItems vs

def WritableMembers : List (String × Value) → Prop
  | [] => True
  | (_, v) :: ms => Writable v ∧ WritableMembers ms

end

end Writer

def blanks : List Char := [' ', '\t', '\n', '\r']

def skip (cs : List Char) : List Char := cs.dropWhile (fun c => c ∈ blanks)

def readText (cs : List Char) : Option (List Char × List Char) :=
  match Json.readString cs with
  | some (text, rest) =>
    if (cs.take (cs.length - rest.length)).any control then none else some (text, rest)
  | none => none

def readName : List Char → Option (String × List Char)
  | '"' :: rest =>
    match readText rest with
    | none => none
    | some (name, rest) =>
      match skip rest with
      | ':' :: rest => some (String.ofList name, skip rest)
      | _ => none
  | _ => none

/-- Of members with one name the last counts, in the place of the first. -/
def merge (members : List (String × Value)) : List (String × Value) :=
  (members.foldl (fun d m => d.set m.1 m.2) (Dict.empty : Dict String Value)).items

section Reader

variable (n : Numbers)

def readNumber (cs : List Char) : Option (Value × List Char) :=
  let token := cs.takeWhile (fun c => c ∈ numberChars)
  if token = [] then none
  else (n.read token).map (fun q => (.num q, cs.dropWhile (fun c => c ∈ numberChars)))

mutual

/-- The value at the front of the text, and the rest; the fuel bounds the length. -/
def readValue : Nat → List Char → Option (Value × List Char)
  | 0, _ => none
  | fuel + 1, cs =>
    match cs with
    | '"' :: rest => (readText rest).map (fun r => (.str (String.ofList r.1), r.2))
    | 'n' :: 'u' :: 'l' :: 'l' :: rest => some (.null, rest)
    | 't' :: 'r' :: 'u' :: 'e' :: rest => some (.bool true, rest)
    | 'f' :: 'a' :: 'l' :: 's' :: 'e' :: rest => some (.bool false, rest)
    | '[' :: rest =>
      if (skip rest).head? = some ']' then some (.arr [], (skip rest).tail)
      else (readItems fuel (skip rest)).map (fun r => (.arr r.1, r.2))
    | '\x7b' :: rest =>
      if (skip rest).head? = some '\x7d' then some (.obj [], (skip rest).tail)
      else (readMembers fuel (skip rest)).map (fun r => (.obj (merge r.1), r.2))
    | cs => readNumber n cs

def readItems : Nat → List Char → Option (List Value × List Char)
  | 0, _ => none
  | fuel + 1, cs =>
    match readValue fuel cs with
    | none => none
    | some (v, rest) =>
      match skip rest with
      | ']' :: rest => some ([v], rest)
      | ',' :: rest => (readItems fuel (skip rest)).map (fun r => (v :: r.1, r.2))
      | _ => none

def readMembers : Nat → List Char → Option (List (String × Value) × List Char)
  | 0, _ => none
  | fuel + 1, cs =>
    match readName cs with
    | none => none
    | some (name, rest) =>
      match readValue fuel rest with
      | none => none
      | some (v, rest) =>
        match skip rest with
        | '\x7d' :: rest => some ([(name, v)], rest)
        | ',' :: rest => (readMembers fuel (skip rest)).map (fun r => ((name, v) :: r.1, r.2))
        | _ => none

end

/-- `json.loads`; none is the `JSONDecodeError`. -/
def loads (text : String) : Option Value :=
  match readValue n (text.toList.length + 1) (skip text.toList) with
  | some (v, rest) => if skip rest = [] then some v else none
  | none => none

end Reader

theorem readString_escapeChar (c : Char) (rest : List Char) :
    Json.readString (escapeChar c ++ rest) =
      (Json.readString rest).map (fun r => (c :: r.1, r.2)) := by
  unfold escapeChar
  iterate 7
    split
    · subst_vars
      simp [Json.readString, unescape]
  split
  · rename_i low
    have small : c.toNat < 0x10000 := by
      simp only [control, decide_eq_true_eq] at low
      omega
    exact Json.readString_unicodeEscape small rest
  · rename_i quote slash _ _ _ _ _ _
    rw [List.singleton_append, Json.readString.eq_def]
    split <;> simp_all

theorem readString_writeText (s : String) (rest : List Char) :
    Json.readString (writeText s ++ rest) = some (s.toList, rest) := by
  unfold writeText
  induction s.toList with
  | nil => simp [Json.readString]
  | cons c cs ih =>
    have step := readString_escapeChar c (cs.flatMap escapeChar ++ '"' :: rest)
    rw [List.append_assoc, List.singleton_append] at ih
    rw [ih] at step
    simpa [List.append_assoc] using step

theorem control_unicodeEscape (k : Nat) : ∀ c ∈ unicodeEscape k, control c = false := by
  intro c member
  have printed := Json.printable_unicodeEscape k c member
  simp only [Json.printable, Bool.and_eq_true, decide_eq_true_eq] at printed
  simp only [control, decide_eq_false_iff_not]
  omega

theorem control_escapeChar (c : Char) : ∀ d ∈ escapeChar c, control d = false := by
  unfold escapeChar
  iterate 7
    split
    · simp [control]
  split
  · exact control_unicodeEscape _
  · rename_i plain
    intro d member
    rw [List.mem_singleton.mp member]
    simpa using plain

theorem control_writeText (s : String) : (writeText s).any control = false := by
  rw [List.any_eq_false]
  intro c member
  rw [Bool.not_eq_true]
  rcases List.mem_append.mp member with text | quote
  · obtain ⟨d, _, escaped⟩ := List.mem_flatMap.mp text
    exact control_escapeChar d c escaped
  · rw [List.mem_singleton.mp quote]
    rfl

theorem readText_writeText (s : String) (rest : List Char) :
    readText (writeText s ++ rest) = some (s.toList, rest) := by
  have front : (writeText s ++ rest).take ((writeText s ++ rest).length - rest.length) =
      writeText s := by
    rw [List.length_append, Nat.add_sub_cancel, List.take_left]
  rw [readText, readString_writeText]
  simp only [front, control_writeText, Bool.false_eq_true, if_false]

theorem foldl_set_items (d : Dict String Value) (members : List (String × Value))
    (distinct : (members.map Prod.fst).Nodup) (fresh : ∀ m ∈ members, m.1 ∉ d.keys) :
    (members.foldl (fun d m => d.set m.1 m.2) d).items = d.items ++ members := by
  induction members generalizing d with
  | nil => simp
  | cons m members ih =>
    obtain ⟨own, rest⟩ := List.nodup_cons.mp distinct
    have absent := fresh m List.mem_cons_self
    have added : (d.set m.1 m.2).items = d.items ++ [m] := by
      rw [Dict.items_set, if_neg absent]
    rw [List.foldl_cons, ih _ rest, added, List.append_assoc, List.singleton_append]
    intro other member known
    rw [Dict.keys, added, List.map_append, List.mem_append] at known
    rcases known with old | new
    · exact fresh other (List.mem_cons_of_mem _ member) old
    · rw [List.map_singleton, List.mem_singleton] at new
      exact own (new ▸ List.mem_map_of_mem member)

theorem merge_distinct {members : List (String × Value)}
    (distinct : (members.map Prod.fst).Nodup) : merge members = members := by
  rw [merge, foldl_set_items _ _ distinct (fun _ _ => List.not_mem_nil)]
  rfl

theorem skip_cons {c : Char} (rest : List Char) (solid : c ∉ blanks) :
    skip (c :: rest) = c :: rest := by
  rw [skip, List.dropWhile_cons_of_neg (by simpa using solid)]

variable {n : Numbers}

theorem writableItems_iff {vs : List Value} : WritableItems n vs ↔ ∀ v ∈ vs, Writable n v := by
  induction vs with
  | nil => simp [WritableItems]
  | cons v vs ih => rw [WritableItems, ih, List.forall_mem_cons]

/-- What may stand behind a value: anything that does not go on with a number. -/
def Stops (rest : List Char) : Prop := ∀ c, rest.head? = some c → c ∉ numberChars

theorem stops_cons {c : Char} (rest : List Char) (other : c ∉ numberChars) : Stops (c :: rest) := by
  intro d first
  cases Option.some.inj first
  exact other

theorem number_token {q : Rat} (exact_q : n.exact q) {rest : List Char} (stops : Stops rest) :
    (n.write q ++ rest).takeWhile (fun c => c ∈ numberChars) = n.write q ∧
      (n.write q ++ rest).dropWhile (fun c => c ∈ numberChars) = rest := by
  have all : ∀ c ∈ n.write q, decide (c ∈ numberChars) = true := by
    simpa using (n.write_chars q exact_q).2
  rw [List.takeWhile_append_of_pos all, List.dropWhile_append_of_pos all]
  cases rest with
  | nil => simp
  | cons c rest =>
    have other : decide (c ∈ numberChars) = false := decide_eq_false (stops c rfl)
    simp [other]

theorem readNumber_write {q : Rat} (exact_q : n.exact q) {rest : List Char} (stops : Stops rest) :
    readNumber n (n.write q ++ rest) = some (.num q, rest) := by
  obtain ⟨token, behind⟩ := number_token exact_q stops
  rw [readNumber]
  simp only [token, behind, (n.write_chars q exact_q).1, if_false, n.read_write q exact_q,
    Option.map_some]

theorem write_head {v : Value} (writable : Writable n v) :
    ∃ c rest, write n v = c :: rest ∧ c ∉ blanks ∧ c ≠ ']' := by
  cases v with
  | null => exact ⟨_, _, rfl, by decide, by decide⟩
  | bool b => cases b <;> exact ⟨_, _, rfl, by decide, by decide⟩
  | num q =>
    obtain ⟨some_char, chars⟩ := n.write_chars q writable
    obtain ⟨c, rest, same⟩ := List.exists_cons_of_ne_nil some_char
    have digit : ∀ c ∈ numberChars, c ∉ blanks ∧ c ≠ ']' := by simp [numberChars, blanks]
    exact ⟨c, rest, same, digit c (chars c (same ▸ List.mem_cons_self))⟩
  | str s => exact ⟨_, _, rfl, by decide, by decide⟩
  | arr items => exact ⟨_, _, rfl, by decide, by decide⟩
  | obj members => exact ⟨_, _, rfl, by decide, by decide⟩

theorem skip_write {v : Value} (writable : Writable n v) (rest : List Char) :
    skip (write n v ++ rest) = write n v ++ rest := by
  obtain ⟨c, cs, same, solid, _⟩ := write_head writable
  rw [same, List.cons_append, skip_cons _ solid]

/-- What is written is read back with this fuel, where it is longer than the text. -/
structure ReadsBack (n : Numbers) (fuel : Nat) : Prop where
  value : ∀ v, Writable n v → ∀ rest, Stops rest → (write n v).length < fuel →
    readValue n fuel (write n v ++ rest) = some (v, rest)
  items : ∀ v vs, Writable n v → WritableItems n vs → ∀ rest,
    (write n v).length + (writeMoreItems n vs).length + 1 < fuel →
    readItems n fuel (write n v ++ (writeMoreItems n vs ++ ']' :: rest)) = some (v :: vs, rest)
  members : ∀ name v ms, Writable n v → WritableMembers n ms → ∀ rest,
    (writeText name).length + (write n v).length + (writeMoreMembers n ms).length + 2 < fuel →
    readMembers n fuel ('"' :: (writeText name ++ ':' ::
      (write n v ++ (writeMoreMembers n ms ++ '\x7d' :: rest)))) = some ((name, v) :: ms, rest)

theorem readValue_number {fuel : Nat} {q : Rat} (exact_q : n.exact q) {rest : List Char}
    (stops : Stops rest) : readValue n (fuel + 1) (n.write q ++ rest) = some (.num q, rest) := by
  rw [← readNumber_write exact_q stops]
  obtain ⟨some_char, chars⟩ := n.write_chars q exact_q
  obtain ⟨c, cs, same⟩ := List.exists_cons_of_ne_nil some_char
  have digit := chars c (same ▸ List.mem_cons_self)
  rw [same, List.cons_append]
  simp only [numberChars, List.mem_cons, List.not_mem_nil, or_false] at digit
  rcases digit with rfl | rfl | rfl | rfl | rfl | rfl | rfl | rfl | rfl | rfl | rfl | rfl | rfl |
    rfl | rfl <;> rfl

theorem readName_write (name : String) {v : Value} (writable : Writable n v) (rest : List Char) :
    readName ('"' :: (writeText name ++ ':' :: (write n v ++ rest))) =
      some (name, write n v ++ rest) := by
  simp only [readName, readText_writeText, skip_cons _ (show ':' ∉ blanks by decide),
    skip_write writable, String.ofList_toList]

theorem items_step {fuel : Nat} (shorter : ReadsBack n fuel) (v : Value) (vs : List Value)
    (writable : Writable n v) (later : WritableItems n vs) (rest : List Char)
    (enough : (write n v).length + (writeMoreItems n vs).length + 1 < fuel + 1) :
    readItems n (fuel + 1) (write n v ++ (writeMoreItems n vs ++ ']' :: rest)) =
      some (v :: vs, rest) := by
  cases vs with
  | nil =>
    have first := shorter.value v writable (']' :: rest) (stops_cons _ (by decide)) (by omega)
    simp only [writeMoreItems, List.nil_append, readItems, first,
      skip_cons _ (show ']' ∉ blanks by decide)]
  | cons w ws =>
    rw [writeMoreItems, List.length_cons, List.length_append] at enough
    have behind : writeMoreItems n (w :: ws) ++ ']' :: rest =
        ',' :: (write n w ++ (writeMoreItems n ws ++ ']' :: rest)) := by
      rw [writeMoreItems, List.cons_append, List.append_assoc]
    have first := shorter.value v writable
      (',' :: (write n w ++ (writeMoreItems n ws ++ ']' :: rest)))
      (stops_cons _ (by decide)) (by omega)
    have second := shorter.items w ws later.1 later.2 rest (by omega)
    rw [behind]
    simp only [readItems, first, skip_cons _ (show ',' ∉ blanks by decide), skip_write later.1,
      second, Option.map_some]

theorem members_step {fuel : Nat} (shorter : ReadsBack n fuel) (name : String) (v : Value)
    (ms : List (String × Value)) (writable : Writable n v) (later : WritableMembers n ms)
    (rest : List Char)
    (enough : (writeText name).length + (write n v).length + (writeMoreMembers n ms).length + 2 <
      fuel + 1) :
    readMembers n (fuel + 1) ('"' :: (writeText name ++ ':' ::
      (write n v ++ (writeMoreMembers n ms ++ '\x7d' :: rest)))) = some ((name, v) :: ms, rest) := by
  cases ms with
  | nil =>
    have first := shorter.value v writable ('\x7d' :: rest) (stops_cons _ (by decide)) (by omega)
    simp only [writeMoreMembers, List.nil_append, readMembers, readName_write name writable, first,
      skip_cons _ (show '\x7d' ∉ blanks by decide)]
  | cons m ms =>
    obtain ⟨other, w⟩ := m
    simp only [writeMoreMembers, List.length_cons, List.length_append] at enough
    have behind : writeMoreMembers n ((other, w) :: ms) ++ '\x7d' :: rest =
        ',' :: '"' :: (writeText other ++ ':' ::
          (write n w ++ (writeMoreMembers n ms ++ '\x7d' :: rest))) := by
      simp only [writeMoreMembers, List.cons_append, List.append_assoc]
    have first := shorter.value v writable
      (',' :: '"' :: (writeText other ++ ':' ::
        (write n w ++ (writeMoreMembers n ms ++ '\x7d' :: rest))))
      (stops_cons _ (by decide)) (by omega)
    have second := shorter.members other w ms later.1 later.2 rest (by omega)
    rw [behind]
    simp only [readMembers, readName_write name writable, first,
      skip_cons _ (show ',' ∉ blanks by decide), skip_cons _ (show '"' ∉ blanks by decide), second,
      Option.map_some]

theorem value_step {fuel : Nat} (shorter : ReadsBack n fuel) (v : Value) (writable : Writable n v)
    (rest : List Char) (stops : Stops rest) (enough : (write n v).length < fuel + 1) :
    readValue n (fuel + 1) (write n v ++ rest) = some (v, rest) := by
  cases v with
  | null => rfl
  | bool b => cases b <;> rfl
  | num q => exact readValue_number writable stops
  | str s =>
    simp only [write, List.cons_append, readValue, readText_writeText, Option.map_some,
      String.ofList_toList]
  | arr items =>
    cases items with
    | nil => rfl
    | cons v vs =>
      obtain ⟨first, later⟩ := writable
      obtain ⟨c, cs, same, _, open_⟩ := write_head first
      simp only [write, writeItems, List.length_cons, List.length_append, List.length_nil]
        at enough
      have inside := shorter.items v vs first later rest (by omega)
      have text : write n (.arr (v :: vs)) ++ rest =
          '[' :: (write n v ++ (writeMoreItems n vs ++ ']' :: rest)) := by
        simp only [write, writeItems, List.cons_append, List.append_assoc, List.nil_append]
      have head : (write n v ++ (writeMoreItems n vs ++ ']' :: rest)).head? ≠ some ']' := by
        rw [same, List.cons_append, List.head?_cons]
        exact fun closing => open_ (Option.some.inj closing)
      rw [text]
      simp only [readValue, skip_write first, if_neg head, inside, Option.map_some]
  | obj members =>
    cases members with
    | nil => rfl
    | cons m ms =>
      obtain ⟨name, v⟩ := m
      obtain ⟨distinct, first, later⟩ := writable
      simp only [write, writeMembers, List.length_cons, List.length_append, List.length_nil]
        at enough
      have inside := shorter.members name v ms first later rest (by omega)
      have text : write n (.obj ((name, v) :: ms)) ++ rest =
          '\x7b' :: '"' :: (writeText name ++ ':' ::
            (write n v ++ (writeMoreMembers n ms ++ '\x7d' :: rest))) := by
        simp only [write, writeMembers, List.cons_append, List.append_assoc, List.nil_append]
      have head : ∀ cs : List Char, ('"' :: cs).head? ≠ some '\x7d' := fun cs => by simp
      rw [text]
      simp only [readValue, skip_cons _ (show '"' ∉ blanks by decide), if_neg (head _), inside,
        Option.map_some, merge_distinct distinct]

theorem readsBack (n : Numbers) (fuel : Nat) : ReadsBack n fuel := by
  induction fuel with
  | zero =>
    refine ⟨?_, ?_, ?_⟩
    · intro v _ rest _ enough
      omega
    · intro v vs _ _ rest enough
      omega
    · intro name v ms _ _ rest enough
      omega
  | succ fuel shorter =>
    exact ⟨value_step shorter, items_step shorter, members_step shorter⟩

theorem loads_dumps {v : Value} (writable : Writable n v) : loads n (dumps n v) = some v := by
  have read := (readsBack n ((write n v).length + 1)).value v writable []
    (fun c first => by cases first) (Nat.lt_succ_self _)
  have kept := skip_write writable []
  rw [List.append_nil] at read kept
  simp only [loads, dumps, String.toList_ofList, kept, read]
  rfl

end JsonGrammar
