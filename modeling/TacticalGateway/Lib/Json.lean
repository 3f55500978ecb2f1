import TacticalGateway.Lib.Text

/-! JSON strings as `json.dumps` writes them by default (`ensure_ascii`), and a reader
that undoes it. Every character outside the printable ASCII range is escaped, so a dumped
string never spans two lines. -/
namespace Json
open Text

/-- A decoded JSON value. Numbers are exact. -/
inductive Value where
  | null
  | bool (b : Bool)
  | num (q : Rat)
  | str (s : String)
  | arr (items : List Value)
  | obj (members : List (String × Value))

def Value.truthy : Value → Bool
  | .null => false
  | .bool b => b
  | .num q => q != 0
  | .str s => s != ""
  | .arr items => !items.isEmpty
  | .obj members => !members.isEmpty

def hex4 (n : Nat) : List Char :=
  [hexDigit (n / 4096 % 16), hexDigit (n / 256 % 16), hexDigit (n / 16 % 16), hexDigit (n % 16)]

def unicodeEscape (n : Nat) : List Char := '\\' :: 'u' :: hex4 n

def printable (c : Char) : Bool := 32 ≤ c.toNat && c.toNat ≤ 126

def escapeChar (c : Char) : List Char :=
  if c = '"' then ['\\', '"']
  else if c = '\\' then ['\\', '\\']
  else if c = '\n' then ['\\', 'n']
  else if c = '\r' then ['\\', 'r']
  else if c = '\t' then ['\\', 't']
  else if c = '\x0c' then ['\\', 'f']
  else if c = '\x08' then ['\\', 'b']
  else if printable c then [c]
  else if c.toNat < 0x10000 then unicodeEscape c.toNat
  else unicodeEscape (0xD800 + (c.toNat - 0x10000) / 1024) ++
    unicodeEscape (0xDC00 + (c.toNat - 0x10000) % 1024)

def escape (cs : List Char) : List Char := cs.flatMap escapeChar

/-- `json.dumps` of a string, without the opening quote. -/
def quoted (s : String) : String := String.ofList (escape s.toList) ++ "\""

theorem printable_hexDigit (n : Nat) : printable (hexDigit n) = true := by
  have all : ∀ c ∈ hexDigits, printable c = true := by simp [hexDigits, printable]
  exact all _ (hexDigit_mem n)

theorem printable_unicodeEscape (n : Nat) : ∀ c ∈ unicodeEscape n, printable c = true := by
  intro c hc
  simp only [unicodeEscape, hex4, List.mem_cons, List.not_mem_nil, or_false] at hc
  rcases hc with rfl | rfl | rfl | rfl | rfl | rfl
  · simp [printable]
  · simp [printable]
  all_goals exact printable_hexDigit _

theorem printable_escapeChar (c : Char) : ∀ d ∈ escapeChar c, printable d = true := by
  unfold escapeChar
  iterate 7
    split
    · simp [printable]
  split
  · rename_i plain
    simpa using plain
  split
  · exact printable_unicodeEscape _
  · rw [List.forall_mem_append]
    exact ⟨printable_unicodeEscape _, printable_unicodeEscape _⟩

theorem printable_quoted (s : String) : ∀ c ∈ (quoted s).toList, printable c = true := by
  rw [quoted, String.toList_append, String.toList_ofList, List.forall_mem_append]
  refine ⟨?_, by simp [printable]⟩
  intro c hc
  obtain ⟨d, _, hd⟩ := List.mem_flatMap.mp hc
  exact printable_escapeChar d c hd

theorem singleLine_of_printable {s : String} (h : ∀ c ∈ s.toList, printable c = true) :
    SingleLine s := by
  have breaks : ∀ c ∈ lineBreaks, printable c = false := by simp [lineBreaks, printable]
  intro c hc member
  have yes := h c hc
  rw [breaks c member] at yes
  exact Bool.noConfusion yes

def hexValue (c : Char) : Option Nat := hexDigits.findIdx? (· == c)

def hex4Value (a b c d : Char) : Option Nat := do
  let a ← hexValue a
  let b ← hexValue b
  let c ← hexValue c
  let d ← hexValue d
  return a * 4096 + b * 256 + c * 16 + d

/-- The character of a two-character escape. -/
def unescape (c : Char) : Option Char :=
  if c = '"' ∨ c = '\\' ∨ c = '/' then some c
  else if c = 'n' then some '\n'
  else if c = 'r' then some '\r'
  else if c = 't' then some '\t'
  else if c = 'f' then some '\x0c'
  else if c = 'b' then some '\x08'
  else none

/-- Read up to the closing quote; the rest of the input is returned with the text. -/
def readString : List Char → Option (List Char × List Char)
  | [] => none
  | '"' :: rest => some ([], rest)
  | '\\' :: 'u' :: a :: b :: c :: d :: rest =>
    match hex4Value a b c d with
    | none => none
    | some high =>
      if 0xD800 ≤ high ∧ high < 0xDC00 then
        match rest with
        | '\\' :: 'u' :: a :: b :: c :: d :: rest =>
          match hex4Value a b c d with
          | none => none
          | some low => (readString rest).map (fun r =>
              (Char.ofNat (0x10000 + (high - 0xD800) * 1024 + (low - 0xDC00)) :: r.1, r.2))
        | _ => none
      else (readString rest).map (fun r => (Char.ofNat high :: r.1, r.2))
  | '\\' :: e :: rest =>
    match unescape e with
    | none => none
    | some c => (readString rest).map (fun r => (c :: r.1, r.2))
  | c :: rest => (readString rest).map (fun r => (c :: r.1, r.2))

theorem hexValue_hexDigit {n : Nat} (h : n < 16) : hexValue (hexDigit n) = some n := by
  have all : ∀ n < 16, hexValue (hexDigit n) = some n := by decide
  exact all n h

theorem hex4Value_hex4 {n : Nat} (h : n < 65536) :
    hex4Value (hexDigit (n / 4096 % 16)) (hexDigit (n / 256 % 16)) (hexDigit (n / 16 % 16))
      (hexDigit (n % 16)) = some n := by
  have digit (k : Nat) : hexValue (hexDigit (k % 16)) = some (k % 16) :=
    hexValue_hexDigit (Nat.mod_lt _ (by decide))
  simp only [hex4Value, digit, Option.bind_eq_bind, Option.bind_some, Option.pure_def]
  congr 1
  omega

theorem not_surrogate (c : Char) : c.toNat < 0xD800 ∨ (0xDFFF < c.toNat ∧ c.toNat < 0x110000) :=
  c.valid

theorem readString_unicodeEscape {c : Char} (small : c.toNat < 0x10000) (rest : List Char) :
    readString (unicodeEscape c.toNat ++ rest) =
      (readString rest).map (fun r => (c :: r.1, r.2)) := by
  have outside : ¬ (0xD800 ≤ c.toNat ∧ c.toNat < 0xDC00) := by
    rcases not_surrogate c with low | high <;> omega
  simp only [unicodeEscape, hex4, List.cons_append, List.nil_append, readString,
    hex4Value_hex4 small, if_neg outside, Char.ofNat_toNat]

theorem readString_surrogates {c : Char} (large : ¬ c.toNat < 0x10000) (rest : List Char) :
    readString ((unicodeEscape (0xD800 + (c.toNat - 0x10000) / 1024) ++
        unicodeEscape (0xDC00 + (c.toNat - 0x10000) % 1024)) ++ rest) =
      (readString rest).map (fun r => (c :: r.1, r.2)) := by
  have bound : c.toNat < 0x110000 := by
    rcases not_surrogate c with low | high <;> omega
  have high_ok : 0xD800 ≤ 0xD800 + (c.toNat - 0x10000) / 1024 ∧
      0xD800 + (c.toNat - 0x10000) / 1024 < 0xDC00 := by omega
  have whole : 0x10000 + (0xD800 + (c.toNat - 0x10000) / 1024 - 0xD800) * 1024 +
      (0xDC00 + (c.toNat - 0x10000) % 1024 - 0xDC00) = c.toNat := by omega
  have first := hex4Value_hex4 (n := 0xD800 + (c.toNat - 0x10000) / 1024) (by omega)
  have second := hex4Value_hex4 (n := 0xDC00 + (c.toNat - 0x10000) % 1024) (by omega)
  simp only [unicodeEscape, hex4, List.cons_append, List.nil_append, readString,
    first, second, if_pos high_ok, whole, Char.ofNat_toNat]

theorem readString_escapeChar (c : Char) (rest : List Char) :
    readString (escapeChar c ++ rest) = (readString rest).map (fun r => (c :: r.1, r.2)) := by
  unfold escapeChar
  iterate 7
    split
    · subst_vars
      simp [readString, unescape]
  split
  · rename_i quote slash _ _ _ _ _ _
    rw [List.cons_append, List.nil_append, readString.eq_def]
    split <;> simp_all
  split
  · rename_i small
    exact readString_unicodeEscape small rest
  · rename_i large
    exact readString_surrogates large rest

theorem readString_escape (cs rest : List Char) :
    readString (escape cs ++ '"' :: rest) = some (cs, rest) := by
  induction cs with
  | nil => simp [escape, readString]
  | cons c cs ih =>
    have step := readString_escapeChar c (escape cs ++ '"' :: rest)
    rw [ih] at step
    simpa [escape, List.append_assoc] using step

theorem readString_quoted (s : String) (rest : List Char) :
    readString ((quoted s).toList ++ rest) = some (s.toList, rest) := by
  have text : (quoted s).toList ++ rest = escape s.toList ++ '"' :: rest := by
    simp [quoted, String.toList_append]
  rw [text, readString_escape]

end Json
