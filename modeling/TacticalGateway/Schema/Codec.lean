import TacticalGateway.Schema.Manifest

/-! A codec that reads back exactly what the gateway writes: the laws of `Codec` have a model. -/
namespace TacticalGateway.Reader
open Text

def expect (literal : String) (cs : List Char) : Option (List Char) :=
  if literal.toList.isPrefixOf cs then some (cs.drop literal.toList.length) else none

theorem expect_append (literal : String) (rest : List Char) :
    expect literal (literal.toList ++ rest) = some rest := by
  simp [expect]

def readFixed (width : Nat) (cs : List Char) : Option (Nat × List Char) :=
  if (cs.take width).length = width ∧ (cs.take width).all Char.isDigit then
    some (Nat.ofDigitChars 10 (cs.take width) 0, cs.drop width)
  else none

theorem readFixed_zeroPad {width n : Nat} (positive : 0 < width) (bound : n < 10 ^ width)
    (rest : List Char) : readFixed width ((zeroPad width n).toList ++ rest) = some (n, rest) := by
  have len := zeroPad_length positive bound
  have digits : (zeroPad width n).toList.all Char.isDigit = true :=
    List.all_eq_true.mpr (fun c hc => zeroPad_isDigit hc)
  have front : ((zeroPad width n).toList ++ rest).take width = (zeroPad width n).toList := by
    rw [List.take_append_of_le_length (Nat.le_of_eq len.symm),
      List.take_of_length_le (Nat.le_of_eq len)]
  have back : ((zeroPad width n).toList ++ rest).drop width = rest := by
    exact List.drop_left' len
  rw [readFixed, front, back, if_pos ⟨len, digits⟩, zeroPad_value]

def readFraction : List Char → Option (Nat × List Char)
  | '.' :: cs => readFixed 6 cs
  | cs => some (0, cs)

theorem readFraction_text {n : Nat} (bound : n < 1000000) (rest : List Char)
    (stop : ∀ cs, rest ≠ '.' :: cs) :
    readFraction ((fractionText n).toList ++ rest) = some (n, rest) := by
  unfold fractionText
  by_cases zero : n = 0
  · rw [if_pos zero]
    subst zero
    cases rest with
    | nil => rfl
    | cons c cs =>
      have dot : c ≠ '.' := fun h => stop cs (h ▸ rfl)
      simp [readFraction]
  · rw [if_neg zero]
    have text : ("." ++ zeroPad 6 n).toList ++ rest = '.' :: ((zeroPad 6 n).toList ++ rest) := by
      simp [String.toList_append]
    rw [text]
    exact readFixed_zeroPad (by decide) bound rest

def readSeconds : List Char → Option (Nat × Nat)
  | [] => some (0, 0)
  | ':' :: cs => do
    let (second, cs) ← readFixed 2 cs
    let (micro, cs) ← readFraction cs
    if cs = [] then some (second, micro) else none
  | _ => none

def readSign : List Char → Option (Bool × List Char)
  | '-' :: cs => some (true, cs)
  | '+' :: cs => some (false, cs)
  | _ => none

def readSize (cs : List Char) : Option Nat := do
  let (hour, cs) ← readFixed 2 cs
  let cs ← expect ":" cs
  let (minute, cs) ← readFixed 2 cs
  let (second, micro) ← readSeconds cs
  return ((hour * 60 + minute) * 60 + second) * 1000000 + micro

def readOffset (cs : List Char) : Option Int := do
  let (negative, cs) ← readSign cs
  let size ← readSize cs
  return if negative then -(size : Int) else size

theorem readSeconds_text {second micro : Nat} (hs : second < 60) (hm : micro < 1000000) :
    readSeconds (if second = 0 ∧ micro = 0 then ""
      else ":" ++ zeroPad 2 second ++ fractionText micro : String).toList =
        some (second, micro) := by
  by_cases zero : second = 0 ∧ micro = 0
  · rw [if_pos zero, zero.1, zero.2]
    rfl
  · rw [if_neg zero]
    have text : (":" ++ zeroPad 2 second ++ fractionText micro).toList =
        ':' :: ((zeroPad 2 second).toList ++ ((fractionText micro).toList ++ [])) := by
      simp [String.toList_append]
    rw [text]
    simp only [readSeconds, readFixed_zeroPad (by decide) (show second < 10 ^ 2 by omega),
      readFraction_text hm [] (by simp), Option.bind_eq_bind, Option.bind_some, if_true]

theorem readSize_text {size : Nat} (bound : size < 86400000000) :
    readSize ((zeroPad 2 (size / 1000000 / 3600)).toList ++ ((":" : String).toList ++
      ((zeroPad 2 (size / 1000000 / 60 % 60)).toList ++
        (if size / 1000000 % 60 = 0 ∧ size % 1000000 = 0 then ""
         else ":" ++ zeroPad 2 (size / 1000000 % 60) ++ fractionText (size % 1000000) :
           String).toList)))
      = some size := by
  have hour : size / 1000000 / 3600 < 10 ^ 2 := by omega
  have minute : size / 1000000 / 60 % 60 < 10 ^ 2 := by omega
  have second : size / 1000000 % 60 < 60 := by omega
  have micro : size % 1000000 < 1000000 := by omega
  have total : ((size / 1000000 / 3600 * 60 + size / 1000000 / 60 % 60) * 60 +
      size / 1000000 % 60) * 1000000 + size % 1000000 = size := by omega
  simp only [readSize, Option.bind_eq_bind, Option.bind_some, readFixed_zeroPad (by decide) hour,
    expect_append, readFixed_zeroPad (by decide) minute, readSeconds_text second micro,
    Option.pure_def, total]

theorem readOffset_minus (cs : List Char) {size : Nat} (h : readSize cs = some size) :
    readOffset (("-" : String).toList ++ cs) = some (-(size : Int)) := by
  have sign : readSign (("-" : String).toList ++ cs) = some (true, cs) := rfl
  simp only [readOffset, sign, h, Option.bind_eq_bind, Option.bind_some, if_true, Option.pure_def]

theorem readOffset_plus (cs : List Char) {size : Nat} (h : readSize cs = some size) :
    readOffset (("+" : String).toList ++ cs) = some (size : Int) := by
  have sign : readSign (("+" : String).toList ++ cs) = some (false, cs) := rfl
  simp only [readOffset, sign, h, Option.bind_eq_bind, Option.bind_some, Bool.false_eq_true,
    if_false, Option.pure_def]

theorem readOffset_text {offset : Int} (bound : offset.natAbs < 86400000000) :
    readOffset (offsetText offset).toList = some offset := by
  have size := readSize_text bound
  unfold offsetText
  by_cases negative : offset < 0
  · have value : -(offset.natAbs : Int) = offset := by omega
    simp only [if_pos negative, String.toList_append, List.append_assoc]
    rw [readOffset_minus _ size, value]
  · have value : (offset.natAbs : Int) = offset := by omega
    simp only [if_neg negative, String.toList_append, List.append_assoc]
    rw [readOffset_plus _ size, value]

def readDate (cs : List Char) : Option ((Nat × Nat × Nat) × List Char) := do
  let (year, cs) ← readFixed 4 cs
  let cs ← expect "-" cs
  let (month, cs) ← readFixed 2 cs
  let cs ← expect "-" cs
  let (day, cs) ← readFixed 2 cs
  return ((year, month, day), cs)

def readTime (cs : List Char) : Option ((Nat × Nat × Nat) × List Char) := do
  let (hour, cs) ← readFixed 2 cs
  let cs ← expect ":" cs
  let (minute, cs) ← readFixed 2 cs
  let cs ← expect ":" cs
  let (second, cs) ← readFixed 2 cs
  return ((hour, minute, second), cs)

def fromisoformat (s : String) : Option Datetime := do
  let ((year, month, day), cs) ← readDate s.toList
  let cs ← expect "T" cs
  let ((hour, minute, second), cs) ← readTime cs
  let (microsecond, cs) ← readFraction cs
  let offset ← readOffset cs
  let fields : DatetimeFields := ⟨year, month, day, hour, minute, second, microsecond, offset⟩
  if h : fields.InRange then some ⟨fields, h⟩ else none

theorem readDate_text {year month day : Nat} (hy : year < 10 ^ 4) (hm : month < 10 ^ 2)
    (hd : day < 10 ^ 2) (rest : List Char) :
    readDate ((zeroPad 4 year).toList ++ (("-" : String).toList ++ ((zeroPad 2 month).toList ++
      (("-" : String).toList ++ ((zeroPad 2 day).toList ++ rest))))) =
      some ((year, month, day), rest) := by
  simp only [readDate, Option.bind_eq_bind, Option.bind_some, readFixed_zeroPad (by decide) hy,
    readFixed_zeroPad (by decide) hm, readFixed_zeroPad (by decide) hd, expect_append,
    Option.pure_def]

theorem readTime_text {hour minute second : Nat} (hh : hour < 10 ^ 2) (hm : minute < 10 ^ 2)
    (hs : second < 10 ^ 2) (rest : List Char) :
    readTime ((zeroPad 2 hour).toList ++ ((":" : String).toList ++ ((zeroPad 2 minute).toList ++
      ((":" : String).toList ++ ((zeroPad 2 second).toList ++ rest))))) =
      some ((hour, minute, second), rest) := by
  simp only [readTime, Option.bind_eq_bind, Option.bind_some, readFixed_zeroPad (by decide) hh,
    readFixed_zeroPad (by decide) hm, readFixed_zeroPad (by decide) hs, expect_append,
    Option.pure_def]

theorem fromisoformat_isoformat (t : Datetime) : fromisoformat t.isoformat = some t := by
  obtain ⟨year, month, day, hour, minute, second, micro, offset⟩ := t.inRange
  have long : daysInMonth t.year t.month ≤ 31 := by
    unfold daysInMonth
    split
    · split <;> omega
    · split <;> omega
  have sign : ∀ cs, (offsetText t.offset).toList ≠ '.' :: cs := by
    intro cs
    unfold offsetText
    split <;> simp [String.toList_append]
  have text : t.isoformat.toList = (zeroPad 4 t.year).toList ++ (("-" : String).toList ++
      ((zeroPad 2 t.month).toList ++ (("-" : String).toList ++ ((zeroPad 2 t.day).toList ++
      (("T" : String).toList ++ ((zeroPad 2 t.hour).toList ++ ((":" : String).toList ++
      ((zeroPad 2 t.minute).toList ++ ((":" : String).toList ++ ((zeroPad 2 t.second).toList ++
      ((fractionText t.microsecond).toList ++ (offsetText t.offset).toList))))))))))) := by
    simp only [Datetime.isoformat, String.toList_append, List.append_assoc]
  rw [fromisoformat, text,
    readDate_text (show t.year < 10 ^ 4 by omega) (show t.month < 10 ^ 2 by omega)
      (show t.day < 10 ^ 2 by omega)]
  simp only [Option.bind_eq_bind, Option.bind_some, expect_append,
    readTime_text (show t.hour < 10 ^ 2 by omega) (show t.minute < 10 ^ 2 by omega)
      (show t.second < 10 ^ 2 by omega),
    readFraction_text micro _ sign, readOffset_text offset, dif_pos t.inRange]

def readDigits (cs : List Char) : Nat × List Char :=
  (Nat.ofDigitChars 10 (cs.takeWhile Char.isDigit) 0, cs.dropWhile Char.isDigit)

theorem readDigits_decimal (n : Nat) (c : Char) (rest : List Char) (stop : c.isDigit = false) :
    readDigits ((decimal n).toList ++ c :: rest) = (n, c :: rest) := by
  have digits : ∀ d ∈ (decimal n).toList, d.isDigit = true := fun d hd => decimal_isDigit hd
  rw [readDigits, List.takeWhile_append_of_pos digits, List.dropWhile_append_of_pos digits,
    List.takeWhile_cons_of_neg (by simp [stop]), List.dropWhile_cons_of_neg (by simp [stop]),
    List.append_nil, decimal_value]

def loads (s : String) : Option EntryFields := do
  let cs ← expect "\x7b\"sha256\":\"" s.toList
  let (sha256, cs) ← Json.readString cs
  let cs ← expect ",\"prev_hash\":\"" cs
  let (prevHash, cs) ← Json.readString cs
  let cs ← expect ",\"entry_hash\":\"" cs
  let (entryHash, cs) ← Json.readString cs
  let cs ← expect ",\"captured_at\":\"" cs
  let (capturedAt, cs) ← Json.readString cs
  let cs ← expect ",\"object_key\":\"" cs
  let (objectKey, cs) ← Json.readString cs
  let cs ← expect ",\"size_bytes\":" cs
  let (sizeBytes, cs) := readDigits cs
  let cs ← expect ",\"protocol\":\"" cs
  let (protocol, cs) ← Json.readString cs
  let _ ← expect "\x7d" cs
  some ⟨String.ofList sha256, String.ofList prevHash, String.ofList entryHash,
    String.ofList capturedAt, String.ofList objectKey, sizeBytes, String.ofList protocol⟩

theorem loads_jsonDumps (d : EntryFields) : loads (jsonDumps d) = some d := by
  have number (rest : List Char) :
      readDigits ((decimal d.sizeBytes).toList ++ ((",\"protocol\":\"" : String).toList ++ rest)) =
        (d.sizeBytes, (",\"protocol\":\"" : String).toList ++ rest) :=
    readDigits_decimal _ ',' _ (by decide)
  have closing : expect "\x7d" ("\x7d" : String).toList = some [] := by
    simpa using expect_append "\x7d" []
  unfold loads jsonDumps
  simp only [String.toList_append, List.append_assoc, Option.bind_eq_bind, Option.bind_some,
    expect_append, Json.readString_quoted, number, closing, String.ofList_toList]

def codec : Codec :=
  { loads := loads
    fromisoformat := fromisoformat
    loads_dumps := loads_jsonDumps
    fromisoformat_isoformat := fromisoformat_isoformat }

end TacticalGateway.Reader
