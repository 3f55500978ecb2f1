import TacticalGateway.Lib.Text

/-! Timezone-aware datetimes and their `isoformat`. The UTC offset is part of the
value, so a datetime read back from its text is the same value. -/
namespace TacticalGateway
open Text

def isLeap (year : Nat) : Bool := year % 4 == 0 && (year % 100 != 0 || year % 400 == 0)

def daysInMonth (year month : Nat) : Nat :=
  if month = 2 then (if isLeap year then 29 else 28)
  else if month = 4 ∨ month = 6 ∨ month = 9 ∨ month = 11 then 30
  else 31

/-- The fields of an aware `datetime`; `offset` is `utcoffset()` in microseconds. -/
structure DatetimeFields where
  year : Nat
  month : Nat
  day : Nat
  hour : Nat
  minute : Nat
  second : Nat
  microsecond : Nat
  offset : Int
  deriving DecidableEq, Repr

/-- The ranges that the constructors of `datetime` and `timezone` enforce. -/
def DatetimeFields.InRange (t : DatetimeFields) : Prop :=
  (1 ≤ t.year ∧ t.year ≤ 9999) ∧ (1 ≤ t.month ∧ t.month ≤ 12) ∧
  (1 ≤ t.day ∧ t.day ≤ daysInMonth t.year t.month) ∧
  t.hour < 24 ∧ t.minute < 60 ∧ t.second < 60 ∧ t.microsecond < 1000000 ∧
  t.offset.natAbs < 86400000000

instance (t : DatetimeFields) : Decidable t.InRange := by
  unfold DatetimeFields.InRange
  infer_instance

structure Datetime extends DatetimeFields where
  inRange : toDatetimeFields.InRange
  deriving DecidableEq

def newYear : Datetime := ⟨⟨2024, 1, 1, 0, 0, 0, 0, 0⟩, by decide⟩

structure Date where
  year : Nat
  month : Nat
  day : Nat
  deriving DecidableEq, Repr

def Datetime.date (t : Datetime) : Date := ⟨t.year, t.month, t.day⟩

def fractionText (microsecond : Nat) : String :=
  if microsecond = 0 then "" else "." ++ zeroPad 6 microsecond

def offsetText (offset : Int) : String :=
  let size := offset.natAbs
  let seconds := size / 1000000
  (if offset < 0 then "-" else "+") ++ zeroPad 2 (seconds / 3600) ++ ":" ++
    zeroPad 2 (seconds / 60 % 60) ++
    (if seconds % 60 = 0 ∧ size % 1000000 = 0 then ""
     else ":" ++ zeroPad 2 (seconds % 60) ++ fractionText (size % 1000000))

def Datetime.isoformat (t : Datetime) : String :=
  zeroPad 4 t.year ++ "-" ++ zeroPad 2 t.month ++ "-" ++ zeroPad 2 t.day ++ "T" ++
    zeroPad 2 t.hour ++ ":" ++ zeroPad 2 t.minute ++ ":" ++ zeroPad 2 t.second ++
    fractionText t.microsecond ++ offsetText t.offset

def isoChar (c : Char) : Bool := c.isDigit || c ∈ ['-', ':', 'T', '.', '+']

theorem isoChar_zeroPad (width n : Nat) : ∀ c ∈ (zeroPad width n).toList, isoChar c = true := by
  intro c hc
  simp [isoChar, zeroPad_isDigit hc]

theorem isoChar_fraction (n : Nat) : ∀ c ∈ (fractionText n).toList, isoChar c = true := by
  unfold fractionText
  split
  · simp
  · simp only [String.toList_append, List.forall_mem_append]
    exact ⟨by simp [isoChar], isoChar_zeroPad 6 n⟩

theorem isoChar_offset (offset : Int) : ∀ c ∈ (offsetText offset).toList, isoChar c = true := by
  have sign : ∀ c ∈ (if offset < 0 then "-" else "+" : String).toList, isoChar c = true := by
    split <;> simp [isoChar]
  have colon : ∀ c ∈ (":" : String).toList, isoChar c = true := by simp [isoChar]
  unfold offsetText
  dsimp only
  simp only [String.toList_append, List.forall_mem_append]
  refine ⟨⟨⟨⟨sign, isoChar_zeroPad _ _⟩, colon⟩, isoChar_zeroPad _ _⟩, ?_⟩
  split
  · simp
  · simp only [String.toList_append, List.forall_mem_append]
    exact ⟨⟨colon, isoChar_zeroPad _ _⟩, isoChar_fraction _⟩

theorem isoChar_isoformat (t : Datetime) : ∀ c ∈ t.isoformat.toList, isoChar c = true := by
  unfold Datetime.isoformat
  simp only [String.toList_append, List.forall_mem_append]
  exact ⟨⟨⟨⟨⟨⟨⟨⟨⟨⟨⟨⟨isoChar_zeroPad _ _, by simp [isoChar]⟩, isoChar_zeroPad _ _⟩, by simp [isoChar]⟩,
    isoChar_zeroPad _ _⟩, by simp [isoChar]⟩, isoChar_zeroPad _ _⟩, by simp [isoChar]⟩,
      isoChar_zeroPad _ _⟩,
    by simp [isoChar]⟩, isoChar_zeroPad _ _⟩, isoChar_fraction _⟩, isoChar_offset _⟩

theorem newline_not_mem_isoformat (t : Datetime) : '\n' ∉ t.isoformat.toList := by
  intro member
  exact absurd (isoChar_isoformat t _ member) (by decide)

end TacticalGateway
