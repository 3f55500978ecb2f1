import TacticalGateway.Schema.Datetime

/-! Instants, in microseconds from 1970-01-01T00:00:00Z, and the datetime of an instant in a zone.
The conversions between dates and ordinals are those of Python's `datetime` module. -/
namespace TacticalGateway

def daysBeforeYear (year : Nat) : Nat :=
  let y := year - 1
  y * 365 + y / 4 - y / 100 + y / 400

def daysBeforeMonthTable : List Nat := [0, 31, 59, 90, 120, 151, 181, 212, 243, 273, 304, 334]

def leapDay (month : Nat) (leap : Bool) : Nat := if 2 < month && leap then 1 else 0

def daysBeforeMonth (month : Nat) (leap : Bool) : Nat :=
  daysBeforeMonthTable.getD (month - 1) 0 + leapDay month leap

def ymd2ord (year month day : Nat) : Nat :=
  daysBeforeYear year + daysBeforeMonth month (isLeap year) + day

/-- Month and day of a day of the year, counted from zero. -/
def monthDay (n : Nat) (leap : Bool) : Nat × Nat :=
  let month := (n + 50) / 32
  if n < daysBeforeMonth month leap then (month - 1, n - daysBeforeMonth (month - 1) leap + 1)
  else (month, n - daysBeforeMonth month leap + 1)

def ord2ymd (ordinal : Nat) : Nat × Nat × Nat :=
  let n := ordinal - 1
  let n400 := n / 146097
  let n100 := n % 146097 / 36524
  let n4 := n % 146097 % 36524 / 1461
  let n1 := n % 146097 % 36524 % 1461 / 365
  let year := n400 * 400 + 1 + n100 * 100 + n4 * 4 + n1
  if n1 = 4 ∨ n100 = 4 then (year - 1, 12, 31)
  else
    let (month, day) :=
      monthDay (n % 146097 % 36524 % 1461 % 365) (n1 == 3 && (n4 != 24 || n100 == 3))
    (year, month, day)

theorem monthDay_spec : ∀ leap : Bool, ∀ n < 365 + leap.toNat,
    (1 ≤ (monthDay n leap).1 ∧ (monthDay n leap).1 ≤ 12) ∧ 1 ≤ (monthDay n leap).2 ∧
    daysBeforeMonth (monthDay n leap).1 leap + (monthDay n leap).2 = n + 1 ∧
    (monthDay n leap).2 ≤ (if (monthDay n leap).1 = 2 then (if leap then 29 else 28)
      else if (monthDay n leap).1 = 4 ∨ (monthDay n leap).1 = 6 ∨ (monthDay n leap).1 = 9 ∨
        (monthDay n leap).1 = 11 then 30
      else 31) := by
  decide +kernel

theorem isLeap_cycle (a b c d : Nat) (hb : b ≤ 3) (hc : c ≤ 24) (hd : d ≤ 3) :
    isLeap (a * 400 + 1 + b * 100 + c * 4 + d) = (d == 3 && (c != 24 || b == 3)) := by
  rw [Bool.eq_iff_iff]
  simp only [isLeap, Bool.and_eq_true, Bool.or_eq_true, beq_iff_eq, bne_iff_ne]
  omega

theorem daysBeforeYear_cycle (a b c d : Nat) (hb : b ≤ 3) (hc : c ≤ 24) (hd : d ≤ 3) :
    daysBeforeYear (a * 400 + 1 + b * 100 + c * 4 + d) =
      a * 146097 + b * 36524 + c * 1461 + d * 365 := by
  simp only [daysBeforeYear]
  omega

/-- A date of the calendar with the given ordinal. -/
structure DateOf (ordinal year month day : Nat) : Prop where
  ordinal_eq : ymd2ord year month day = ordinal
  year_pos : 1 ≤ year
  month_range : 1 ≤ month ∧ month ≤ 12
  day_range : 1 ≤ day ∧ day ≤ daysInMonth year month

theorem last_day (n a b c : Nat) (hb : b ≤ 3) (hc : c ≤ 24) (leap : c ≠ 24 ∨ b = 3)
    (total : n = a * 146097 + b * 36524 + c * 1461 + 1460) :
    DateOf (n + 1) (a * 400 + 1 + b * 100 + c * 4 + 3) 12 31 := by
  have december : daysBeforeMonth 12 true = 335 := rfl
  have long : isLeap (a * 400 + 1 + b * 100 + c * 4 + 3) = true := by
    rw [isLeap_cycle a b c 3 hb hc (Nat.le_refl 3)]
    simpa using leap
  refine ⟨?_, by omega, by omega, ?_⟩
  · rw [ymd2ord, daysBeforeYear_cycle a b c 3 hb hc (Nat.le_refl 3), long, december]
    omega
  · simp [daysInMonth]

theorem day_within {n year r : Nat} (start : n = daysBeforeYear year + r)
    (room : r < 365 + (isLeap year).toNat) (positive : 1 ≤ year) :
    DateOf (n + 1) year (monthDay r (isLeap year)).1 (monthDay r (isLeap year)).2 := by
  obtain ⟨month, first, same, last⟩ := monthDay_spec (isLeap year) r room
  refine ⟨?_, positive, month, first, last⟩
  rw [ymd2ord]
  omega

theorem ord2ymd_spec (ordinal : Nat) (positive : 1 ≤ ordinal) :
    DateOf ordinal (ord2ymd ordinal).1 (ord2ymd ordinal).2.1 (ord2ymd ordinal).2.2 := by
  obtain ⟨n, rfl⟩ : ∃ n, ordinal = n + 1 := ⟨ordinal - 1, by omega⟩
  simp only [ord2ymd, Nat.add_sub_cancel]
  generalize ha : n / 146097 = a
  generalize hb : n % 146097 / 36524 = b
  generalize hc : n % 146097 % 36524 / 1461 = c
  generalize hd : n % 146097 % 36524 % 1461 / 365 = d
  generalize hr : n % 146097 % 36524 % 1461 % 365 = r
  split
  · rename_i edge
    rcases edge with year_end | century_end
    · -- the last day of a leap year of the four year cycle
      have shape : a * 400 + 1 + b * 100 + c * 4 + d - 1 = a * 400 + 1 + b * 100 + c * 4 + 3 := by
        omega
      simp only [shape]
      exact last_day n a b c (by omega) (by omega) (by omega) (by omega)
    · -- the last day of the four hundred year cycle
      have shape : a * 400 + 1 + b * 100 + c * 4 + d - 1 = a * 400 + 1 + 3 * 100 + 24 * 4 + 3 := by
        omega
      simp only [shape]
      exact last_day n a 3 24 (by omega) (by omega) (by omega) (by omega)
  · rename_i inside
    have b_small : b ≤ 3 := by omega
    have c_small : c ≤ 24 := by omega
    have d_small : d ≤ 3 := by omega
    have total : n = a * 146097 + b * 36524 + c * 1461 + d * 365 + r := by omega
    have leap := isLeap_cycle a b c d b_small c_small d_small
    have years := daysBeforeYear_cycle a b c d b_small c_small d_small
    have room : r < 365 + (isLeap (a * 400 + 1 + b * 100 + c * 4 + d)).toNat := by
      rw [leap]
      by_cases last : d = 3 ∧ (c ≠ 24 ∨ b = 3)
      · have flag : (d == 3 && (c != 24 || b == 3)) = true := by simpa using last
        rw [flag, Bool.toNat_true]
        omega
      · omega
    have date := day_within (n := n) (by omega) room (by omega)
    rwa [leap] at date

theorem isLeap_eq_true_iff (year : Nat) :
    isLeap year = true ↔ year % 4 = 0 ∧ (year % 100 ≠ 0 ∨ year % 400 = 0) := by
  simp [isLeap]

theorem daysBeforeYear_succ (y : Nat) :
    daysBeforeYear (y + 2) = daysBeforeYear (y + 1) + 365 + (isLeap (y + 1)).toNat := by
  have fours : (y + 1) / 4 = y / 4 + if (y + 1) % 4 = 0 then 1 else 0 := by split <;> omega
  have hundreds : (y + 1) / 100 = y / 100 + if (y + 1) % 100 = 0 then 1 else 0 := by split <;> omega
  have cycles : (y + 1) / 400 = y / 400 + if (y + 1) % 400 = 0 then 1 else 0 := by split <;> omega
  have fewer : y / 100 ≤ y / 4 := by omega
  have leap := isLeap_eq_true_iff (y + 1)
  simp only [daysBeforeYear, Nat.add_one_sub_one, show y + 2 - 1 = y + 1 from rfl, fours,
    hundreds, cycles]
  cases flag : isLeap (y + 1) with
  | true =>
    obtain ⟨four, rest⟩ := leap.mp flag
    rw [Bool.toNat_true, if_pos four]
    rcases rest with plain | cycle
    · rw [if_neg plain, if_neg (by omega)]
      omega
    · rw [if_pos cycle, if_pos (by omega)]
      omega
  | false =>
    rw [flag] at leap
    rw [Bool.toNat_false]
    by_cases four : (y + 1) % 4 = 0
    · have hundred : (y + 1) % 100 = 0 := by
        by_contra plain
        exact absurd (leap.mpr ⟨four, .inl plain⟩) (by decide)
      have cycle : (y + 1) % 400 ≠ 0 :=
        fun cycle => absurd (leap.mpr ⟨four, .inr cycle⟩) (by decide)
      rw [if_pos four, if_pos hundred, if_neg cycle]
      omega
    · rw [if_neg four, if_neg (by omega), if_neg (by omega)]
      omega

theorem daysBeforeYear_mono {y z : Nat} (le : y ≤ z) :
    daysBeforeYear (y + 1) ≤ daysBeforeYear (z + 1) := by
  induction le with
  | refl => exact Nat.le_refl _
  | step _ ih =>
    rw [Nat.succ_eq_add_one, daysBeforeYear_succ]
    omega

theorem dayOfYear_le : ∀ leap : Bool, ∀ month < 13, ∀ day < 32,
    day ≤ (if month = 2 then (if leap then 29 else 28)
      else if month = 4 ∨ month = 6 ∨ month = 9 ∨ month = 11 then 30 else 31) →
    daysBeforeMonth month leap + day ≤ 365 + leap.toNat := by
  decide +kernel

theorem DateOf.year_le_iff {ordinal year month day : Nat} (h : DateOf ordinal year month day)
    (last : Nat) :
    year ≤ last ↔ ordinal ≤ daysBeforeYear (last + 1) := by
  obtain ⟨total, positive, ⟨_, month_le⟩, day_pos, day_le⟩ := h
  have month_small : day < 32 := by
    refine Nat.lt_succ_of_le (day_le.trans ?_)
    unfold daysInMonth
    split
    · split <;> omega
    · split <;> omega
  have within := dayOfYear_le (isLeap year) month (by omega) day month_small day_le
  obtain ⟨y, rfl⟩ : ∃ y, year = y + 1 := ⟨year - 1, by omega⟩
  have next := daysBeforeYear_succ y
  rw [ymd2ord] at total
  constructor
  · intro le
    have mono : daysBeforeYear (y + 2) ≤ daysBeforeYear (last + 1) := daysBeforeYear_mono le
    omega
  · intro le
    by_contra past
    have mono := daysBeforeYear_mono (show last ≤ y by omega)
    omega

def Datetime.instant (t : Datetime) : Int :=
  ((ymd2ord t.year t.month t.day : Int) - 719163) * 86400000000 +
    (((t.hour * 60 + t.minute) * 60 + t.second) * 1000000 + t.microsecond : Nat) - t.offset

def fieldsAt (ordinal time : Nat) (offset : Int) : DatetimeFields :=
  let (year, month, day) := ord2ymd ordinal
  ⟨year, month, day, time / 3600000000, time / 60000000 % 60, time / 1000000 % 60,
    time % 1000000, offset⟩

/-- The datetime of an instant in a zone with this offset; none where Python raises because the
year leaves the range. -/
def atOffset (instant offset : Int) : Option Datetime :=
  let ordinal := (instant + offset) / 86400000000 + 719163
  let fields := fieldsAt ordinal.toNat ((instant + offset) % 86400000000).toNat offset
  if h : 1 ≤ ordinal ∧ fields.InRange then some ⟨fields, h.2⟩ else none

theorem atOffset_eq_some {instant offset : Int} {t : Datetime}
    (h : atOffset instant offset = some t) :
    t.instant = instant ∧ t.offset = offset := by
  simp only [atOffset] at h
  split at h
  · rename_i legal
    cases h
    have date := ord2ymd_spec ((instant + offset) / 86400000000 + 719163).toNat (by omega)
    have ordinal := date.ordinal_eq
    refine ⟨?_, rfl⟩
    simp only [Datetime.instant, fieldsAt] at ordinal ⊢
    rw [ordinal]
    omega
  · cases h

theorem atOffset_isSome_iff {instant offset : Int} (zone : offset.natAbs < 86400000000) :
    (atOffset instant offset).isSome ↔
      -62135596800000000 ≤ instant + offset ∧ instant + offset < 253402300800000000 := by
  have last : daysBeforeYear (9999 + 1) = 3652059 := rfl
  simp only [atOffset, Option.isSome_dite]
  constructor
  · rintro ⟨positive, legal⟩
    have date := ord2ymd_spec ((instant + offset) / 86400000000 + 719163).toNat (by omega)
    have year := (date.year_le_iff 9999).mp legal.1.2
    omega
  · intro bounds
    have positive : 1 ≤ (instant + offset) / 86400000000 + 719163 := by omega
    have date := ord2ymd_spec ((instant + offset) / 86400000000 + 719163).toNat (by omega)
    refine ⟨positive, ⟨date.year_pos, ?_⟩, date.month_range, date.day_range, ?_, ?_, ?_, ?_, zone⟩
    · exact (date.year_le_iff 9999).mpr (by omega)
    all_goals
      simp only [fieldsAt]
      omega

/-- What `datetime.fromisoformat` returns: aware, or the wall clock of a naive datetime, here as
if it were in UTC. -/
inductive Timestamp where
  | aware (t : Datetime)
  | naive (wall : Datetime)

def Timestamp.inUtc : Timestamp → Int
  | .aware t => t.instant
  | .naive wall => wall.instant

end TacticalGateway
