import TacticalGateway.Lib.Json
import TacticalGateway.Schema.Models

/-! The text of a UUID, and a reader that undoes it. -/
namespace TacticalGateway
open Text

def hexText : Nat → Nat → List Char
  | 0, _ => []
  | width + 1, n => hexText width (n / 16) ++ [hexDigit (n % 16)]

def dashed (hex : List Char) : List Char :=
  hex.take 8 ++ '-' :: ((hex.drop 8).take 4 ++ '-' :: ((hex.drop 12).take 4 ++
    '-' :: ((hex.drop 16).take 4 ++ '-' :: hex.drop 20)))

/-- `str` of a UUID. -/
def uuidText (u : UUID) : String := String.ofList (dashed (hexText 32 u.toNat))

def readUuid (s : String) : Option UUID :=
  let hex := s.toList.filter (· != '-')
  if hex.length = 32 then
    (hex.mapM Json.hexValue).map
      (fun digits => BitVec.ofNat 128 (digits.foldl (fun n d => n * 16 + d) 0))
  else none

theorem hexText_length (width n : Nat) : (hexText width n).length = width := by
  induction width generalizing n with
  | zero => rfl
  | succ width ih => rw [hexText, List.length_append, ih, List.length_singleton]

theorem hexText_digits (width n : Nat) : ∀ c ∈ hexText width n, c ∈ hexDigits := by
  induction width generalizing n with
  | zero => simp [hexText]
  | succ width ih =>
    rw [hexText, List.forall_mem_append]
    exact ⟨ih _, fun c last => List.mem_singleton.mp last ▸ hexDigit_mem _⟩

theorem hexText_value (width n : Nat) :
    ∃ digits, (hexText width n).mapM Json.hexValue = some digits ∧
      digits.foldl (fun n d => n * 16 + d) 0 = n % 16 ^ width := by
  induction width generalizing n with
  | zero => exact ⟨[], rfl, (Nat.mod_one n).symm⟩
  | succ width ih =>
    obtain ⟨digits, front, value⟩ := ih (n / 16)
    have last := Json.hexValue_hexDigit (Nat.mod_lt n (show 16 > 0 by decide))
    refine ⟨digits ++ [n % 16], ?_, ?_⟩
    · simp [hexText, List.mapM_append, front, last]
    · rw [List.foldl_append, List.foldl_cons, List.foldl_nil, value, Nat.pow_succ',
        Nat.mod_mul, Nat.mul_comm, Nat.add_comm]

theorem filter_dashed {hex : List Char} (dashless : ∀ c ∈ hex, (c != '-') = true) :
    (dashed hex).filter (· != '-') = hex := by
  have kept (k m : Nat) : ((hex.drop k).take m).filter (· != '-') = (hex.drop k).take m :=
    List.filter_eq_self.mpr fun c member =>
      dashless c (List.mem_of_mem_drop (List.mem_of_mem_take member))
  have first : (hex.take 8).filter (· != '-') = hex.take 8 :=
    List.filter_eq_self.mpr fun c member => dashless c (List.mem_of_mem_take member)
  have last : (hex.drop 20).filter (· != '-') = hex.drop 20 :=
    List.filter_eq_self.mpr fun c member => dashless c (List.mem_of_mem_drop member)
  have dash (rest : List Char) : ('-' :: rest).filter (· != '-') = rest.filter (· != '-') := by simp
  have join (k : Nat) : (hex.drop k).take 4 ++ hex.drop (k + 4) = hex.drop k := by
    rw [← List.drop_drop, List.take_append_drop]
  simp only [dashed, List.filter_append, dash, kept, first, last]
  rw [join 16, join 12, join 8, List.take_append_drop]

theorem readUuid_uuidText (u : UUID) : readUuid (uuidText u) = some u := by
  have dashless : ∀ c ∈ hexText 32 u.toNat, (c != '-') = true := by
    have digits : ∀ c ∈ hexDigits, (c != '-') = true := by simp [hexDigits]
    exact fun c member => digits c (hexText_digits 32 u.toNat c member)
  obtain ⟨digits, read, value⟩ := hexText_value 32 u.toNat
  have small : u.toNat < 16 ^ 32 := by
    have bound := u.isLt
    omega
  rw [readUuid, uuidText, String.toList_ofList, filter_dashed dashless]
  simp only [hexText_length, if_true, read, Option.map_some, value, Nat.mod_eq_of_lt small,
    BitVec.ofNat_toNat, BitVec.setWidth_eq]

end TacticalGateway
