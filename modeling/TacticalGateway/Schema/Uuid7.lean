import TacticalGateway.Lib.BitFields
import TacticalGateway.Schema.Models

/-! The time-ordered identifiers: the fields of a UUID of version 7, and its timestamp. -/
namespace TacticalGateway
open BitFields (Field word)

/-- `int.from_bytes(data, "big")`. -/
def fromBytes (data : List UInt8) : Nat := data.foldl (fun n b => n * 256 + b.toNat) 0

structure Draw where
  a : List UInt8
  b : List UInt8
  length_a : a.length = 2
  length_b : b.length = 8

/-- The integer that `uuid7` builds, by `int(time.time() * 1000)`. -/
def uuid7Int (clock : Nat) (random : Draw) : Nat :=
  let tsMs := clock &&& 0xFFFFFFFFFFFF
  let randA := fromBytes random.a &&& 0x0FFF
  let randB := fromBytes random.b &&& 0x3FFFFFFFFFFFFFFF
  let version := 0x7
  let variant := 0b10
  tsMs <<< 80 ||| version <<< 76 ||| randA <<< 64 ||| variant <<< 62 ||| randB

/-- `UUID(int=value)`; none is its ValueError for a value that does not fit. -/
def uuidOfInt (value : Nat) : Option UUID :=
  if value < 2 ^ 128 then some (BitVec.ofNat 128 value) else none

def uuid7 (clock : Nat) (random : Draw) : Option UUID := uuidOfInt (uuid7Int clock random)

inductive UUID.Variant where
  | reservedNcs
  | rfc4122
  | reservedMicrosoft
  | reservedFuture
  deriving DecidableEq

/-- `UUID.variant`. -/
def UUID.variant (uid : UUID) : UUID.Variant :=
  if uid.toNat &&& 0x8000 <<< 48 = 0 then .reservedNcs
  else if uid.toNat &&& 0x4000 <<< 48 = 0 then .rfc4122
  else if uid.toNat &&& 0x2000 <<< 48 = 0 then .reservedMicrosoft
  else .reservedFuture

/-- `UUID.version`. -/
def UUID.version (uid : UUID) : Option Nat :=
  if uid.variant = .rfc4122 then some (uid.toNat >>> 76 &&& 0xF) else none

def uuid7TimestampMs (uid : UUID) : Except String Nat :=
  if uid.version ≠ some 7 then
    .error ("not a UUID v7: version is " ++ (uid.version.map toString).getD "None")
  else .ok (uid.toNat >>> 80)

/-- The layout of the docstring. -/
def uuid7Fields (clock : Nat) (random : Draw) : List Field :=
  [⟨48, clock % 2 ^ 48, Nat.mod_lt _ (by decide)⟩, ⟨4, 7, by decide⟩,
    ⟨12, fromBytes random.a % 2 ^ 12, Nat.mod_lt _ (by decide)⟩, ⟨2, 2, by decide⟩,
    ⟨62, fromBytes random.b % 2 ^ 62, Nat.mod_lt _ (by decide)⟩]

theorem uuid7Int_eq (clock : Nat) (random : Draw) :
    uuid7Int clock random = word (uuid7Fields clock random) := by
  have stamp : clock &&& 0xFFFFFFFFFFFF = clock % 2 ^ 48 := Nat.and_two_pow_sub_one_eq_mod clock 48
  have first : fromBytes random.a &&& 0x0FFF = fromBytes random.a % 2 ^ 12 :=
    Nat.and_two_pow_sub_one_eq_mod _ 12
  have second : fromBytes random.b &&& 0x3FFFFFFFFFFFFFFF = fromBytes random.b % 2 ^ 62 :=
    Nat.and_two_pow_sub_one_eq_mod _ 62
  simp only [uuid7Int, stamp, first, second, uuid7Fields, word, BitFields.size, Nat.or_zero,
    Nat.or_assoc, Nat.shiftLeft_zero, Nat.add_zero, Nat.reduceAdd]

theorem uuid7Int_lt (clock : Nat) (random : Draw) : uuid7Int clock random < 2 ^ 128 := by
  rw [uuid7Int_eq]
  exact BitFields.word_lt (uuid7Fields clock random)

theorem uuid7_made (clock : Nat) (random : Draw) :
    ∃ uid, uuid7 clock random = some uid ∧ uid.toNat = uuid7Int clock random := by
  have small := uuid7Int_lt clock random
  exact ⟨_, if_pos small, BitVec.toNat_ofNat .. ▸ Nat.mod_eq_of_lt small⟩

/-- The fields that a reader finds at the places of the version, the variant and the timestamp. -/
structure Layout (clock value : Nat) : Prop where
  small : value < 2 ^ 128
  timestamp : value >>> 80 = clock % 2 ^ 48
  version : value >>> 76 % 2 ^ 4 = 7
  variant : value >>> 62 % 2 ^ 2 = 2

theorem uuid7Int_layout (clock : Nat) (random : Draw) : Layout clock (uuid7Int clock random) := by
  have whole := uuid7Int_eq clock random
  refine ⟨uuid7Int_lt clock random, ?_, ?_, ?_⟩
  · have read := BitFields.word_shiftRight [⟨48, clock % 2 ^ 48, Nat.mod_lt _ (by decide)⟩]
      ((uuid7Fields clock random).drop 1)
    rw [whole]
    refine read.trans ?_
    simp [word, BitFields.size]
  · rw [whole]
    exact BitFields.word_field ((uuid7Fields clock random).take 1) ⟨4, 7, by decide⟩
      ((uuid7Fields clock random).drop 2)
  · rw [whole]
    exact BitFields.word_field ((uuid7Fields clock random).take 3) ⟨2, 2, by decide⟩
      ((uuid7Fields clock random).drop 4)

theorem variant_of_bits {uid : UUID} (bits : uid.toNat >>> 62 % 2 ^ 2 = 2) :
    uid.variant = .rfc4122 := by
  rw [Nat.shiftRight_eq_div_pow] at bits
  have high : uid.toNat.testBit 63 = true := by
    rw [Nat.testBit_eq_decide_div_mod_eq, decide_eq_true_eq]
    omega
  have low : uid.toNat.testBit 62 = false := by
    rw [Nat.testBit_eq_decide_div_mod_eq, decide_eq_false_iff_not]
    omega
  have top : (0x8000 <<< 48 : Nat) = 2 ^ 63 := rfl
  have next : (0x4000 <<< 48 : Nat) = 2 ^ 62 := rfl
  unfold UUID.variant
  rw [top, next, Nat.and_two_pow, Nat.and_two_pow, high, low]
  simp

theorem timestamp_of_layout {clock : Nat} {uid : UUID} (layout : Layout clock uid.toNat) :
    uid.version = some 7 ∧ uuid7TimestampMs uid = .ok (clock % 2 ^ 48) := by
  have seven : uid.version = some 7 := by
    have nibble : uid.toNat >>> 76 &&& 0xF = uid.toNat >>> 76 % 2 ^ 4 :=
      Nat.and_two_pow_sub_one_eq_mod _ 4
    rw [UUID.version, if_pos (variant_of_bits layout.variant), nibble, layout.version]
  refine ⟨seven, ?_⟩
  rw [uuid7TimestampMs, if_neg (not_not_intro seven), layout.timestamp]

theorem uuid7_lt {earlier later : Nat} (less : earlier < later) (small : later < 2 ^ 48)
    (random random' : Draw) : uuid7Int earlier random < uuid7Int later random' := by
  have stamps : earlier % 2 ^ 48 < later % 2 ^ 48 := by
    rw [Nat.mod_eq_of_lt (Nat.lt_trans less small), Nat.mod_eq_of_lt small]
    exact less
  rw [uuid7Int_eq, uuid7Int_eq]
  exact BitFields.word_lt_word rfl stamps

/-- Every identifier has the layout and gives its clock back, and a later clock makes a greater one,
by any random bytes. -/
theorem uuid7_ordered :
    (∀ clock random, ∃ uid, uuid7 clock random = some uid ∧ uid.toNat = uuid7Int clock random ∧
      Layout clock (uuid7Int clock random) ∧ uid.version = some 7 ∧ uid.variant = .rfc4122 ∧
      uuid7TimestampMs uid = .ok (clock % 2 ^ 48)) ∧
    ∀ earlier later random random', earlier < later → later < 2 ^ 48 →
      ∃ uid uid', uuid7 earlier random = some uid ∧ uuid7 later random' = some uid' ∧
        uid < uid' := by
  constructor
  · intro clock random
    obtain ⟨uid, made, value⟩ := uuid7_made clock random
    have layout := uuid7Int_layout clock random
    obtain ⟨seven, stamp⟩ := timestamp_of_layout (value ▸ layout)
    exact ⟨uid, made, value, layout, seven, variant_of_bits (value ▸ layout.variant), stamp⟩
  · intro earlier later random random' less small
    obtain ⟨uid, made, value⟩ := uuid7_made earlier random
    obtain ⟨uid', made', value'⟩ := uuid7_made later random'
    refine ⟨uid, uid', made, made', ?_⟩
    rw [BitVec.lt_def, value, value']
    exact uuid7_lt less small random random'

theorem uuid7_ordered_tick :
    ∃ uid uid', uuid7 1704067200000 ⟨[0xFF, 0xFF], List.replicate 8 0xFF, rfl, rfl⟩ = some uid ∧
      uuid7 1704067200001 ⟨[0, 0], List.replicate 8 0, rfl, rfl⟩ = some uid' ∧ uid < uid' :=
  uuid7_ordered.2 _ _ _ _ (by decide) (by decide)

end TacticalGateway
