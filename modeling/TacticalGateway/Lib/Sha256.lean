import TacticalGateway.Lib.Text

/-! SHA-256 (FIPS 180-4) over byte lists, and the lower-case hexadecimal digest. -/
namespace Sha256
open Text

def roundConstants : List UInt32 :=
  [0x428a2f98, 0x71374491, 0xb5c0fbcf, 0xe9b5dba5, 0x3956c25b, 0x59f111f1, 0x923f82a4, 0xab1c5ed5,
   0xd807aa98, 0x12835b01, 0x243185be, 0x550c7dc3, 0x72be5d74, 0x80deb1fe, 0x9bdc06a7, 0xc19bf174,
   0xe49b69c1, 0xefbe4786, 0x0fc19dc6, 0x240ca1cc, 0x2de92c6f, 0x4a7484aa, 0x5cb0a9dc, 0x76f988da,
   0x983e5152, 0xa831c66d, 0xb00327c8, 0xbf597fc7, 0xc6e00bf3, 0xd5a79147, 0x06ca6351, 0x14292967,
   0x27b70a85, 0x2e1b2138, 0x4d2c6dfc, 0x53380d13, 0x650a7354, 0x766a0abb, 0x81c2c92e, 0x92722c85,
   0xa2bfe8a1, 0xa81a664b, 0xc24b8b70, 0xc76c51a3, 0xd192e819, 0xd6990624, 0xf40e3585, 0x106aa070,
   0x19a4c116, 0x1e376c08, 0x2748774c, 0x34b0bcb5, 0x391c0cb3, 0x4ed8aa4a, 0x5b9cca4f, 0x682e6ff3,
   0x748f82ee, 0x78a5636f, 0x84c87814, 0x8cc70208, 0x90befffa, 0xa4506ceb, 0xbef9a3f7, 0xc67178f2]

structure Working where
  a : UInt32
  b : UInt32
  c : UInt32
  d : UInt32
  e : UInt32
  f : UInt32
  g : UInt32
  h : UInt32

def initial : Working :=
  ⟨0x6a09e667, 0xbb67ae85, 0x3c6ef372, 0xa54ff53a, 0x510e527f, 0x9b05688c, 0x1f83d9ab, 0x5be0cd19⟩

def rotr (x : UInt32) (n : UInt32) : UInt32 := (x >>> n) ||| (x <<< (32 - n))

def bigSigma0 (x : UInt32) : UInt32 := rotr x 2 ^^^ rotr x 13 ^^^ rotr x 22
def bigSigma1 (x : UInt32) : UInt32 := rotr x 6 ^^^ rotr x 11 ^^^ rotr x 25
def smallSigma0 (x : UInt32) : UInt32 := rotr x 7 ^^^ rotr x 18 ^^^ (x >>> 3)
def smallSigma1 (x : UInt32) : UInt32 := rotr x 17 ^^^ rotr x 19 ^^^ (x >>> 10)

def choose (x y z : UInt32) : UInt32 := (x &&& y) ^^^ ((~~~ x) &&& z)
def majority (x y z : UInt32) : UInt32 := (x &&& y) ^^^ (x &&& z) ^^^ (y &&& z)

/-- Four big-endian bytes a word; an incomplete group at the end is dropped. -/
def words : List UInt8 → List UInt32
  | p :: q :: r :: s :: rest =>
    ((p.toUInt32 <<< 24) ||| (q.toUInt32 <<< 16) ||| (r.toUInt32 <<< 8) ||| s.toUInt32) ::
      words rest
  | _ => []

/-- The message schedule, latest word first, so that the recurrence looks back by position. -/
def extend : Nat → List UInt32 → List UInt32
  | 0, ws => ws
  | n + 1, ws =>
    extend n
      ((smallSigma1 (ws.getD 1 0) + ws.getD 6 0 + smallSigma0 (ws.getD 14 0) + ws.getD 15 0) :: ws)

def schedule (block : List UInt8) : List UInt32 := (extend 48 (words block).reverse).reverse

def round (s : Working) (kw : UInt32 × UInt32) : Working :=
  let t₁ := s.h + bigSigma1 s.e + choose s.e s.f s.g + kw.1 + kw.2
  let t₂ := bigSigma0 s.a + majority s.a s.b s.c
  ⟨t₁ + t₂, s.a, s.b, s.c, s.d + t₁, s.e, s.f, s.g⟩

def compress (s : Working) (block : List UInt8) : Working :=
  let r := (roundConstants.zip (schedule block)).foldl round s
  ⟨s.a + r.a, s.b + r.b, s.c + r.c, s.d + r.d, s.e + r.e, s.f + r.f, s.g + r.g, s.h + r.h⟩

def lengthBytes (size : Nat) : List UInt8 :=
  [56, 48, 40, 32, 24, 16, 8, 0].map (fun shift => UInt8.ofNat ((size * 8) >>> shift))

def pad (message : List UInt8) : List UInt8 :=
  message ++ 0x80 :: List.replicate ((119 - message.length % 64) % 64) 0 ++
    lengthBytes message.length

def blocks : Nat → List UInt8 → Working → Working
  | 0, _, s => s
  | n + 1, bytes, s => blocks n (bytes.drop 64) (compress s (bytes.take 64))

def wordBytes (w : UInt32) : List UInt8 :=
  [(w >>> 24).toUInt8, (w >>> 16).toUInt8, (w >>> 8).toUInt8, w.toUInt8]

def Working.bytes (s : Working) : List UInt8 :=
  wordBytes s.a ++ wordBytes s.b ++ wordBytes s.c ++ wordBytes s.d ++
  wordBytes s.e ++ wordBytes s.f ++ wordBytes s.g ++ wordBytes s.h

def digest (message : List UInt8) : List UInt8 :=
  (blocks ((pad message).length / 64) (pad message) initial).bytes

def hex (bytes : List UInt8) : List Char :=
  bytes.flatMap (fun b => [hexDigit (b.toNat / 16), hexDigit (b.toNat % 16)])

def hexdigest (message : List UInt8) : String := String.ofList (hex (digest message))

theorem bytes_length (s : Working) : s.bytes.length = 32 := rfl

theorem digest_length (message : List UInt8) : (digest message).length = 32 := bytes_length _

theorem hex_length (bytes : List UInt8) : (hex bytes).length = 2 * bytes.length := by
  induction bytes with
  | nil => rfl
  | cons b bytes ih =>
    simp only [hex, List.flatMap_cons, List.length_append, List.length_cons] at ih ⊢
    rw [ih]
    simp only [List.length_nil]
    omega

theorem hex_digits (bytes : List UInt8) : ∀ c ∈ hex bytes, c ∈ hexDigits := by
  intro c hc
  simp only [hex, List.mem_flatMap, List.mem_cons, List.not_mem_nil, or_false] at hc
  obtain ⟨b, _, rfl | rfl⟩ := hc
  · exact hexDigit_mem _
  · exact hexDigit_mem _

theorem hexdigest_length (message : List UInt8) : (hexdigest message).toList.length = 64 := by
  rw [hexdigest, String.toList_ofList, hex_length, digest_length]

theorem hexdigest_digits (message : List UInt8) :
    ∀ c ∈ (hexdigest message).toList, c ∈ hexDigits := by
  rw [hexdigest, String.toList_ofList]
  exact hex_digits _

end Sha256
