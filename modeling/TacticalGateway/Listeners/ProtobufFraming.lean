import TacticalGateway.Lib.Framing
import TacticalGateway.Lib.Text

/-! The TAK protocol frame: magic, varint length, magic, payload. -/
namespace TacticalGateway.Listeners
open Text Framing

def magic : UInt8 := 0xBF

/-- A byte as `{b:02x}` prints it. -/
def hex2 (b : UInt8) : String :=
  String.ofList [hexDigit (b.toNat / 16), hexDigit (b.toNat % 16)]

/-- The varint loop of `encode_frame`. -/
def encodeVarint (n : Nat) : Bytes :=
  let b := n &&& 0x7F
  if n >>> 7 = 0 then [UInt8.ofNat b]
  else UInt8.ofNat (b ||| 0x80) :: encodeVarint (n >>> 7)
termination_by n
decreasing_by
  rw [Nat.shiftRight_eq_div_pow] at *
  omega

def encodeFrame (payload : Bytes) : Bytes :=
  magic :: (encodeVarint payload.length ++ magic :: payload)

/-- The varint loop of `try_decode_frame` from index `i` on; none while bytes are missing,
else the length and the index behind it. -/
def readVarint (buf : Bytes) (i length shift : Nat) : Except String (Option (Nat × Nat)) :=
  match buf[i]? with
  | none => .ok none
  | some b =>
    let length := length ||| ((b &&& 0x7F).toNat <<< shift)
    if b &&& 0x80 = 0 then .ok (some (length, i + 1))
    else if 35 < shift + 7 then .error "varint too long"
    else readVarint buf (i + 1) length (shift + 7)
termination_by 36 - shift

def readPayload (buf : Bytes) (length i : Nat) : Except String (Option Bytes × Nat) :=
  match buf[i]? with
  | none => .ok (none, 0)
  | some b =>
    if b ≠ magic then .error ("expected second magic 0x" ++ hex2 magic ++ ", got 0x" ++ hex2 b)
    else if buf.length < i + 1 + length then .ok (none, 0)
    else .ok (some ((buf.drop (i + 1)).take length), i + 1 + length)

def tryDecodeFrame (buf : Bytes) : Except String (Option Bytes × Nat) :=
  match buf with
  | [] => .ok (none, 0)
  | first :: _ =>
    if first ≠ magic then
      .error ("expected leading magic 0x" ++ hex2 magic ++ ", got 0x" ++ hex2 first)
    else
      match readVarint buf 1 0 0 with
      | .error e => .error e
      | .ok none => .ok (none, 0)
      | .ok (some (length, i)) => readPayload buf length i

def look (buf : Bytes) : Look Bytes String :=
  match tryDecodeFrame buf with
  | .error e => .error e
  | .ok (none, _) => .incomplete
  | .ok (some payload, consumed) => .frame payload consumed

theorem readVarint_append {buf : Bytes} {i length shift : Nat} (more : Bytes)
    (complete : readVarint buf i length shift ≠ .ok none) :
    readVarint (buf ++ more) i length shift = readVarint buf i length shift := by
  induction i, length, shift using readVarint.induct buf with
  | case1 i length shift missing =>
    rw [readVarint, missing] at complete
    exact absurd rfl complete
  | case2 i length shift b found last =>
    have still : (buf ++ more)[i]? = some b := by
      rw [List.getElem?_append_left (List.getElem?_eq_some_iff.mp found).1, found]
    rw [readVarint, readVarint, still, found]
    simp only [last, if_true]
  | case3 i length shift b found longer long =>
    have still : (buf ++ more)[i]? = some b := by
      rw [List.getElem?_append_left (List.getElem?_eq_some_iff.mp found).1, found]
    rw [readVarint, readVarint, still, found]
    simp only [longer, long, if_true, if_false]
  | case4 i length shift b found _ longer short ih =>
    have still : (buf ++ more)[i]? = some b := by
      rw [List.getElem?_append_left (List.getElem?_eq_some_iff.mp found).1, found]
    rw [readVarint, found] at complete
    simp only [longer, short, if_false] at complete
    rw [readVarint, still]
    conv => rhs; rw [readVarint, found]
    simp only [longer, short, if_false]
    exact ih complete

theorem readPayload_append {buf : Bytes} {length i : Nat} (more : Bytes)
    (complete : ∀ n, readPayload buf length i ≠ .ok (none, n)) :
    readPayload (buf ++ more) length i = readPayload buf length i := by
  unfold readPayload at *
  cases found : buf[i]? with
  | none =>
    rw [found] at complete
    exact absurd rfl (complete 0)
  | some b =>
    rw [found] at complete
    rw [List.getElem?_append_left (List.getElem?_eq_some_iff.mp found).1, found]
    simp only at complete ⊢
    split
    · rfl
    · rename_i second
      rw [if_neg second] at complete
      split at complete
      · exact absurd rfl (complete 0)
      · rename_i enough
        have still : ¬ (buf ++ more).length < i + 1 + length := by
          rw [List.length_append]
          omega
        have payload : ((buf ++ more).drop (i + 1)).take length =
            (buf.drop (i + 1)).take length := by
          rw [List.drop_append_of_le_length (by omega), List.take_append_of_le_length]
          rw [List.length_drop]
          omega
        rw [if_neg still, if_neg enough, payload]

theorem tryDecodeFrame_append {buf : Bytes} (more : Bytes)
    (complete : ∀ n, tryDecodeFrame buf ≠ .ok (none, n)) :
    tryDecodeFrame (buf ++ more) = tryDecodeFrame buf := by
  cases buf with
  | nil => exact absurd rfl (complete 0)
  | cons first rest =>
    unfold tryDecodeFrame at *
    simp only [List.cons_append] at complete ⊢
    split
    · rfl
    · rename_i leading
      rw [if_neg leading] at complete
      have varint : readVarint (first :: rest) 1 0 0 ≠ .ok none := by
        intro missing
        rw [missing] at complete
        exact absurd rfl (complete 0)
      rw [← List.cons_append, readVarint_append more varint]
      cases read : readVarint (first :: rest) 1 0 0 with
      | error e => rfl
      | ok result =>
        cases result with
        | none => exact absurd read varint
        | some header =>
          simp only [read] at complete ⊢
          exact readPayload_append more complete

theorem tryDecodeFrame_consumed {buf payload : Bytes} {consumed : Nat}
    (h : tryDecodeFrame buf = .ok (some payload, consumed)) :
    0 < consumed ∧ consumed ≤ buf.length := by
  cases buf with
  | nil => cases h
  | cons first rest =>
    unfold tryDecodeFrame at h
    simp only at h
    split at h
    · cases h
    · split at h
      · cases h
      · cases h
      · unfold readPayload at h
        split at h
        · cases h
        · split at h
          · cases h
          · split at h
            · cases h
            · cases h
              constructor
              · omega
              · omega

theorem look_frame {buf payload : Bytes} {consumed : Nat} :
    look buf = .frame payload consumed ↔ tryDecodeFrame buf = .ok (some payload, consumed) := by
  unfold look
  split <;> simp_all

theorem look_error {buf : Bytes} {e : String} :
    look buf = .error e ↔ tryDecodeFrame buf = .error e := by
  unfold look
  split <;> simp_all

def decoder : Decoder UInt8 Bytes String where
  look := look
  look_nil := rfl
  consumed_pos h := (tryDecodeFrame_consumed (look_frame.mp h)).1
  consumed_le h := (tryDecodeFrame_consumed (look_frame.mp h)).2
  frame_append more h := by
    rw [look_frame] at h ⊢
    rw [tryDecodeFrame_append more (by simp [h]), h]
  error_append more h := by
    rw [look_error] at h ⊢
    rw [tryDecodeFrame_append more (by simp [h]), h]

/-- `CoTPbTcpListener._handle_client` on the chunks that `read` returns: the payloads given to
`_handle_message`, then the bytes left in the buffer or the framing error. -/
def handleClient (chunks : List Bytes) :
    List Bytes × Except String Bytes := receive decoder [] chunks

theorem septet : ∀ m < 128,
    (UInt8.ofNat m &&& 0x7F).toNat = m ∧ UInt8.ofNat m &&& 0x80 = 0 ∧
    (UInt8.ofNat (m ||| 0x80) &&& 0x7F).toNat = m ∧ UInt8.ofNat (m ||| 0x80) &&& 0x80 ≠ 0 := by
  decide

theorem or_shiftLeft {acc shift : Nat} (m : Nat) (small : acc < 2 ^ shift) :
    acc ||| m <<< shift = acc + m * 2 ^ shift := by
  rw [Nat.lor_comm, ← Nat.shiftLeft_add_eq_or_of_lt small, Nat.shiftLeft_eq, Nat.add_comm]

theorem and_septet (n : Nat) : n &&& 0x7F = n % 128 := Nat.and_two_pow_sub_one_eq_mod n 7

theorem shift_septet (n : Nat) : n >>> 7 = n / 128 := Nat.shiftRight_eq_div_pow n 7

theorem getElem?_at_length (pre rest : Bytes) (b : UInt8) :
    (pre ++ b :: rest)[pre.length]? = some b := by
  rw [List.getElem?_append_right (Nat.le_refl _), Nat.sub_self, List.getElem?_cons_zero]

/-- The varint loop undoes the encoder. `k` septets are read already, the length so far is
below `2 ^ (7 * k)`, and what is left fits into the remaining ones. -/
theorem readVarint_encodeVarint (n k acc : Nat) (pre rest : Bytes) (few : k ≤ 5)
    (fits : n < 2 ^ (7 * (6 - k))) (small : acc < 2 ^ (7 * k)) :
    readVarint (pre ++ (encodeVarint n ++ rest)) pre.length acc (7 * k) =
      .ok (some (acc + n * 2 ^ (7 * k), pre.length + (encodeVarint n).length)) := by
  induction n using encodeVarint.induct generalizing k acc pre with
  | case1 n done =>
    have whole : n % 128 = n := by
      rw [shift_septet] at done
      omega
    obtain ⟨bits, last, _⟩ := septet (n % 128) (Nat.mod_lt n (by decide))
    rw [whole] at bits last
    rw [encodeVarint, if_pos done, and_septet, whole, List.singleton_append, readVarint,
      getElem?_at_length]
    simp only [last, if_true, bits, or_shiftLeft _ small, List.length_singleton]
  | case2 n more ih =>
    have big : 128 ≤ n := by
      rw [shift_septet] at more
      omega
    have room : k + 1 ≤ 5 := by
      by_contra last_septet
      have five : k = 5 := by omega
      subst five
      norm_num at fits
      omega
    have power : 2 ^ (7 * (k + 1)) = 2 ^ (7 * k) * 128 := Nat.pow_add 2 (7 * k) 7
    have below : n >>> 7 < 2 ^ (7 * (6 - (k + 1))) := by
      have grown : 2 ^ (7 * (6 - k)) = 2 ^ (7 * (6 - (k + 1))) * 128 := by
        rw [← Nat.pow_add 2 _ 7]
        congr 1
        omega
      rw [shift_septet]
      omega
    have filled : acc + n % 128 * 2 ^ (7 * k) < 2 ^ (7 * (k + 1)) := by
      have less := Nat.mul_le_mul_right (2 ^ (7 * k))
        (Nat.le_of_lt_succ (Nat.mod_lt n (by decide : 0 < 128)))
      calc acc + n % 128 * 2 ^ (7 * k) < 2 ^ (7 * k) + 127 * 2 ^ (7 * k) :=
            Nat.add_lt_add_of_lt_of_le small less
        _ = 2 ^ (7 * (k + 1)) := by rw [power]; ring
    have scaled : n * 2 ^ (7 * k) = n % 128 * 2 ^ (7 * k) + n / 128 * (2 ^ (7 * k) * 128) :=
      calc n * 2 ^ (7 * k) = (n % 128 + 128 * (n / 128)) * 2 ^ (7 * k) := by rw [Nat.mod_add_div]
        _ = n % 128 * 2 ^ (7 * k) + n / 128 * (2 ^ (7 * k) * 128) := by ring
    obtain ⟨_, _, bits, longer⟩ := septet (n % 128) (Nat.mod_lt n (by decide))
    have short : ¬ 35 < 7 * k + 7 := by omega
    have next := ih (k + 1) (acc + n % 128 * 2 ^ (7 * k))
      (pre ++ [UInt8.ofNat (n % 128 ||| 0x80)]) room below filled
    rw [List.append_assoc, List.singleton_append, List.length_append, List.length_singleton,
      Nat.mul_succ] at next
    rw [encodeVarint, if_neg more, and_septet, List.cons_append, readVarint, getElem?_at_length]
    simp only [longer, short, if_false, bits, or_shiftLeft _ small]
    rw [next, List.length_cons, ← Nat.mul_succ, power, shift_septet, scaled]
    congr 3
    · omega
    · omega

theorem tryDecodeFrame_encodeFrame (payload more : Bytes) (short : payload.length < 2 ^ 42) :
    tryDecodeFrame (encodeFrame payload ++ more) =
      .ok (some payload, (encodeFrame payload).length) := by
  have varint := readVarint_encodeVarint payload.length 0 0 [magic] (magic :: (payload ++ more))
    (by omega) short (by decide)
  have frame : encodeFrame payload ++ more =
      [magic] ++ (encodeVarint payload.length ++ magic :: (payload ++ more)) := by
    simp [encodeFrame]
  have second : encodeFrame payload ++ more =
      (magic :: encodeVarint payload.length) ++ magic :: (payload ++ more) := by
    simp [encodeFrame]
  have header : readVarint (encodeFrame payload ++ more) 1 0 0 =
      .ok (some (payload.length, (magic :: encodeVarint payload.length).length)) := by
    rw [frame]
    simpa [Nat.add_comm] using varint
  have body : readPayload (encodeFrame payload ++ more) payload.length
      (magic :: encodeVarint payload.length).length =
        .ok (some payload, (encodeFrame payload).length) := by
    have room : ¬ (encodeFrame payload ++ more).length <
        (magic :: encodeVarint payload.length).length + 1 + payload.length := by
      simp only [encodeFrame, List.length_append, List.length_cons]
      omega
    have rest : (encodeFrame payload ++ more).drop
      ((magic :: encodeVarint payload.length).length + 1) =
        payload ++ more := by
      rw [second, List.drop_append, List.drop_of_length_le (Nat.le_succ _), Nat.add_sub_cancel_left]
      rfl
    rw [readPayload, rest, if_neg room, second, getElem?_at_length]
    simp only [ne_eq, not_true, if_false, List.take_left, encodeFrame, List.length_cons,
      List.length_append]
    congr 2
    omega
  have first : encodeFrame payload ++ more = magic ::
      (encodeVarint payload.length ++ magic :: payload ++ more) := by
    simp [encodeFrame]
  unfold tryDecodeFrame
  split
  · rename_i empty
    rw [first] at empty
    cases empty
  · rename_i byte rest same
    have leading : byte = magic := by
      rw [first] at same
      exact (List.cons.inj same).1.symm
    rw [if_neg (not_not.mpr leading), header]
    exact body

theorem handleClient_frames {payloads chunks : List Bytes}
    (short : ∀ p ∈ payloads, p.length < 2 ^ 42)
    (stream : chunks.flatten = (payloads.map encodeFrame).flatten) :
    handleClient chunks = (payloads, .ok []) := by
  rw [handleClient, receive_eq_drain settled_nil, List.nil_append, stream]
  apply drain_frames
  intro p member more
  exact look_frame.mpr (tryDecodeFrame_encodeFrame p more (short p member))

/-- However the stream is cut, the listener delivers the same payloads and ends alike; and a
stream of frames is delivered payload by payload. -/
theorem frames_survive_segmentation :
    (∀ chunks chunks' : List Bytes, chunks.flatten = chunks'.flatten →
      handleClient chunks = handleClient chunks') ∧
    ∀ (payloads chunks : List Bytes), (∀ p ∈ payloads, p.length < 2 ^ 42) →
      chunks.flatten = (payloads.map encodeFrame).flatten → handleClient chunks =
        (payloads, .ok []) := by
  constructor
  · intro chunks chunks' same
    exact receive_congr same
  · intro payloads chunks short stream
    exact handleClient_frames short stream

/-- An empty payload and one that is a magic byte, cut inside both headers. -/
theorem frames_survive_segmentation_cut :
    handleClient [[0xBF], [0x00, 0xBF, 0xBF, 0x01], [0xBF, 0xBF]] = ([[], [0xBF]], .ok []) ∧
    handleClient [[0xBF], [0x00, 0xBF, 0xBF, 0x01], [0xBF, 0xBF]] =
      handleClient [[0xBF, 0x00, 0xBF, 0xBF, 0x01, 0xBF, 0xBF]] := by
  constructor
  · apply frames_survive_segmentation.2
    · intro p member
      have short : p.length ≤ 1 := by
        simp only [List.mem_cons, List.not_mem_nil, or_false] at member
        rcases member with rfl | rfl <;> simp
      exact Nat.lt_of_le_of_lt short (by decide)
    · simp [encodeFrame, encodeVarint, magic]
  · exact frames_survive_segmentation.1 _ _ rfl

end TacticalGateway.Listeners
