import Mathlib

/-! Receive loops over a growing buffer. A decoder that answers alike after more bytes have
arrived makes the loop independent of how the stream is cut. -/
namespace Framing

variable {B P E : Type*}

/-- What a look at the buffer tells: wait, deliver and drop that many bytes, or give up. -/
inductive Look (P E : Type*) where
  | incomplete
  | frame (payload : P) (consumed : Nat)
  | error (e : E)

structure Decoder (B P E : Type*) where
  look : List B → Look P E
  look_nil : look [] = .incomplete
  consumed_pos : ∀ {buf payload consumed}, look buf = .frame payload consumed → 0 < consumed
  consumed_le : ∀ {buf payload consumed}, look buf = .frame payload consumed →
    consumed ≤ buf.length
  frame_append : ∀ {buf payload consumed} (more : List B), look buf = .frame payload consumed →
    look (buf ++ more) = .frame payload consumed
  error_append : ∀ {buf e} (more : List B), look buf = .error e → look (buf ++ more) = .error e

variable (d : Decoder B P E)

/-- The inner loop: the payloads delivered, then the bytes kept or the error. -/
def drain (buf : List B) : List P × Except E (List B) :=
  match _found : d.look buf with
  | .incomplete => ([], .ok buf)
  | .error e => ([], .error e)
  | .frame payload consumed =>
    let later := drain (buf.drop consumed)
    (payload :: later.1, later.2)
termination_by buf.length
decreasing_by
  have pos := d.consumed_pos _found
  have le := d.consumed_le _found
  rw [List.length_drop]
  omega

/-- The outer loop: each chunk is appended to what was kept, until an error or the end. -/
def receive (buf : List B) : List (List B) → List P × Except E (List B)
  | [] => ([], .ok buf)
  | chunk :: chunks =>
    match drain d (buf ++ chunk) with
    | (payloads, .error e) => (payloads, .error e)
    | (payloads, .ok rest) =>
      let later := receive rest chunks
      (payloads ++ later.1, later.2)

variable {d}

theorem drain_incomplete {buf : List B} (h : d.look buf = .incomplete) :
    drain d buf = ([], .ok buf) := by
  rw [drain]
  split <;> simp_all

theorem drain_error {buf : List B} {e : E} (h : d.look buf = .error e) :
    drain d buf = ([], .error e) := by
  rw [drain]
  split <;> simp_all

theorem drain_frame {buf : List B} {payload : P} {consumed : Nat}
    (h : d.look buf = .frame payload consumed) :
    drain d buf =
      (payload :: (drain d (buf.drop consumed)).1, (drain d (buf.drop consumed)).2) := by
  rw [drain]
  split <;> simp_all

def Settled (d : Decoder B P E) (buf : List B) : Prop := d.look buf = .incomplete

theorem settled_nil : Settled d [] := d.look_nil

theorem drain_settled {buf rest : List B} (kept : (drain d buf).2 = .ok rest) : Settled d rest := by
  induction buf using drain.induct d with
  | case1 buf h =>
    rw [drain_incomplete h] at kept
    cases kept
    exact h
  | case2 buf e h =>
    rw [drain_error h] at kept
    cases kept
  | case3 buf payload consumed h ih =>
    rw [drain_frame h] at kept
    exact ih kept

/-- The loop on a longer buffer: deliver what was complete, then go on from what was kept. -/
theorem drain_append (buf more : List B) :
    drain d (buf ++ more) =
      match drain d buf with
      | (payloads, .error e) => (payloads, .error e)
      | (payloads, .ok rest) =>
        (payloads ++ (drain d (rest ++ more)).1, (drain d (rest ++ more)).2) := by
  induction buf using drain.induct d with
  | case1 buf h => simp only [drain_incomplete h, List.nil_append]
  | case2 buf e h => rw [drain_error h, drain_error (d.error_append more h)]
  | case3 buf payload consumed h ih =>
    have drop : (buf ++ more).drop consumed = buf.drop consumed ++ more :=
      List.drop_append_of_le_length (d.consumed_le h)
    rw [drain_frame h, drain_frame (d.frame_append more h), drop, ih]
    cases drain d (buf.drop consumed) with
    | mk payloads ended =>
      cases ended with
      | error e => rfl
      | ok rest => rfl

theorem receive_eq_drain {buf : List B} (settled : Settled d buf) (chunks : List (List B)) :
    receive d buf chunks = drain d (buf ++ chunks.flatten) := by
  induction chunks generalizing buf with
  | nil => rw [List.flatten_nil, List.append_nil, drain_incomplete settled, receive]
  | cons chunk chunks ih =>
    rw [List.flatten_cons, ← List.append_assoc, drain_append, receive]
    cases first : drain d (buf ++ chunk) with
    | mk payloads ended =>
      cases ended with
      | error e => rfl
      | ok rest =>
        have kept : Settled d rest := drain_settled (by rw [first])
        simp only [ih kept]

theorem receive_congr {chunks chunks' : List (List B)} (same : chunks.flatten = chunks'.flatten) :
    receive d [] chunks = receive d [] chunks' := by
  rw [receive_eq_drain settled_nil, receive_eq_drain settled_nil, same]

theorem drain_frames (encode : P → List B) {payloads : List P}
    (round_trip : ∀ p ∈ payloads, ∀ more, d.look (encode p ++ more) = .frame p (encode p).length) :
    drain d (payloads.map encode).flatten = (payloads, .ok []) := by
  induction payloads with
  | nil => exact drain_incomplete d.look_nil
  | cons p ps ih =>
    have rest := ih (fun q member => round_trip q (List.mem_cons_of_mem p member))
    rw [List.map_cons, List.flatten_cons, drain_frame (round_trip p List.mem_cons_self _),
      List.drop_left, rest]

theorem drain_front {buf more rest : List B} {payloads : List P}
    (whole : drain d (buf ++ more) = (payloads, .ok rest)) :
    ∃ front kept, drain d buf = (front, .ok kept) ∧ front <+: payloads := by
  rw [drain_append] at whole
  cases first : drain d buf with
  | mk front ended =>
    rw [first] at whole
    cases ended with
    | error e => cases whole
    | ok kept => exact ⟨front, kept, rfl, _, congrArg Prod.fst whole⟩

end Framing
