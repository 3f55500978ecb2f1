import Mathlib

/-! Lists of records linked by digests: each record names the digest of the record
before it and carries the digest of its own payload. Nothing is assumed of the
hash function; what a forger would have to find is a disjunct of the conclusion. -/
namespace Linked

variable {A P D : Type*}

structure Link (P D : Type*) where
  prev : D
  payload : P
  own : D

/-- The forward scan: each link names the digest before it and its own digest is right. -/
def Accepted (hash : P → D) (link : A → Link P D) : D → List A → Prop
  | _, [] => True
  | prev, e :: es =>
    (link e).prev = prev ∧ (link e).own = hash (link e).payload ∧
      Accepted hash link (link e).own es

def tip (link : A → Link P D) (genesis : D) (es : List A) : D :=
  (es.getLast?.map (fun e => (link e).own)).getD genesis

@[simp] theorem tip_nil (link : A → Link P D) (genesis : D) : tip link genesis [] = genesis := rfl

@[simp] theorem tip_concat (link : A → Link P D) (genesis : D) (es : List A) (e : A) :
    tip link genesis (es ++ [e]) = (link e).own := by
  simp [tip]

theorem tip_cons (link : A → Link P D) (genesis : D) (e : A) (es : List A) :
    tip link genesis (e :: es) = tip link (link e).own es := by
  rw [tip, tip, List.getLast?_cons]
  cases es.getLast? with
  | none => rfl
  | some f => rfl

theorem accepted_append (hash : P → D) (link : A → Link P D) (genesis : D) (es fs : List A) :
    Accepted hash link genesis (es ++ fs) ↔
      Accepted hash link genesis es ∧ Accepted hash link (tip link genesis es) fs := by
  induction es generalizing genesis with
  | nil => simp [Accepted]
  | cons e es ih => simp only [List.cons_append, Accepted, ih, tip_cons, and_assoc]

theorem accepted_concat (hash : P → D) (link : A → Link P D) (genesis : D) (es : List A) (e : A) :
    Accepted hash link genesis (es ++ [e]) ↔
      Accepted hash link genesis es ∧ (link e).prev = tip link genesis es ∧
        (link e).own = hash (link e).payload := by
  rw [accepted_append]
  simp [Accepted]

theorem prev_of_accepted {hash : P → D} {link : A → Link P D} {genesis : D} {es : List A}
    (accepted : Accepted hash link genesis es) {e : A} (member : e ∈ es) :
    (link e).prev = genesis ∨ ∃ p, (link e).prev = hash p := by
  induction es generalizing genesis with
  | nil => cases member
  | cons first es ih =>
    obtain ⟨prev, own, rest⟩ := accepted
    rcases List.mem_cons.mp member with rfl | later
    · exact .inl prev
    · rcases ih rest later with start | hashed
      · exact .inr ⟨_, start.trans own⟩
      · exact .inr hashed

/-- Two different payloads of the list have one digest. -/
def Collision (hash : P → D) (payloads : List P) : Prop :=
  ∃ p ∈ payloads, ∃ q ∈ payloads, p ≠ q ∧ hash p = hash q

/-- Some payload of the list hashes to the value that stands for "no record before". -/
def Preimage (hash : P → D) (genesis : D) (payloads : List P) : Prop :=
  ∃ p ∈ payloads, hash p = genesis

theorem Collision.mono {hash : P → D} {ps qs : List P} (sub : ps ⊆ qs) (h : Collision hash ps) :
    Collision hash qs := by
  obtain ⟨p, hp, q, hq, different, same⟩ := h
  exact ⟨p, sub hp, q, sub hq, different, same⟩

theorem Preimage.mono {hash : P → D} {genesis : D} {ps qs : List P} (sub : ps ⊆ qs)
    (h : Preimage hash genesis ps) : Preimage hash genesis qs := by
  obtain ⟨p, hp, same⟩ := h
  exact ⟨p, sub hp, same⟩

theorem preimage_of_tip {hash : P → D} {link : A → Link P D} {genesis : D} {es : List A}
    (accepted : Accepted hash link genesis es) (nonempty : es ≠ [])
    (closed : tip link genesis es = genesis) :
    Preimage hash genesis (es.map (fun e => (link e).payload)) := by
  induction es using List.reverseRecOn with
  | nil => exact absurd rfl nonempty
  | append_singleton es e _ =>
    have last := ((accepted_concat hash link genesis es e).mp accepted).2.2
    rw [tip_concat, last] at closed
    exact ⟨(link e).payload, by simp, closed⟩

/-- Backwards from a common tip: the two lists carry the same payloads, or a collision
or a preimage of the genesis digest is among them. The payload has to determine the
digest it was built on. -/
theorem common_tip (hash : P → D) (link : A → Link P D) (genesis : D) (es fs : List A)
    (accepted_es : Accepted hash link genesis es) (accepted_fs : Accepted hash link genesis fs)
    (binding : ∀ e ∈ es, ∀ f ∈ fs, (link e).payload = (link f).payload →
    (link e).prev = (link f).prev)
    (same_tip : tip link genesis es = tip link genesis fs) :
    es.map (fun e => (link e).payload) = fs.map (fun f => (link f).payload) ∨
      Collision hash ((es ++ fs).map (fun e => (link e).payload)) ∨
      Preimage hash genesis ((es ++ fs).map (fun e => (link e).payload)) := by
  induction es using List.reverseRecOn generalizing fs with
  | nil =>
    cases fs with
    | nil => exact .inl rfl
    | cons f fs => exact .inr (.inr (preimage_of_tip accepted_fs (by simp) same_tip.symm))
  | append_singleton es e ih =>
    cases fs using List.reverseRecOn with
    | nil =>
      have found := preimage_of_tip accepted_es (by simp) same_tip
      exact .inr (.inr (by simpa using found))
    | append_singleton fs f =>
      obtain ⟨before_e, prev_e, own_e⟩ := (accepted_concat hash link genesis es e).mp accepted_es
      obtain ⟨before_f, prev_f, own_f⟩ := (accepted_concat hash link genesis fs f).mp accepted_fs
      have digests : hash (link e).payload = hash (link f).payload := by
        rw [← own_e, ← own_f, ← tip_concat link genesis es, same_tip, tip_concat]
      by_cases payloads : (link e).payload = (link f).payload
      · have prevs := binding e (by simp) f (by simp) payloads
        have earlier := ih fs before_e before_f
          (fun a ha b hb => binding a (by simp [ha]) b (by simp [hb]))
          (by rw [← prev_e, ← prev_f, prevs])
        have sub : (es ++ fs).map (fun e => (link e).payload) ⊆
            ((es ++ [e]) ++ (fs ++ [f])).map (fun e => (link e).payload) := by
          intro p hp
          simp only [List.map_append, List.mem_append] at hp ⊢
          tauto
        rcases earlier with same | collision | preimage
        · exact .inl (by simp [same, payloads])
        · exact .inr (.inl (collision.mono sub))
        · exact .inr (.inr (preimage.mono sub))
      · exact .inr (.inl ⟨_, by simp, (link f).payload, by simp, payloads, digests⟩)

end Linked
