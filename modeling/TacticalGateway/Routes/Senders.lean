import TacticalGateway.Lib.Execution
import TacticalGateway.Lib.Positions
import TacticalGateway.Lib.Text

/-! The TCP sender of a destination: calls wait for its lock, the holder connects where there is no
connection to write to, writes its message and awaits the drain. Messages that fail are dropped. -/
namespace TacticalGateway.Routes.TcpSender
open Text Execution

inductive Operation where
  | send (data : Bytes)
  | close

structure Connection where
  written : List Bytes
  closing : Bool

/-- What the holder of the lock awaits: a new connection, its turn once this is made, the drain of
its message, or the end of the connection it has closed. -/
inductive Stage where
  | connecting
  | connected (i : Nat)
  | draining
  | closing

/-- A call is its position in `calls`. The last three fields record the history: the messages
written, those written to a connection that was closing, and how each call ended. -/
structure State where
  writer : Option Nat
  holder : Option (Nat × Stage)
  waiting : List Nat
  connections : List Connection
  calls : List Operation
  wrote : List (Nat × Bytes)
  dropped : List (Nat × Bytes)
  ended : List (Nat × Bool)

inductive Event where
  | call (op : Operation)
  | grant
  | connection (made : Bool)
  | resume
  | drained (ok : Bool)
  | closed
  | lost (i : Nat)
  | cancel (id : Nat)

def start : State := ⟨none, none, [], [], [], [], [], []⟩

def Connection.write (data : Bytes) (c : Connection) : Connection :=
  { c with written := c.written ++ [data] }

def Connection.close (c : Connection) : Connection := { c with closing := true }

namespace State

def isClosing (s : State) (i : Nat) : Bool := (s.connections[i]?).any Connection.closing

def release (s : State) (id : Nat) (ok : Bool) : State :=
  { s with holder := none, ended := s.ended ++ [(id, ok)] }

/-- `write` and the start of `drain`. A transport that is closing takes no more data. -/
def write (s : State) (i id : Nat) (data : Bytes) : State :=
  if s.isClosing i then
    { s with holder := some (id, .draining), dropped := s.dropped ++ [(id, data)] }
  else
    { s with
      holder := some (id, .draining)
      connections := s.connections.modify i (Connection.write data)
      wrote := s.wrote ++ [(id, data)] }

/-- A call from where it has the lock up to its next await. -/
def enter (s : State) (id : Nat) : Operation → State
  | .send data =>
    match s.writer with
    | none => { s with holder := some (id, .connecting) }
    | some i =>
      if s.isClosing i then { s with holder := some (id, .connecting) } else s.write i id data
  | .close =>
    match s.writer with
    | none => s.release id true
    | some i =>
      { s with
        holder := some (id, .closing)
        connections := s.connections.modify i Connection.close }

end State

/-- The lock is free for a new call only where none waits, and else goes to the call that has
waited longest. -/
def step (s : State) : Event → Option State
  | .call op =>
    let asked := { s with calls := s.calls ++ [op] }
    if s.holder.isNone && s.waiting.isEmpty then some (asked.enter s.calls.length op)
    else some { asked with waiting := s.waiting ++ [s.calls.length] }
  | .grant =>
    match s.holder, s.waiting with
    | none, id :: rest =>
      (s.calls[id]?).map (fun op => State.enter { s with waiting := rest } id op)
    | _, _ => none
  | .connection made =>
    match s.holder with
    | some (id, .connecting) =>
      if made then
        some
          { s with
            connections := s.connections ++ [⟨[], false⟩]
            holder := some (id, .connected s.connections.length) }
      else some (s.release id false)
    | _ => none
  | .resume =>
    match s.holder with
    | some (id, .connected i) =>
      match s.calls[id]? with
      | some (.send data) => some (State.write { s with writer := some i } i id data)
      | _ => none
    | _ => none
  | .drained ok =>
    match s.holder with
    | some (id, .draining) => some (s.release id ok)
    | _ => none
  | .closed =>
    match s.holder with
    | some (id, .closing) => some { s.release id true with writer := none }
    | _ => none
  | .lost i => some { s with connections := s.connections.modify i Connection.close }
  | .cancel id =>
    match s.holder with
    | some (holder, _) =>
      if holder = id then some (s.release id false)
      else if id ∈ s.waiting then
        some { s with waiting := s.waiting.erase id, ended := s.ended ++ [(id, false)] }
      else none
    | none =>
      if id ∈ s.waiting then
        some { s with waiting := s.waiting.erase id, ended := s.ended ++ [(id, false)] }
      else none

def Operation.data? : Operation → Option Bytes
  | .send data => some data
  | .close => none

/-- The holder of the lock while it has not written. -/
def State.ahead (s : State) : List Nat :=
  match s.holder with
  | some (id, .connecting) => [id]
  | some (id, .connected _) => [id]
  | _ => []

/-- The message of the call was written, or was dropped by a connection that was closing. -/
def State.Passed (s : State) (id : Nat) : Prop :=
  id < s.calls.length ∧
    ∀ data, s.calls[id]? = some (.send data) → (id, data) ∈ s.wrote ++ s.dropped

structure Sound (s : State) : Prop where
  lines : s.connections.flatMap Connection.written = s.wrote.map Prod.snd
  asked : ∀ w ∈ s.wrote ++ s.dropped, s.calls[w.1]? = some (.send w.2)
  order : (s.wrote.map Prod.fst ++ (s.ahead ++ s.waiting)).Pairwise (· < ·)
  known : ∀ id ∈ s.ahead ++ s.waiting, id < s.calls.length
  newest : ∀ i, s.writer = some i → s.isClosing i = false → i + 1 = s.connections.length
  made : ∀ id i, s.holder = some (id, .connected i) → i + 1 = s.connections.length
  replaced : s.ahead ≠ [] → ∀ i, s.writer = some i → s.isClosing i = true
  passed : ∀ id stage, s.holder = some (id, stage) → s.ahead = [] → s.Passed id
  returned : ∀ id, (id, true) ∈ s.ended → s.Passed id

section
variable {s t : State}

theorem written_close (connections : List Connection) (i : Nat) :
    (connections.modify i Connection.close).flatMap Connection.written =
      connections.flatMap Connection.written := by
  induction connections generalizing i with
  | nil => simp
  | cons c connections ih =>
    cases i with
    | zero => rfl
    | succ i => simp only [List.modify_succ_cons, List.flatMap_cons, ih]

/-- The newest connection is the last of all, so what is written to it comes last. -/
theorem written_newest {connections : List Connection} {i : Nat}
    (newest : i + 1 = connections.length) (data : Bytes) :
    (connections.modify i (Connection.write data)).flatMap Connection.written =
      connections.flatMap Connection.written ++ [data] := by
  induction connections generalizing i with
  | nil => cases newest
  | cons c connections ih =>
    cases i with
    | zero =>
      have alone : connections = [] := List.length_eq_zero_iff.mp (by simpa using newest.symm)
      subst alone
      simp [Connection.write]
    | succ i =>
      simp only [List.modify_succ_cons, List.flatMap_cons, ih (Nat.succ.inj newest),
        List.append_assoc]

theorem isClosing_close (i j : Nat)
    (still :
      ({ s with connections := s.connections.modify j Connection.close } : State).isClosing i =
        false) : s.isClosing i = false := by
  unfold State.isClosing at still ⊢
  rw [List.getElem?_modify] at still
  cases found : s.connections[i]? with
  | none => rfl
  | some c =>
    rw [found] at still
    by_cases same : j = i
    · simp [same, Connection.close] at still
    · simpa [same] using still

theorem closing_write (connections : List Connection) (i j : Nat) (data : Bytes) :
    ((connections.modify j (Connection.write data))[i]?).any Connection.closing =
      (connections[i]?).any Connection.closing := by
  rw [List.getElem?_modify]
  cases connections[i]? with
  | none => rfl
  | some c => by_cases same : j = i <;> simp [same, Connection.write]

theorem sound_start : Sound start where
  lines := rfl
  asked := nofun
  order := .nil
  known := nofun
  newest := nofun
  made := nofun
  replaced := nofun
  passed := nofun
  returned := nofun

theorem State.Passed.call {id : Nat} (passed : s.Passed id) (op : Operation) :
    ({ s with calls := s.calls ++ [op] } : State).Passed id := by
  refine ⟨Nat.lt_of_lt_of_le passed.1 (by simp), ?_⟩
  intro data asked
  apply passed.2
  simpa [List.getElem?_append_left passed.1] using asked

theorem State.Passed.more {id : Nat} (passed : s.Passed id) (calls : t.calls = s.calls)
    (more : s.wrote ++ s.dropped ⊆ t.wrote ++ t.dropped) : t.Passed id :=
  ⟨calls ▸ passed.1, fun data asked => more (passed.2 data (calls ▸ asked))⟩

theorem sound_call (h : Sound s) (op : Operation) :
    Sound { s with calls := s.calls ++ [op] } where
  lines := h.lines
  asked w member := by
    have asked := h.asked w member
    simpa [List.getElem?_append_left (List.getElem?_eq_some_iff.mp asked).1] using asked
  order := h.order
  known id member := Nat.lt_of_lt_of_le (h.known id member) (by simp)
  newest := h.newest
  made := h.made
  replaced := h.replaced
  passed id stage holds ended := (h.passed id stage holds ended).call op
  returned id ended := (h.returned id ended).call op

theorem sound_release (h : Sound s) {id : Nat} {ok : Bool} (passed : ok = true → s.Passed id) :
    Sound (s.release id ok) where
  lines := h.lines
  asked := h.asked
  order := h.order.sublist ((List.sublist_append_right _ _).append_left _)
  known id member := h.known id (List.mem_append_right _ member)
  newest := h.newest
  made := nofun
  replaced := nofun
  passed := nofun
  returned id' ended := by
    rcases List.mem_append.mp ended with before | last
    · exact h.returned id' before
    · cases List.mem_singleton.mp last
      exact passed rfl

theorem sound_lost (h : Sound s) (i : Nat) :
    Sound { s with connections := s.connections.modify i Connection.close } where
  lines := by rw [written_close, h.lines]
  asked := h.asked
  order := h.order
  known := h.known
  newest j writes still := by
    rw [List.length_modify]
    exact h.newest j writes (isClosing_close j i still)
  made id j connected := by
    rw [List.length_modify]
    exact h.made id j connected
  replaced ahead j writes := by
    by_contra still
    have before := h.replaced ahead j writes
    rw [isClosing_close j i (by simpa using still)] at before
    cases before
  passed := h.passed
  returned := h.returned

theorem order_front (h : Sound s) {id : Nat} (front : ∀ w ∈ s.wrote, w.1 < id)
    (behind : ∀ v ∈ s.waiting, id < v) :
    (s.wrote.map Prod.fst ++ ([id] ++ s.waiting)).Pairwise (· < ·) := by
  obtain ⟨written, later, apart⟩ := List.pairwise_append.mp h.order
  refine List.pairwise_append.mpr ⟨written, .cons behind (List.pairwise_append.mp later).2.1, ?_⟩
  intro w member v among
  rcases List.mem_cons.mp among with rfl | waits
  · obtain ⟨x, own, rfl⟩ := List.mem_map.mp member
    exact front x own
  · exact apart w member v (List.mem_append_right _ waits)

theorem sound_write (h : Sound s) {i id : Nat} {data : Bytes}
    (newest : s.isClosing i = false → i + 1 = s.connections.length)
    (front : ∀ w ∈ s.wrote, w.1 < id) (behind : ∀ v ∈ s.waiting, id < v)
    (asked : s.calls[id]? = some (.send data)) : Sound (s.write i id data) := by
  have order := order_front h front behind
  have own {list : List (Nat × Bytes)} (here : (id, data) ∈ list) (data' : Bytes)
      (same : s.calls[id]? = some (.send data')) : (id, data') ∈ list := by
    rw [asked] at same
    cases same
    exact here
  have bound := (List.getElem?_eq_some_iff.mp asked).1
  have later (w : Nat × Bytes) (member : w ∈ s.wrote ++ s.dropped ∨ w = (id, data)) :
      s.calls[w.1]? = some (.send w.2) := by
    rcases member with before | rfl
    · exact h.asked w before
    · exact asked
  unfold State.write
  split
  · have last : (id, data) ∈ s.wrote ++ (s.dropped ++ [(id, data)]) := by simp
    have more : s.wrote ++ s.dropped ⊆ s.wrote ++ (s.dropped ++ [(id, data)]) := by
      simp [← List.append_assoc]
    constructor
    case lines => exact h.lines
    case asked => exact fun w member => later w (by simpa [or_assoc] using member)
    case order => exact order.sublist ((List.sublist_append_right _ _).append_left _)
    case known => exact fun v member => h.known v (List.mem_append_right _ member)
    case newest => exact h.newest
    case made => nofun
    case replaced => nofun
    case passed =>
      rintro _ _ ⟨⟩ _
      exact ⟨bound, own last⟩
    case returned => exact fun v ended => (h.returned v ended).more rfl more
  · rename_i writable
    have last : (id, data) ∈ s.wrote ++ [(id, data)] ++ s.dropped := by simp
    have more : s.wrote ++ s.dropped ⊆ s.wrote ++ [(id, data)] ++ s.dropped := by
      intro w member
      simp only [List.mem_append] at member ⊢
      exact member.imp_left .inl
    constructor
    case lines =>
      rw [written_newest (newest (by simpa using writable)), h.lines, List.map_append]
      rfl
    case asked =>
      intro w member
      apply later w
      simp only [List.mem_append, List.mem_singleton] at member ⊢
      tauto
    case order =>
      rw [List.map_append, List.append_assoc]
      exact order
    case known => exact fun v member => h.known v (List.mem_append_right _ member)
    case newest =>
      intro j writes still
      rw [State.isClosing, closing_write] at still
      rw [List.length_modify]
      exact h.newest j writes still
    case made => nofun
    case replaced => nofun
    case passed =>
      rintro _ _ ⟨⟩ _
      exact ⟨bound, own last⟩
    case returned => exact fun v ended => (h.returned v ended).more rfl more

theorem sound_connecting (h : Sound s) {id : Nat} (front : ∀ w ∈ s.wrote, w.1 < id)
    (behind : ∀ v ∈ s.waiting, id < v) (bound : id < s.calls.length)
    (replaced : ∀ i, s.writer = some i → s.isClosing i = true) :
    Sound { s with holder := some (id, .connecting) } where
  lines := h.lines
  asked := h.asked
  order := order_front h front behind
  known v member := by
    rcases List.mem_cons.mp member with rfl | waits
    · exact bound
    · exact h.known v (List.mem_append_right _ waits)
  newest := h.newest
  made := nofun
  replaced _ := replaced
  passed _ _ _ ended := by cases ended
  returned := h.returned

theorem sound_enter (h : Sound s) {id : Nat} {op : Operation}
    (front : ∀ w ∈ s.wrote, w.1 < id) (behind : ∀ v ∈ s.waiting, id < v)
    (asked : s.calls[id]? = some op) : Sound (s.enter id op) := by
  have bound := (List.getElem?_eq_some_iff.mp asked).1
  cases op with
  | send data =>
    simp only [State.enter]
    split
    · rename_i no_writer
      exact sound_connecting h front behind bound (by simp [no_writer])
    · rename_i i writer
      split
      · rename_i closing
        exact sound_connecting h front behind bound (by simp [writer, closing])
      · exact sound_write h (h.newest i writer) front behind asked
  | close =>
    have passed : s.Passed id := by
      refine ⟨bound, ?_⟩
      intro data same
      rw [asked] at same
      cases same
    simp only [State.enter]
    split
    · exact sound_release h fun _ => passed
    · rename_i i writer
      have lost := sound_lost h i
      constructor
      case order => exact lost.order.sublist ((List.sublist_append_right _ _).append_left _)
      case known => exact fun v member => h.known v (List.mem_append_right _ member)
      case made => nofun
      case replaced => nofun
      case passed =>
        rintro _ _ ⟨⟩ _
        exact passed
      case lines => exact lost.lines
      case asked => exact lost.asked
      case newest => exact lost.newest
      case returned => exact lost.returned

theorem sound_wait (h : Sound s) (op : Operation) :
    Sound { s with calls := s.calls ++ [op], waiting := s.waiting ++ [s.calls.length] } := by
  have called := sound_call h op
  constructor
  case order =>
    have last :=
      List.pairwise_append.mpr ⟨called.order, List.pairwise_singleton _ s.calls.length, ?_⟩
    · rw [List.append_assoc, List.append_assoc] at last
      exact last
    · intro v member w new
      cases List.mem_singleton.mp new
      rcases List.mem_append.mp member with wrote | known
      · obtain ⟨x, own, rfl⟩ := List.mem_map.mp wrote
        exact (List.getElem?_eq_some_iff.mp (h.asked x (List.mem_append_left _ own))).1
      · exact h.known v known
  case known =>
    intro v member
    rw [← List.append_assoc] at member
    rcases List.mem_append.mp member with before | last
    · exact called.known v before
    · rw [List.mem_singleton.mp last]
      simp
  case lines => exact called.lines
  case asked => exact called.asked
  case newest => exact called.newest
  case made => exact called.made
  case replaced => exact called.replaced
  case passed => exact called.passed
  case returned => exact called.returned

theorem sound_fewer (h : Sound s) {waiting : List Nat} (fewer : waiting.Sublist s.waiting) :
    Sound { s with waiting := waiting } where
  lines := h.lines
  asked := h.asked
  order := h.order.sublist ((fewer.append_left _).append_left _)
  known v member := h.known v ((fewer.append_left _).subset member)
  newest := h.newest
  made := h.made
  replaced := h.replaced
  passed := h.passed
  returned := h.returned

theorem sound_leave (h : Sound s) (id : Nat) :
    Sound { s with waiting := s.waiting.erase id, ended := s.ended ++ [(id, false)] } := by
  have left := sound_fewer h (List.erase_sublist (a := id))
  refine ⟨left.lines, left.asked, left.order, left.known, left.newest, left.made, left.replaced,
    left.passed, ?_⟩
  intro v ended
  rcases List.mem_append.mp ended with before | last
  · exact left.returned v before
  · cases List.mem_singleton.mp last

theorem sound_made (h : Sound s) {id : Nat} (now : s.holder = some (id, .connecting)) :
    Sound
      { s with
        connections := s.connections ++ [⟨[], false⟩]
        holder := some (id, .connected s.connections.length) } := by
  have ahead : s.ahead = [id] := by rw [State.ahead, now]
  have order := h.order
  have known := h.known
  rw [ahead] at order known
  have closing (i : Nat) (writes : s.writer = some i) :
      ((s.connections ++ [⟨[], false⟩])[i]?).any Connection.closing = true := by
    have replaced := h.replaced (by simp [ahead]) i writes
    unfold State.isClosing at replaced
    cases found : s.connections[i]? with
    | none =>
      rw [found] at replaced
      cases replaced
    | some c =>
      rw [List.getElem?_append_left (List.getElem?_eq_some_iff.mp found).1]
      exact replaced
  constructor
  case lines => simpa using h.lines
  case asked => exact h.asked
  case order => exact order
  case known => exact known
  case newest =>
    intro i writes still
    exact absurd ((closing i writes).symm.trans still) (by decide)
  case made =>
    rintro _ _ ⟨⟩
    simp
  case replaced => exact fun _ i writes => closing i writes
  case passed => exact fun _ _ _ ended => by cases ended
  case returned => exact h.returned

theorem sound_resume (h : Sound s) {id i : Nat} {data : Bytes}
    (now : s.holder = some (id, .connected i)) (asked : s.calls[id]? = some (.send data)) :
    Sound (State.write { s with writer := some i } i id data) := by
  have newest := h.made id i now
  have order := h.order
  rw [State.ahead, now] at order
  obtain ⟨_, queue, apart⟩ := List.pairwise_append.mp order
  have released : Sound { s with holder := none, writer := some i } := by
    have free : Sound (s.release id false) := sound_release h nofun
    constructor
    case newest =>
      rintro _ ⟨⟩ _
      exact newest
    case lines => exact free.lines
    case asked => exact free.asked
    case order => exact free.order
    case known => exact free.known
    case made => nofun
    case replaced => nofun
    case passed => nofun
    case returned => exact h.returned
  exact sound_write released (fun _ => newest)
    (fun w member => apart w.1 (List.mem_map_of_mem member) id List.mem_cons_self)
    (List.pairwise_cons.mp queue).1 asked

theorem sound_step {e : Event} (h : Sound s) (stepped : step s e = some t) : Sound t := by
  cases e with
  | call op =>
    simp only [step] at stepped
    have fresh (w : Nat × Bytes) (member : w ∈ s.wrote) : w.1 < s.calls.length :=
      (List.getElem?_eq_some_iff.mp (h.asked w (List.mem_append_left _ member))).1
    split at stepped
    · rename_i free
      cases stepped
      simp only [Bool.and_eq_true, Option.isNone_iff_eq_none, List.isEmpty_iff] at free
      refine sound_enter (sound_call h op) fresh ?_ (by simp)
      simp [free.2]
    · cases stepped
      exact sound_wait h op
  | grant =>
    simp only [step] at stepped
    split at stepped
    · rename_i id rest free waits
      obtain ⟨op, asked, rfl⟩ := Option.map_eq_some_iff.mp stepped
      have order := h.order
      simp only [State.ahead, free, List.nil_append, waits] at order
      obtain ⟨_, queue, apart⟩ := List.pairwise_append.mp order
      have fewer : rest.Sublist s.waiting := waits ▸ List.sublist_cons_self id rest
      refine sound_enter (sound_fewer h fewer) ?_ (List.pairwise_cons.mp queue).1 asked
      exact fun w member => apart w.1 (List.mem_map_of_mem member) id List.mem_cons_self
    · cases stepped
  | connection made =>
    simp only [step] at stepped
    split at stepped
    · rename_i id now
      split at stepped
      · cases stepped
        exact sound_made h now
      · cases stepped
        exact sound_release h nofun
    · cases stepped
  | resume =>
    simp only [step] at stepped
    split at stepped
    · rename_i id i now
      split at stepped
      · rename_i data asked
        cases stepped
        exact sound_resume h now asked
      · cases stepped
    · cases stepped
  | drained ok =>
    simp only [step] at stepped
    split at stepped
    · rename_i id now
      cases stepped
      exact sound_release h fun _ => h.passed id _ now (by rw [State.ahead, now])
    · cases stepped
  | closed =>
    simp only [step] at stepped
    split at stepped
    · rename_i id now
      cases stepped
      have free : Sound (s.release id true) :=
        sound_release h fun _ => h.passed id _ now (by rw [State.ahead, now])
      exact ⟨free.lines, free.asked, free.order, free.known, nofun, nofun, nofun, nofun,
        free.returned⟩
    · cases stepped
  | lost i =>
    cases stepped
    exact sound_lost h i
  | cancel id =>
    simp only [step] at stepped
    split at stepped
    · split at stepped
      · cases stepped
        exact sound_release h nofun
      · split at stepped
        · cases stepped
          exact sound_leave h id
        · cases stepped
    · split at stepped
      · cases stepped
        exact sound_leave h id
      · cases stepped

def Event.asked : Event → List Operation
  | .call op => [op]
  | _ => []

theorem calls_write (s : State) (i id : Nat) (data : Bytes) :
    (s.write i id data).calls = s.calls := by
  unfold State.write
  split <;> rfl

theorem calls_enter (s : State) (id : Nat) (op : Operation) : (s.enter id op).calls = s.calls := by
  unfold State.enter
  split
  · split
    · rfl
    · split
      · rfl
      · exact calls_write _ _ _ _
  · split <;> rfl

theorem step_calls {e : Event} (stepped : step s e = some t) : t.calls = s.calls ++ e.asked := by
  cases e with
  | call op =>
    simp only [step] at stepped
    split at stepped
    · cases stepped
      exact calls_enter _ _ _
    · cases stepped
      rfl
  | grant =>
    simp only [step] at stepped
    split at stepped
    · obtain ⟨op, asked, rfl⟩ := Option.map_eq_some_iff.mp stepped
      rw [calls_enter]
      exact (List.append_nil _).symm
    · cases stepped
  | resume =>
    simp only [step] at stepped
    split at stepped
    · split at stepped
      · cases stepped
        rw [calls_write]
        exact (List.append_nil _).symm
      · cases stepped
    · cases stepped
  | _ =>
    simp only [step] at stepped
    repeat' split at stepped
    all_goals cases stepped
    all_goals exact (List.append_nil _).symm

theorem sound_run {events : List Event} (reached : run step start events = some s) : Sound s :=
  state_invariant Sound sound_start (fun _ _ _ h _ stepped => sound_step h stepped)
    (along_true _ _ _) reached

theorem Sound.increasing (h : Sound s) : (s.wrote.map Prod.fst).Pairwise (· < ·) :=
  (List.pairwise_append.mp h.order).1

theorem Sound.sublist (h : Sound s) :
    (s.connections.flatMap Connection.written).Sublist (s.calls.filterMap Operation.data?) := by
  have positions : ((s.wrote.map Prod.snd).map Operation.send).Sublist s.calls := by
    have placed : ((s.wrote.map (fun w => (w.1, Operation.send w.2))).map Prod.snd).Sublist
        s.calls := by
      apply Positions.sublist
      · rw [List.map_map]
        exact h.increasing
      · intro p member
        obtain ⟨w, own, rfl⟩ := List.mem_map.mp member
        exact h.asked w (List.mem_append_left _ own)
    rw [List.map_map] at placed ⊢
    exact placed
  have sends := positions.filterMap Operation.data?
  rw [List.filterMap_map] at sends
  rw [h.lines]
  simpa [Function.comp_def, Operation.data?] using sends

end

/-- However calls, failures and cancellations interleave: the connections, one after the other,
carry whole messages, in the order of the calls and none twice, and a `send` that returned has
written its message unless its connection was closing. -/
theorem messages_in_order (events : List Event) (s : State)
    (reached : run step start events = some s) :
    (s.connections.flatMap Connection.written).Sublist (s.calls.filterMap Operation.data?) ∧
      s.connections.flatMap Connection.written = s.wrote.map Prod.snd ∧
      ∀ id data, (id, true) ∈ s.ended → s.calls[id]? = some (.send data) →
        (id, data) ∈ s.wrote ∨ (id, data) ∈ s.dropped := by
  have h := sound_run reached
  refine ⟨h.sublist, h.lines, ?_⟩
  intro id data ended asked
  exact List.mem_append.mp ((h.returned id ended).2 data asked)

/-- The second message is lost with the first connection, the third goes over a new one. -/
def reconnecting : List Event :=
  [.call (.send [1]), .call (.send [2]), .connection true, .resume, .drained true, .grant, .lost 0,
    .drained false, .call (.send [3]), .connection true, .resume, .drained true]

theorem messages_in_order_reconnecting :
    ∃ s, run step start reconnecting = some s ∧
      s.connections.map Connection.written = [[[1], [2]], [[3]]] ∧
      (s.connections.flatMap Connection.written).Sublist (s.calls.filterMap Operation.data?) ∧
      s.connections.flatMap Connection.written = s.wrote.map Prod.snd ∧
      ∀ id data, (id, true) ∈ s.ended → s.calls[id]? = some (.send data) →
        (id, data) ∈ s.wrote ∨ (id, data) ∈ s.dropped :=
  ⟨_, rfl, rfl, messages_in_order reconnecting _ rfl⟩

end TacticalGateway.Routes.TcpSender
