import TacticalGateway.Lib.Execution
import TacticalGateway.Opstore.Writer

/-! The opstore service: messages are buffered per key, a flusher task writes what has waited for
the batch window, and a stop request ends in a last flush and a drain. Tasks give up control
only where the source awaits, so each event is what runs between two awaits. -/
namespace TacticalGateway.Opstore
open Execution
open Json (Value)

/-- `BATCH_WINDOW_MS`, on a clock that counts nanoseconds. -/
def batchWindow : Nat := 200000000

/-- A batch in its thread, and how the thread has ended if it has. -/
structure Flight where
  ctos : List CTO
  nonempty : ctos ≠ []
  outcome : Option Bool

/-- What the flusher awaits: its start, the end of its sleep, or a write, after which it goes on
with the rest of its ready keys. -/
inductive Flusher where
  | created
  | sleeping (wakeAt : Nat)
  | writing (flight : Flight) (readyKeys : List String)
  | ended

/-- What `run` awaits: the stop request, the end of the cancelled flusher, a write of
`_flush_all`, the drain of the subscription. -/
inductive Phase where
  | serving (flusher : Flusher)
  | stopping
  | flushing (flight : Flight) (keys : List String)
  | draining
  | returned

def Phase.flight : Phase → Option Flight
  | .serving (.writing flight _) => some flight
  | .flushing flight _ => some flight
  | _ => none

def Phase.landed (ok : Bool) : Phase → Phase
  | .serving (.writing flight keys) => .serving (.writing { flight with outcome := some ok } keys)
  | .flushing flight keys => .flushing { flight with outcome := some ok } keys
  | phase => phase

/-- The last three fields record the history: what each flush found under its key, the objects
of writes that raised, and those of a write whose await was cancelled. -/
structure Service where
  clock : Nat
  stop : Bool
  buffer : Dict String (List CTO)
  bufferStartedAt : Dict String Nat
  messagesReceived : Nat
  messagesWritten : Nat
  messagesFailed : Nat
  phase : Phase
  orphan : Option Flight
  db : Database
  taken : List (List CTO)
  raised : List CTO
  abandoned : List CTO

def start (db : Database) : Service :=
  { clock := 0
    stop := false
    buffer := .empty
    bufferStartedAt := .empty
    messagesReceived := 0
    messagesWritten := 0
    messagesFailed := 0
    phase := .serving .created
    orphan := none
    db := db
    taken := []
    raised := []
    abandoned := [] }

def commit (pg : Postgres) (db : Database) (ctos : List CTO) : Option Database :=
  (writeCtosWithSupersession pg db ctos).map Prod.fst

def bufferKey (pg : Postgres) (cto : CTO) : String :=
  let filename := attr cto "parent_kmz_filename"
  if filename.truthy then
    "kmz:" ++ pg.pyStr filename ++ ":" ++ pg.pyStr (attr cto "parent_kmz_source")
  else "stream:" ++ cto.sourceSystem

namespace Service

def invalidMessage (s : Service) : Service :=
  { s with
    messagesReceived := s.messagesReceived + 1
    messagesFailed := s.messagesFailed + 1 }

def bufferCto (s : Service) (key : String) (cto : CTO) : Service :=
  { s with
    messagesReceived := s.messagesReceived + 1
    -- the window of a key starts with the first object of an empty buffer
    bufferStartedAt :=
      if s.buffer.queue key = [] then s.bufferStartedAt.set key s.clock else s.bufferStartedAt
    buffer := s.buffer.push key cto }

/-- `_flush_one` up to its await, which it reaches only for a nonempty buffer. -/
def pop (s : Service) (key : String) : Service :=
  { s with
    buffer := s.buffer.erase key
    bufferStartedAt := s.bufferStartedAt.erase key
    taken := if s.buffer.queue key = [] then s.taken else s.taken ++ [s.buffer.queue key] }

/-- `_flush_one` for one key after the other, up to the first write and with the keys left. -/
def flushNext (s : Service) : List String → Service × Option (Flight × List String)
  | [] => (s, none)
  | key :: keys =>
    if waiting : s.buffer.queue key = [] then flushNext (s.pop key) keys
    else (s.pop key, some (⟨s.buffer.queue key, waiting, none⟩, keys))

/-- The flusher at the head of its loop. -/
def flushLoop (s : Service) : Flusher :=
  if s.stop then .ended else .sleeping (s.clock + batchWindow)

/-- A loop of `_flush_one` over keys: it stops at the first write, or goes on to what is next. -/
def flushKeys (s : Service) (keys : List String) (writing : Flight → List String → Phase)
    (next : Phase) : Service :=
  match s.flushNext keys with
  | (s, some (flight, keys)) => { s with phase := writing flight keys }
  | (s, none) => { s with phase := next }

def readyKeys (s : Service) : List String :=
  (s.bufferStartedAt.items.filter (fun i =>
    batchWindow ≤ s.clock - i.2 && !(s.buffer.queue i.1).isEmpty)).map Prod.fst

def flushReady (s : Service) (keys : List String) : Service :=
  s.flushKeys keys (fun flight keys => .serving (.writing flight keys)) (.serving s.flushLoop)

def flushAll (s : Service) (keys : List String) : Service :=
  s.flushKeys keys .flushing .draining

/-- A thread ends: with its transaction committed, or with an exception and nothing changed. -/
def threadEnds (pg : Postgres) (s : Service) (flight : Flight) (ok : Bool) : Option Service :=
  match flight.outcome, ok with
  | some _, _ => none
  | none, true => (commit pg s.db flight.ctos).map (fun db => { s with db := db })
  | none, false => some { s with raised := s.raised ++ flight.ctos }

def count (s : Service) (flight : Flight) (ok : Bool) : Service :=
  if ok then { s with messagesWritten := s.messagesWritten + flight.ctos.length }
  else { s with messagesFailed := s.messagesFailed + flight.ctos.length }

/-- The flusher is cancelled in its await. A `CancelledError` is no `Exception`, so
`_flush_one` counts nothing for the batch it awaits, whose thread goes on by itself. -/
def cancel (s : Service) : Flusher → Service
  | .writing flight _ =>
    { s with phase := .stopping, orphan := some flight, abandoned := s.abandoned ++ flight.ctos }
  | _ => { s with phase := .stopping }

end Service

inductive Event (M : Type*) where
  | message (msg : M)
  | elapse (dt : Nat)
  | wake
  | writeEnds (ok : Bool)
  | orphanEnds (ok : Bool)
  | resume
  | requestStop
  | cancel
  | flushAll
  | drained

variable {M : Type*}

/-- `_on_message`: decoding and validation of a message is a parameter. -/
def onMessage (validate : M → Option CTO) (pg : Postgres) (s : Service) (msg : M) : Service :=
  match validate msg with
  | none => s.invalidMessage
  | some cto => s.bufferCto (bufferKey pg cto) cto

def step (validate : M → Option CTO) (pg : Postgres) (s : Service) : Event M → Option Service
  | .message msg =>
    match s.phase with
    | .returned => none
    | _ => some (onMessage validate pg s msg)
  | .elapse dt => some { s with clock := s.clock + dt }
  | .wake =>
    match s.phase with
    | .serving .created => some { s with phase := .serving s.flushLoop }
    | .serving (.sleeping wakeAt) =>
      if wakeAt ≤ s.clock then some (s.flushReady s.readyKeys) else none
    | _ => none
  | .writeEnds ok =>
    match s.phase.flight with
    | some flight =>
      (s.threadEnds pg flight ok).map (fun t => { t with phase := s.phase.landed ok })
    | none => none
  | .orphanEnds ok =>
    match s.orphan with
    | some flight =>
      (s.threadEnds pg flight ok).map (fun t =>
        { t with orphan := some { flight with outcome := some ok } })
    | none => none
  | .resume =>
    match s.phase with
    | .serving (.writing flight keys) =>
      flight.outcome.map (fun ok => (s.count flight ok).flushReady keys)
    | .flushing flight keys => flight.outcome.map (fun ok => (s.count flight ok).flushAll keys)
    | _ => none
  | .requestStop => some { s with stop := true }
  | .cancel =>
    match s.phase with
    | .serving flusher => if s.stop then some (s.cancel flusher) else none
    | _ => none
  | .flushAll =>
    match s.phase with
    | .stopping => some (s.flushAll s.buffer.keys)
    | _ => none
  | .drained =>
    match s.phase with
    | .draining => some { s with phase := .returned }
    | _ => none

/-- What `flushNext` does: nothing where no key of the list has a buffer, else it takes the buffer
of the first key that has one. -/
inductive Taking (s : Service) (keys : List String) :
    Service × Option (Flight × List String) → Prop where
  | nothing (buffer : Dict String (List CTO)) (startedAt : Dict String Nat)
      (idle : ∀ k ∈ keys, s.buffer.queue k = [])
      (same : ∀ k, buffer.queue k = s.buffer.queue k)
      (left : buffer.contents.Perm s.buffer.contents) :
      Taking s keys ({ s with buffer := buffer, bufferStartedAt := startedAt }, none)
  | batch (buffer : Dict String (List CTO)) (startedAt : Dict String Nat)
      (skipped : List String) (key : String) (rest : List String)
      (waiting : s.buffer.queue key ≠ [])
      (listed : keys = skipped ++ key :: rest)
      (idle : ∀ k ∈ skipped, s.buffer.queue k = [])
      (popped : buffer.queue key = [])
      (same : ∀ k, k ≠ key → buffer.queue k = s.buffer.queue k)
      (left : (s.buffer.queue key ++ buffer.contents).Perm s.buffer.contents) :
      Taking s keys
        ({ s with buffer := buffer, bufferStartedAt := startedAt,
                  taken := s.taken ++ [s.buffer.queue key] },
          some (⟨s.buffer.queue key, waiting, none⟩, rest))

theorem queue_pop_idle {s : Service} {key : String} (idle : s.buffer.queue key = []) (k : String) :
    (s.pop key).buffer.queue k = s.buffer.queue k := by
  by_cases same : k = key
  · subst same
    rw [idle]
    exact Dict.queue_erase_self _ _
  · exact Dict.queue_erase_ne _ same

theorem taking_skip {s : Service} {key : String} {keys : List String}
    {result : Service × Option (Flight × List String)} (idle : s.buffer.queue key = [])
    (taking : Taking (s.pop key) keys result) : Taking s (key :: keys) result := by
  have same := queue_pop_idle idle
  have kept : (s.pop key).taken = s.taken := if_pos idle
  have left := Dict.contents_erase_perm s.buffer key
  rw [idle, List.nil_append] at left
  have none_before {passed : List String}
    (none_left : ∀ k ∈ passed, (s.pop key).buffer.queue k = []) :
      ∀ k ∈ key :: passed, s.buffer.queue k = [] := by
    intro k member
    rcases List.mem_cons.mp member with rfl | later
    · exact idle
    · exact (same k).symm.trans (none_left k later)
  cases taking with
  | nothing buffer startedAt none_left same' left' =>
    have unchanged : ({ s.pop key with buffer := buffer, bufferStartedAt := startedAt } : Service) =
        { s with buffer := buffer, bufferStartedAt := startedAt } := by
      simp only [Service.pop, if_pos idle]
    rw [unchanged]
    exact .nothing buffer startedAt (none_before none_left) (fun k => (same' k).trans (same k))
      (left'.trans left)
  | batch buffer startedAt skipped found rest waiting listed none_left popped same' left' =>
    have here := same found
    have taken : ({ s.pop key with
          buffer := buffer
          bufferStartedAt := startedAt
          taken := (s.pop key).taken ++ [(s.pop key).buffer.queue found] } : Service) =
        { s with
          buffer := buffer
          bufferStartedAt := startedAt
          taken := s.taken ++ [s.buffer.queue found] } := by
      rw [kept, here]
      rfl
    have flight : (⟨(s.pop key).buffer.queue found, waiting, none⟩ : Flight) =
        ⟨s.buffer.queue found, here ▸ waiting, none⟩ := by
      simp only [here]
    rw [taken, flight]
    refine .batch buffer startedAt (key :: skipped) found rest (here ▸ waiting) ?_
      (none_before none_left) popped (fun k other => (same' k other).trans (same k)) ?_
    · rw [listed, List.cons_append]
    · rw [← here]
      exact left'.trans left

theorem flushNext_taking (s : Service) (keys : List String) : Taking s keys (s.flushNext keys) := by
  induction keys generalizing s with
  | nil => exact .nothing s.buffer s.bufferStartedAt (by simp) (fun _ => rfl) (List.Perm.refl _)
  | cons key keys ih =>
    rw [Service.flushNext]
    split
    · rename_i idle
      exact taking_skip idle (ih (s.pop key))
    · rename_i waiting
      have popped : s.pop key = { s with
          buffer := s.buffer.erase key
          bufferStartedAt := s.bufferStartedAt.erase key
          taken := s.taken ++ [s.buffer.queue key] } := by
        simp only [Service.pop, if_neg waiting]
      rw [popped]
      exact .batch _ _ [] key keys waiting rfl (by simp) (Dict.queue_erase_self _ _)
        (fun k other => Dict.queue_erase_ne _ other) (Dict.contents_erase_perm s.buffer key)

/-- The step function as a relation, a constructor for each thing that can happen. -/
inductive Transition (validate : M → Option CTO) (pg : Postgres) (s : Service) :
    Event M → Service → Prop where
  | refused (msg : M) (invalid : validate msg = none) (listening : s.phase ≠ .returned) :
      Transition validate pg s (.message msg) s.invalidMessage
  | buffered (msg : M) (cto : CTO) (valid : validate msg = some cto)
      (listening : s.phase ≠ .returned) :
      Transition validate pg s (.message msg) (s.bufferCto (bufferKey pg cto) cto)
  | elapsed (dt : Nat) : Transition validate pg s (.elapse dt) { s with clock := s.clock + dt }
  | started (now : s.phase = .serving .created) :
      Transition validate pg s .wake { s with phase := .serving s.flushLoop }
  | woken (wakeAt : Nat) (now : s.phase = .serving (.sleeping wakeAt)) (due : wakeAt ≤ s.clock) :
      Transition validate pg s .wake (s.flushReady s.readyKeys)
  | committed (flight : Flight) (db : Database) (now : s.phase.flight = some flight)
      (running : flight.outcome = none) (wrote : commit pg s.db flight.ctos = some db) :
      Transition validate pg s (.writeEnds true) { s with db := db, phase := s.phase.landed true }
  | failed (flight : Flight) (now : s.phase.flight = some flight)
    (running : flight.outcome = none) :
      Transition validate pg s (.writeEnds false)
        { s with raised := s.raised ++ flight.ctos, phase := s.phase.landed false }
  | orphanCommitted (flight : Flight) (db : Database) (now : s.orphan = some flight)
      (running : flight.outcome = none) (wrote : commit pg s.db flight.ctos = some db) :
      Transition validate pg s (.orphanEnds true)
        { s with db := db, orphan := some { flight with outcome := some true } }
  | orphanFailed (flight : Flight) (now : s.orphan = some flight)
    (running : flight.outcome = none) :
      Transition validate pg s (.orphanEnds false)
        { s with raised := s.raised ++ flight.ctos
                 orphan := some { flight with outcome := some false } }
  | resumed (flight : Flight) (keys : List String) (ok : Bool)
      (now : s.phase = .serving (.writing flight keys)) (ended : flight.outcome = some ok) :
      Transition validate pg s .resume ((s.count flight ok).flushReady keys)
  | resumedLast (flight : Flight) (keys : List String) (ok : Bool)
      (now : s.phase = .flushing flight keys) (ended : flight.outcome = some ok) :
      Transition validate pg s .resume ((s.count flight ok).flushAll keys)
  | stopRequested : Transition validate pg s .requestStop { s with stop := true }
  | interrupted (flight : Flight) (keys : List String)
      (now : s.phase = .serving (.writing flight keys)) (asked : s.stop = true) :
      Transition validate pg s .cancel
        { s with phase := .stopping, orphan := some flight, abandoned := s.abandoned ++
          flight.ctos }
  | cancelled (flusher : Flusher) (now : s.phase = .serving flusher)
      (idle : s.phase.flight = none) (asked : s.stop = true) :
      Transition validate pg s .cancel { s with phase := .stopping }
  | lastFlush (now : s.phase = .stopping) :
      Transition validate pg s .flushAll (s.flushAll s.buffer.keys)
  | drained (now : s.phase = .draining) :
      Transition validate pg s .drained { s with phase := .returned }

theorem threadEnds_cases {pg : Postgres} {s t : Service} {flight : Flight} {ok : Bool}
    (h : s.threadEnds pg flight ok = some t) :
    flight.outcome = none ∧
      ((ok = true ∧ ∃ db, commit pg s.db flight.ctos = some db ∧ t = { s with db := db }) ∨
        ok = false ∧ t = { s with raised := s.raised ++ flight.ctos }) := by
  unfold Service.threadEnds at h
  split at h
  · cases h
  · rename_i running
    obtain ⟨db, wrote, rfl⟩ := Option.map_eq_some_iff.mp h
    exact ⟨running, .inl ⟨rfl, db, wrote, rfl⟩⟩
  · rename_i running
    exact ⟨running, .inr ⟨rfl, (Option.some.inj h).symm⟩⟩

theorem step_cases {validate : M → Option CTO} {pg : Postgres} {s t : Service} {e : Event M}
    (h : step validate pg s e = some t) : Transition validate pg s e t := by
  cases e with
  | message msg =>
    simp only [step] at h
    split at h
    · cases h
    · rename_i listening
      cases h
      unfold onMessage
      split
      · rename_i invalid
        exact .refused msg invalid (fun closed => listening closed)
      · rename_i cto valid
        exact .buffered msg cto valid (fun closed => listening closed)
  | elapse dt =>
    cases h
    exact .elapsed dt
  | wake =>
    simp only [step] at h
    split at h
    · rename_i now
      cases h
      exact .started now
    · rename_i wakeAt now
      split at h
      · rename_i due
        cases h
        exact .woken wakeAt now due
      · cases h
    · cases h
  | writeEnds ok =>
    simp only [step] at h
    split at h
    · rename_i flight now
      obtain ⟨u, ended, rfl⟩ := Option.map_eq_some_iff.mp h
      obtain ⟨running, ⟨rfl, db, wrote, rfl⟩ | ⟨rfl, rfl⟩⟩ := threadEnds_cases ended
      · exact .committed flight db now running wrote
      · exact .failed flight now running
    · cases h
  | orphanEnds ok =>
    simp only [step] at h
    split at h
    · rename_i flight now
      obtain ⟨u, ended, rfl⟩ := Option.map_eq_some_iff.mp h
      obtain ⟨running, ⟨rfl, db, wrote, rfl⟩ | ⟨rfl, rfl⟩⟩ := threadEnds_cases ended
      · exact .orphanCommitted flight db now running wrote
      · exact .orphanFailed flight now running
    · cases h
  | resume =>
    simp only [step] at h
    split at h
    · rename_i flight keys now
      obtain ⟨ok, ended, rfl⟩ := Option.map_eq_some_iff.mp h
      exact .resumed flight keys ok now ended
    · rename_i flight keys now
      obtain ⟨ok, ended, rfl⟩ := Option.map_eq_some_iff.mp h
      exact .resumedLast flight keys ok now ended
    · cases h
  | requestStop =>
    cases h
    exact .stopRequested
  | cancel =>
    simp only [step] at h
    split at h
    · rename_i flusher now
      split at h
      · rename_i asked
        cases h
        cases flusher with
        | writing flight keys => exact .interrupted flight keys now asked
        | created => exact .cancelled .created now (by rw [now]; rfl) asked
        | sleeping wakeAt => exact .cancelled (.sleeping wakeAt) now (by rw [now]; rfl) asked
        | ended => exact .cancelled .ended now (by rw [now]; rfl) asked
      · cases h
    · cases h
  | flushAll =>
    simp only [step] at h
    split at h
    · rename_i now
      cases h
      exact .lastFlush now
    · cases h
  | drained =>
    simp only [step] at h
    split at h
    · rename_i now
      cases h
      exact .drained now
    · cases h

end TacticalGateway.Opstore
