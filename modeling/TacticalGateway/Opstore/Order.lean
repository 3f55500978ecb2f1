import TacticalGateway.Lib.KeyedQueue
import TacticalGateway.Opstore.Service

/-! In which order the service writes: per key as the objects arrived, and one batch after the
other as long as no write is abandoned. -/
namespace TacticalGateway.Opstore
open Execution

variable {M : Type*} {validate : M → Option CTO} {pg : Postgres} {db₀ : Database}

def Event.cto? (validate : M → Option CTO) : Event M → Option CTO
  | .message msg => validate msg
  | _ => none

def arrivals (validate : M → Option CTO) (events : List (Event M)) : List CTO :=
  events.filterMap (Event.cto? validate)

theorem arrivals_concat (events : List (Event M)) (e : Event M) :
    arrivals validate (events ++ [e]) = arrivals validate events ++ (e.cto? validate).toList := by
  unfold arrivals
  rw [List.filterMap_append]
  cases h : e.cto? validate <;> simp [h]

def Queued (pg : Postgres) (arrived : List CTO) (s : Service) : Prop :=
  KeyedQueue.InOrder (bufferKey pg) arrived s.taken s.buffer

theorem queued_flushKeys {arrived : List CTO} {s : Service} {keys : List String} {next : Phase}
    {writing : Flight → List String → Phase} (h : Queued pg arrived s) :
    Queued pg arrived (s.flushKeys keys writing next) := by
  have taking := flushNext_taking s keys
  unfold Service.flushKeys
  generalize s.flushNext keys = result at taking
  cases taking with
  | nothing buffer startedAt idle same left => exact h.congr same
  | batch buffer startedAt skipped key rest waiting listed idle popped same left =>
    exact h.take waiting popped same

theorem queued_count {arrived : List CTO} {s : Service} (flight : Flight) (ok : Bool)
    (h : Queued pg arrived s) : Queued pg arrived (s.count flight ok) := by
  cases ok <;> exact h

theorem step_queued {arrived : List CTO} {s t : Service} {e : Event M} (h : Queued pg arrived s)
    (stepped : step validate pg s e = some t) :
    Queued pg (arrived ++ (e.cto? validate).toList) t := by
  have quiet {u : Service} (hu : Queued pg arrived u) : Queued pg (arrived ++ []) u := by
    rwa [List.append_nil]
  cases step_cases stepped with
  | buffered msg cto valid =>
    simp only [Event.cto?, valid, Option.toList_some]
    exact h.push cto
  | refused msg invalid =>
    simp only [Event.cto?, invalid, Option.toList_none]
    exact quiet h
  | woken => exact quiet (queued_flushKeys h)
  | resumed flight keys ok => exact quiet (queued_flushKeys (queued_count flight ok h))
  | resumedLast flight keys ok => exact quiet (queued_flushKeys (queued_count flight ok h))
  | lastFlush => exact quiet (queued_flushKeys h)
  | _ => exact quiet h

theorem run_queued {events : List (Event M)} {s : Service}
    (ran : run (step validate pg) (start db₀) events = some s) :
    Queued pg (arrivals validate events) s := by
  have from_start : Queued pg (arrivals validate []) (start db₀) := KeyedQueue.inOrder_empty _
  apply history_invariant (fun events s => Queued pg (arrivals validate events) s) from_start _
    (along_true _ _ events) ran
  intro events s e t h _ stepped
  rw [arrivals_concat]
  exact step_queued h stepped

def Phase.running (phase : Phase) : List (List CTO) :=
  match phase.flight with
  | some flight => if flight.outcome = none then [flight.ctos] else []
  | none => []

/-- The table is that of the batches taken so far, without those still to be written. -/
def Sequenced (pg : Postgres) (db₀ : Database) (s : Service) (running : List (List CTO)) : Prop :=
  s.orphan = none ∧
    ∃ batches, s.taken = batches ++ running ∧ run (commit pg) db₀ batches = some s.db

theorem running_landed {phase : Phase} {flight : Flight} (now : phase.flight = some flight)
    (ok : Bool) : (phase.landed ok).running = [] := by
  cases phase with
  | serving flusher =>
    cases flusher with
    | writing => rfl
    | created => cases now
    | sleeping => cases now
    | ended => cases now
  | stopping => cases now
  | flushing => rfl
  | draining => cases now
  | returned => cases now

theorem running_flushLoop (s : Service) : (Phase.serving s.flushLoop).running = [] := by
  unfold Service.flushLoop
  cases s.stop <;> rfl

theorem sequenced_flushKeys {s : Service} {keys : List String} {next : Phase}
    {writing : Flight → List String → Phase} (h : Sequenced pg db₀ s []) (idle : next.running = [])
    (busy : ∀ flight rest, (writing flight rest).flight = some flight) :
    Sequenced pg db₀ (s.flushKeys keys writing next)
      (s.flushKeys keys writing next).phase.running := by
  obtain ⟨alone, batches, written, table⟩ := h
  rw [List.append_nil] at written
  have taking := flushNext_taking s keys
  unfold Service.flushKeys
  generalize s.flushNext keys = result at taking
  cases taking with
  | nothing =>
    refine ⟨alone, batches, ?_, table⟩
    simp only [idle, List.append_nil]
    exact written
  | batch =>
    refine ⟨alone, batches, ?_, table⟩
    simp only [Phase.running, busy, if_true, written]

def Lossless (s : Service) : Prop := s.raised = [] ∧ s.abandoned = []

theorem sequenced_count {s : Service} {flight : Flight} {ok : Bool} {running : List (List CTO)}
    (h : Sequenced pg db₀ s running) : Sequenced pg db₀ (s.count flight ok) running := by
  cases ok <;> exact h

theorem lossless_count {s : Service} (flight : Flight) (ok : Bool) :
    Lossless (s.count flight ok) ↔ Lossless s := by
  cases ok <;> rfl

theorem lossless_flushKeys {s : Service} {keys : List String} {next : Phase}
    {writing : Flight → List String → Phase} :
    Lossless (s.flushKeys keys writing next) ↔ Lossless s := by
  have taking := flushNext_taking s keys
  unfold Service.flushKeys
  generalize s.flushNext keys = result at taking
  cases taking <;> rfl

theorem step_sequenced {s t : Service} {e : Event M}
    (h : Lossless s → Sequenced pg db₀ s s.phase.running)
    (stepped : step validate pg s e = some t) (lossless : Lossless t) :
    Sequenced pg db₀ t t.phase.running := by
  cases step_cases stepped with
  | refused => exact h lossless
  | buffered => exact h lossless
  | elapsed => exact h lossless
  | started now =>
    have before := h lossless
    rw [now] at before
    rw [running_flushLoop]
    exact before
  | woken wakeAt now =>
    have before := h (lossless_flushKeys.mp lossless)
    rw [now] at before
    exact sequenced_flushKeys before (running_flushLoop s) (fun _ _ => rfl)
  | committed flight db now running wrote =>
    obtain ⟨alone, batches, written, table⟩ := h lossless
    simp only [Phase.running, now, if_pos running] at written
    refine ⟨alone, batches ++ [flight.ctos], ?_, ?_⟩
    · simp only [running_landed now, List.append_nil]
      exact written
    · exact run_extend table wrote
  | failed flight now running =>
    exact absurd (List.append_eq_nil_iff.mp lossless.1).2 flight.nonempty
  | orphanCommitted flight db now =>
    -- an orphan is a write that was abandoned
    have alone := (h lossless).1
    rw [now] at alone
    cases alone
  | orphanFailed flight now =>
    exact absurd (List.append_eq_nil_iff.mp lossless.1).2 flight.nonempty
  | resumed flight keys ok now ended =>
    have before := h ((lossless_count flight ok).mp (lossless_flushKeys.mp lossless))
    rw [now] at before
    simp only [Phase.running, Phase.flight, ended, reduceCtorEq, if_false] at before
    exact sequenced_flushKeys (sequenced_count before) (running_flushLoop _) (fun _ _ => rfl)
  | resumedLast flight keys ok now ended =>
    have before := h ((lossless_count flight ok).mp (lossless_flushKeys.mp lossless))
    rw [now] at before
    simp only [Phase.running, Phase.flight, ended, reduceCtorEq, if_false] at before
    exact sequenced_flushKeys (sequenced_count before) rfl (fun _ _ => rfl)
  | stopRequested => exact h lossless
  | interrupted flight =>
    exact absurd (List.append_eq_nil_iff.mp lossless.2).2 flight.nonempty
  | cancelled flusher now idle =>
    have before := h lossless
    simp only [Phase.running, idle] at before
    exact before
  | lastFlush now =>
    have before := h (lossless_flushKeys.mp lossless)
    rw [now] at before
    exact sequenced_flushKeys before rfl (fun _ _ => rfl)
  | drained now =>
    have before := h lossless
    rw [now] at before
    exact before

/-- As long as nothing is lost, the database is that of the batches in the order of their flush. -/
theorem run_sequenced {events : List (Event M)} {s : Service}
    (ran : run (step validate pg) (start db₀) events = some s) (lossless : Lossless s) :
    Sequenced pg db₀ s s.phase.running := by
  have from_start : Lossless (start db₀) → Sequenced pg db₀ (start db₀) (start db₀).phase.running :=
    fun _ => ⟨rfl, [], rfl, rfl⟩
  exact state_invariant (fun s => Lossless s → Sequenced pg db₀ s s.phase.running) from_start
    (fun _ _ _ h _ stepped => step_sequenced h stepped) (along_true _ _ events) ran lossless

end TacticalGateway.Opstore
