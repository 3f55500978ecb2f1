import TacticalGateway.Opstore.Redelivery
import TacticalGateway.Opstore.Service

/-! Where every received message is accounted for, and what the counters say when the service
returns. -/
namespace TacticalGateway.Opstore
open Execution

variable {M : Type*} {validate : M → Option CTO} {pg : Postgres}

/-- A message has been counted as written or failed, or it is buffered, awaited or abandoned. -/
def Balanced (s : Service) (awaited : Nat) : Prop :=
  s.messagesReceived = s.messagesWritten + s.messagesFailed +
    (s.buffer.contents.length + awaited + s.abandoned.length)

def Phase.awaited (phase : Phase) : Nat := (phase.flight.map (fun f => f.ctos.length)).getD 0

theorem awaited_landed (phase : Phase) (ok : Bool) : (phase.landed ok).awaited = phase.awaited := by
  cases phase with
  | serving flusher => cases flusher <;> rfl
  | stopping => rfl
  | flushing => rfl
  | draining => rfl
  | returned => rfl

theorem awaited_flushLoop (s : Service) : (Phase.serving s.flushLoop).awaited = 0 := by
  unfold Service.flushLoop
  cases s.stop <;> rfl

theorem balanced_flushKeys {s : Service} {keys : List String} {next : Phase}
    {writing : Flight → List String → Phase} (h : Balanced s 0) (idle : next.awaited = 0)
    (busy : ∀ flight rest, (writing flight rest).awaited = flight.ctos.length) :
    Balanced (s.flushKeys keys writing next) (s.flushKeys keys writing next).phase.awaited := by
  have taking := flushNext_taking s keys
  unfold Service.flushKeys
  generalize s.flushNext keys = result at taking
  unfold Balanced at h
  cases taking with
  | nothing buffer startedAt none_left same left =>
    have size := left.length_eq
    simp only [Balanced, idle]
    omega
  | batch buffer startedAt skipped key rest waiting listed none_left popped same left =>
    have size := left.length_eq
    rw [List.length_append] at size
    simp only [Balanced, busy]
    omega

theorem balanced_count {s : Service} {flight : Flight} (ok : Bool)
    (h : Balanced s flight.ctos.length) : Balanced (s.count flight ok) 0 := by
  unfold Balanced at h ⊢
  cases ok with
  | true =>
    simp only [Service.count, if_true]
    omega
  | false =>
    simp only [Service.count, Bool.false_eq_true, if_false]
    omega

theorem step_balanced {s t : Service} {e : Event M} (h : Balanced s s.phase.awaited)
    (stepped : step validate pg s e = some t) : Balanced t t.phase.awaited := by
  cases step_cases stepped with
  | refused =>
    unfold Balanced at h ⊢
    simp only [Service.invalidMessage]
    omega
  | buffered msg cto =>
    have size := (Dict.contents_push_perm s.buffer (bufferKey pg cto) cto).length_eq
    rw [List.length_append, List.length_singleton] at size
    unfold Balanced at h ⊢
    simp only [Service.bufferCto]
    omega
  | elapsed => exact h
  | started now =>
    rw [now] at h
    rw [awaited_flushLoop]
    exact h
  | woken wakeAt now =>
    rw [now] at h
    exact balanced_flushKeys h (awaited_flushLoop s) (fun _ _ => rfl)
  | committed =>
    simp only [awaited_landed]
    exact h
  | failed =>
    simp only [awaited_landed]
    exact h
  | orphanCommitted => exact h
  | orphanFailed => exact h
  | resumed flight keys ok now =>
    rw [now] at h
    exact balanced_flushKeys (balanced_count ok h) (awaited_flushLoop _) (fun _ _ => rfl)
  | resumedLast flight keys ok now =>
    rw [now] at h
    exact balanced_flushKeys (balanced_count ok h) rfl (fun _ _ => rfl)
  | stopRequested => exact h
  | interrupted flight keys now =>
    rw [now] at h
    unfold Balanced at h ⊢
    simp only [Phase.awaited, Phase.flight, Option.map_some, Option.getD_some, Option.map_none,
      Option.getD_none, List.length_append] at h ⊢
    omega
  | cancelled flusher now idle =>
    simp only [Phase.awaited, idle, Option.map_none, Option.getD_none] at h
    exact h
  | lastFlush now =>
    rw [now] at h
    exact balanced_flushKeys h rfl (fun _ _ => rfl)
  | drained now =>
    rw [now] at h
    exact h

/-- The keys that are still flushed before the service returns; none where all will be. -/
def Phase.toFlush : Phase → Option (List String)
  | .flushing _ keys => some keys
  | .draining => some []
  | .returned => some []
  | _ => none

/-- No batch is out of the accounts, and every buffer will still be flushed. -/
def Sound (s : Service) : Prop :=
  s.abandoned = [] ∧
    ∀ keys, s.phase.toFlush = some keys → ∀ k, s.buffer.queue k ≠ [] → k ∈ keys

/-- The steps that lose nothing: the flusher is not cancelled while it awaits a write, and once
the last flush has begun no object arrives under a key that is not ahead of it. -/
def Safe (validate : M → Option CTO) (pg : Postgres) (s : Service) : Event M → Prop
  | .message msg => ∀ cto keys, validate msg = some cto → s.phase.toFlush = some keys →
      bufferKey pg cto ∈ keys
  | .cancel => s.phase.flight = none
  | _ => True

theorem toFlush_landed (phase : Phase) (ok : Bool) : (phase.landed ok).toFlush = phase.toFlush := by
  cases phase with
  | serving flusher => cases flusher <;> rfl
  | stopping => rfl
  | flushing => rfl
  | draining => rfl
  | returned => rfl

theorem sound_serving {s : Service} {phase : Phase} (now : s.phase = phase)
    (all : phase.toFlush = none) : Sound s ↔ s.abandoned = [] := by
  simp [Sound, now, all]

theorem sound_flushReady (s : Service) (keys : List String) :
    Sound (s.flushReady keys) ↔ s.abandoned = [] := by
  have taking := flushNext_taking s keys
  unfold Service.flushReady Service.flushKeys
  generalize s.flushNext keys = result at taking
  cases taking with
  | nothing => exact sound_serving rfl rfl
  | batch => exact sound_serving rfl rfl

theorem sound_flushAll (s : Service) (keys : List String) :
    Sound (s.flushAll keys) ↔
      s.abandoned = [] ∧ ∀ k, s.buffer.queue k ≠ [] → k ∈ keys := by
  have taking := flushNext_taking s keys
  unfold Service.flushAll Service.flushKeys
  generalize s.flushNext keys = result at taking
  cases taking with
  | nothing buffer startedAt idle same left =>
    simp only [Sound, Phase.toFlush, Option.some.injEq, forall_eq', same]
    refine and_congr_right (fun _ => forall_congr' (fun k => imp_congr_right (fun waiting => ?_)))
    constructor
    · intro none_left
      cases none_left
    · intro listed
      exact absurd (idle k listed) waiting
  | batch buffer startedAt skipped key rest waiting listed idle popped same left =>
    simp only [Sound, Phase.toFlush, Option.some.injEq, forall_eq']
    refine and_congr_right (fun _ => ?_)
    rw [listed]
    constructor
    · intro covered k full
      by_cases now : k = key
      · simp [now]
      · have ahead := covered k (by rw [same k now]; exact full)
        simp [ahead]
    · intro covered k full
      have other : k ≠ key := by
        rintro rfl
        exact full popped
      rw [same k other] at full
      rcases List.mem_append.mp (covered k full) with early | late
      · exact absurd (idle k early) full
      · exact (List.mem_cons.mp late).resolve_left other

theorem step_sound (s : Service) (e : Event M) (t : Service)
    (stepped : step validate pg s e = some t) : Sound t ↔ Sound s ∧ Safe validate pg s e := by
  cases step_cases stepped with
  | refused msg invalid => simp [Sound, Safe, Service.invalidMessage, invalid]
  | buffered msg cto valid =>
    -- the key of the new object has a buffer now, so it has to be among those ahead
    simp only [Sound, Safe, Service.bufferCto, and_assoc]
    refine and_congr_right (fun _ => ?_)
    constructor
    · intro covered
      refine ⟨?_, ?_⟩
      · intro keys ahead k full
        apply covered keys ahead k
        by_cases same : k = bufferKey pg cto
        · simp [same]
        · rwa [Dict.queue_push_ne _ _ same]
      · intro cto' keys valid' ahead
        cases valid.symm.trans valid'
        exact covered keys ahead (bufferKey pg cto) (by simp)
    · rintro ⟨covered, listed⟩ keys ahead k full
      by_cases same : k = bufferKey pg cto
      · rw [same]
        exact listed cto keys valid ahead
      · rw [Dict.queue_push_ne _ _ same] at full
        exact covered keys ahead k full
  | elapsed => simp [Sound, Safe]
  | started now => simp [Sound, Safe, now, Phase.toFlush]
  | woken wakeAt now => simp [sound_flushReady, sound_serving now rfl, Safe]
  | committed => simp [Sound, Safe, toFlush_landed]
  | failed => simp [Sound, Safe, toFlush_landed]
  | orphanCommitted => simp [Sound, Safe]
  | orphanFailed => simp [Sound, Safe]
  | resumed flight keys ok now =>
    have kept : (s.count flight ok).abandoned = s.abandoned := by cases ok <;> rfl
    simp [sound_flushReady, sound_serving now rfl, Safe, kept]
  | resumedLast flight keys ok now =>
    have kept : (s.count flight ok).abandoned = s.abandoned := by cases ok <;> rfl
    have waiting : (s.count flight ok).buffer = s.buffer := by cases ok <;> rfl
    rw [sound_flushAll, kept, waiting]
    simp [Sound, Safe, now, Phase.toFlush]
  | stopRequested => simp [Sound, Safe]
  | interrupted flight keys now =>
    simp [Sound, Safe, now, Phase.flight, Phase.toFlush, flight.nonempty]
  | cancelled flusher now idle =>
    rw [sound_serving rfl rfl, sound_serving now rfl]
    exact (and_iff_left idle).symm
  | lastFlush now =>
    have all (k : String) (full : s.buffer.queue k ≠ []) : k ∈ s.buffer.keys := by
      by_contra absent
      rw [Dict.queue, (Dict.get?_eq_none_iff _ _).mpr absent] at full
      exact full rfl
    simp only [sound_flushAll, sound_serving now rfl, Safe, and_true]
    exact and_iff_left all
  | drained now => simp [Sound, Safe, now, Phase.toFlush]

/-- When the service returns, nothing is left in the buffer and every received message is counted
as written or failed, exactly in the runs whose steps are all safe. -/
theorem accounts_close_iff {M : Type*} (validate : M → Option CTO) (pg : Postgres) (db : Database)
    (events : List (Event M)) (s : Service)
    (ran : run (step validate pg) (start db) events = some s) (returned : s.phase = .returned) :
    (s.buffer.contents = [] ∧ s.messagesReceived = s.messagesWritten + s.messagesFailed) ↔
      Along (step validate pg) (Safe validate pg) (start db) events := by
  have from_start : Balanced (start db) (start db).phase.awaited := by
    unfold Balanced
    rfl
  have balanced : Balanced s s.phase.awaited :=
    state_invariant (fun s => Balanced s s.phase.awaited) from_start
      (fun _ _ _ h _ stepped => step_balanced h stepped) (along_true _ _ events) ran
  have sound : Sound s ↔ Along (step validate pg) (Safe validate pg) (start db) events := by
    have from_start : Sound (start db) := ⟨rfl, by simp [start, Phase.toFlush]⟩
    rw [along_iff step_sound ran]
    exact and_iff_right from_start
  rw [← sound]
  simp only [Balanced, returned, Phase.awaited, Phase.flight, Option.map_none, Option.getD_none]
    at balanced
  have empty : s.buffer.contents = [] ↔ ∀ k, s.buffer.queue k = [] := Dict.contents_eq_nil_iff _
  simp only [Sound, returned, Phase.toFlush, Option.some.injEq, forall_eq',
    List.not_mem_nil, imp_false,
    not_not, ← empty]
  constructor
  · rintro ⟨nothing, counted⟩
    rw [nothing, counted, List.length_nil] at balanced
    exact ⟨List.length_eq_zero_iff.mp (by omega), nothing⟩
  · rintro ⟨kept, nothing⟩
    rw [kept, nothing] at balanced
    exact ⟨nothing, balanced⟩

def orderly : List (Event CTO) :=
  [.message (placemark 1 newYear), .requestStop, .cancel, .flushAll, .writeEnds true,
    .resume, .drained]

theorem accounts_close_iff_orderly :
    ∃ s, run (step some plainPostgres) (start ⟨.empty, []⟩) orderly = some s ∧ s.phase = .returned ∧
      ((s.buffer.contents = [] ∧ s.messagesReceived = s.messagesWritten + s.messagesFailed) ↔
        Along (step some plainPostgres) (Safe some plainPostgres) (start ⟨.empty, []⟩) orderly) :=
  ⟨_, rfl, rfl, accounts_close_iff some plainPostgres ⟨.empty, []⟩ orderly _ rfl rfl⟩

/-- A placemark that is still delivered while the subscription drains. -/
def lateDelivery : List (Event CTO) :=
  [.requestStop, .cancel, .flushAll, .message (placemark 1 newYear), .drained]

/-- A stop request while the flusher awaits a write, which then goes through. -/
def stopDuringWrite : List (Event CTO) :=
  [.message (placemark 1 newYear), .wake, .elapse batchWindow, .wake, .requestStop, .cancel,
    .orphanEnds true, .flushAll, .drained]

/-- The first run returns with its message in the buffer, the second with its message in the
table but in neither count. -/
theorem shutdown_loses_messages :
    (∃ s, run (step some plainPostgres) (start ⟨.empty, []⟩) lateDelivery = some s ∧
      s.phase = .returned ∧ s.buffer.contents.length = 1 ∧
      s.messagesReceived = 1 ∧ s.messagesWritten + s.messagesFailed = 0) ∧
    ∃ s, run (step some plainPostgres) (start ⟨.empty, []⟩) stopDuringWrite = some s ∧
      s.phase = .returned ∧ s.db.cto.keys = [1] ∧
      s.messagesReceived = 1 ∧ s.messagesWritten + s.messagesFailed = 0 :=
  ⟨⟨_, rfl, rfl, rfl, rfl, rfl⟩, ⟨_, rfl, rfl, rfl, rfl, rfl⟩⟩

end TacticalGateway.Opstore
