import TacticalGateway.Opstore.History
import TacticalGateway.Opstore.Homogeneous

/-! What becomes of an object that the service has read: it is in the buffer, in a batch or in the
table, where its row keeps all but the end of validity. -/
namespace TacticalGateway.Opstore
open Execution

/-- A row of this object: as it was built, or retired since by a batch of its own file and source,
whose first object has the property. -/
inductive Row.SavedFrom (pg : Postgres) (P : CTO → Prop) (c : CTO) (r : Row) : Prop where
  | kept (built : pg.row c = some r)
  | retired (first : Row) (sample : CTO) (filename source : String)
      (built : pg.row c = some first) (holds : P sample)
      (parent : kmzParent sample = some (filename, source))
      (current : first.currentOf filename source = true)
      (closed : r = first.closedAt sample.receivedAt)

/-- A batch whose thread runs, awaited or abandoned. -/
def Service.Running (s : Service) (flight : Flight) : Prop :=
  s.InFlight flight ∧ flight.outcome = none

/-- Where an object is that the service has not written: in the buffer, in a batch whose thread
runs, or in one whose write raised. -/
def Service.Unwritten (s : Service) (c : CTO) : Prop :=
  c ∈ s.buffer.contents ∨ (∃ flight, s.Running flight ∧ c ∈ flight.ctos) ∨ c ∈ s.raised

/-- Every object of the service has a property, and every row it added is that of such an object. -/
structure Holds (pg : Postgres) (P : CTO → Prop) (db₀ : Database) (s : Service) : Prop where
  buffered : ∀ c ∈ s.buffer.contents, P c
  flights : ∀ flight, s.InFlight flight → ∀ c ∈ flight.ctos, P c
  rows : ∀ r ∈ s.db.cto.rows, r.uid ∈ db₀.cto.keys ∨ ∃ c, P c ∧ r.SavedFrom pg P c

def Service.Traced (s : Service) (c : CTO) : Prop := c.uid ∈ s.db.cto.keys ∨ s.Unwritten c

/-- Every object that arrived has a row or is still to be found. -/
structure Kept (arrived : List CTO) (s : Service) : Prop where
  traced : ∀ c ∈ arrived, s.Traced c
  alone : ∀ flusher, s.phase = .serving flusher → s.orphan = none

section Commit

variable {pg : Postgres} {db db' : Database} {ctos : List CTO}

theorem Row.SavedFrom.mono {P Q : CTO → Prop} {c : CTO} {r : Row} (saved : r.SavedFrom pg P c)
    (wider : ∀ c, P c → Q c) : r.SavedFrom pg Q c := by
  cases saved with
  | kept built => exact .kept built
  | retired first sample filename source built holds parent current closed =>
    exact .retired first sample filename source built (wider sample holds) parent current closed

theorem retireFor_saved {P : CTO → Prop} {c sample : CTO} {r : Row} (holds : P sample)
    (saved : r.SavedFrom pg P c) : (r.retireFor sample).SavedFrom pg P c := by
  rcases retireFor_cases sample r with same | ⟨filename, source, parent, current, closed⟩
  · rw [same]
    exact saved
  · cases saved with
    | kept built => exact .retired r sample filename source built holds parent current closed
    | retired first _ _ _ _ _ _ _ before =>
      -- a retired row is current no more
      rw [before] at current
      simp [Row.currentOf, Row.closedAt] at current

theorem commit_rows (wrote : commit pg db ctos = some db') :
    ∀ r ∈ db'.cto.rows, (∃ old ∈ db.cto.rows, r = old ∨ ∃ sample ∈ ctos, r = old.retireFor sample) ∨
      ∃ c ∈ ctos, pg.row c = some r := by
  intro r there
  cases ctos with
  | nil =>
    cases Option.some.inj wrote
    exact .inl ⟨r, there, .inl rfl⟩
  | cons sample rest =>
    obtain ⟨⟨_, n, m⟩, done, rfl⟩ := Option.map_eq_some_iff.mp wrote
    obtain ⟨rows, built, table⟩ := write_cto done
    rw [table, Table.rows_insertAll, rows_retired] at there
    rcases List.mem_append.mp there with old | new
    · obtain ⟨before, stored, rfl⟩ := List.mem_map.mp old
      exact .inl ⟨before, stored, .inr ⟨sample, List.mem_cons_self, rfl⟩⟩
    · exact .inr (Table.forall₂_right (Table.mapM_eq_some.mp built)
        (Table.newcomers_subset _ _ new))

theorem commit_keys (wrote : commit pg db ctos = some db') :
    (∀ uid ∈ db.cto.keys, uid ∈ db'.cto.keys) ∧ ∀ c ∈ ctos, c.uid ∈ db'.cto.keys := by
  cases ctos with
  | nil =>
    cases Option.some.inj wrote
    exact ⟨fun _ known => known, by simp⟩
  | cons sample rest =>
    constructor
    · intro uid known
      obtain ⟨r, stored, rfl⟩ := List.mem_map.mp known
      rw [← (retireFor_identity sample r).1]
      exact List.mem_map_of_mem (commit_keeps wrote stored)
    · intro c member
      obtain ⟨⟨_, n, m⟩, done, rfl⟩ := Option.map_eq_some_iff.mp wrote
      obtain ⟨rows, built, table⟩ := write_cto done
      obtain ⟨r, there, same⟩ := Table.forall₂_left (Table.mapM_eq_some.mp built) member
      rw [← (row_of same).1, table]
      exact Table.mem_keys_insertAll _ _ there

end Commit

variable {M : Type*} {validate : M → Option CTO} {pg : Postgres} {P : CTO → Prop} {db₀ : Database}

theorem holds_start (db : Database) (rows : ∀ r ∈ db.cto.rows, r.uid ∈ db₀.cto.keys ∨
    ∃ c, P c ∧ r.SavedFrom pg P c) : Holds pg P db₀ (start db) where
  buffered := by simp [start, Dict.contents, Dict.empty]
  flights flight flying := by
    rcases flying with awaited | orphan
    · cases awaited
    · cases orphan
  rows := rows

theorem holds_commit {db db' : Database} {ctos : List CTO} (wrote : commit pg db ctos = some db')
    (own : ∀ c ∈ ctos, P c)
    (rows : ∀ r ∈ db.cto.rows, r.uid ∈ db₀.cto.keys ∨ ∃ c, P c ∧ r.SavedFrom pg P c) :
    ∀ r ∈ db'.cto.rows, r.uid ∈ db₀.cto.keys ∨ ∃ c, P c ∧ r.SavedFrom pg P c := by
  intro r there
  rcases commit_rows wrote r there with
    ⟨old, stored, rfl | ⟨sample, among, rfl⟩⟩ | ⟨c, member, built⟩
  · exact rows r stored
  · rw [(retireFor_identity sample old).1]
    rcases rows old stored with first | ⟨c, holds, saved⟩
    · exact .inl first
    · exact .inr ⟨c, holds, retireFor_saved (own sample among) saved⟩
  · exact .inr ⟨c, own c member, .kept built⟩

theorem holds_flushKeys {s : Service} {keys : List String} {next : Phase}
    {writing : Flight → List String → Phase} (h : Holds pg P db₀ s) (idle : next.flight = none)
    (busy : ∀ flight rest, (writing flight rest).flight = some flight) :
    Holds pg P db₀ (s.flushKeys keys writing next) := by
  have taking := flushNext_taking s keys
  unfold Service.flushKeys
  generalize s.flushNext keys = result at taking
  cases taking with
  | nothing buffer startedAt none_left same left =>
    refine ⟨fun c member => h.buffered c (left.subset member), ?_, h.rows⟩
    rintro flight (now | orphan)
    · cases idle.symm.trans now
    · exact h.flights flight (.inr orphan)
  | batch buffer startedAt skipped key rest waiting listed none_left popped same left =>
    refine ⟨fun c member => h.buffered c (left.subset (List.mem_append_right _ member)), ?_, h.rows⟩
    rintro flight (now | orphan)
    · cases Option.some.inj ((busy _ _).symm.trans now)
      exact fun c member => h.buffered c (left.subset (List.mem_append_left _ member))
    · exact h.flights flight (.inr orphan)

theorem holds_count {s : Service} (flight : Flight) (ok : Bool) (h : Holds pg P db₀ s) :
    Holds pg P db₀ (s.count flight ok) := by
  cases ok <;> exact ⟨h.buffered, h.flights, h.rows⟩

theorem step_holds {s t : Service} {e : Event M} (h : Holds pg P db₀ s)
    (read : ∀ msg cto, e = .message msg → validate msg = some cto → P cto)
    (stepped : step validate pg s e = some t) : Holds pg P db₀ t := by
  cases step_cases stepped with
  | refused => exact ⟨h.buffered, h.flights, h.rows⟩
  | buffered msg cto valid =>
    refine ⟨?_, h.flights, h.rows⟩
    intro c member
    rcases List.mem_append.mp ((Dict.contents_push_perm _ _ _).subset member) with old | new
    · exact h.buffered c old
    · cases List.mem_singleton.mp new
      exact read msg cto rfl valid
  | elapsed => exact ⟨h.buffered, h.flights, h.rows⟩
  | started now =>
    refine ⟨h.buffered, ?_, h.rows⟩
    rintro flight (awaited | orphan)
    · cases (flight_flushLoop s).symm.trans awaited
    · exact h.flights flight (.inr orphan)
  | woken => exact holds_flushKeys h (flight_flushLoop s) (fun _ _ => rfl)
  | committed flight db now running wrote =>
    refine ⟨h.buffered, ?_, holds_commit wrote (h.flights flight (.inl now)) h.rows⟩
    rintro landed (after | orphan)
    · obtain ⟨before, was, same⟩ := flight_landed after
      exact same ▸ h.flights before (.inl was)
    · exact h.flights landed (.inr orphan)
  | failed flight now =>
    refine ⟨h.buffered, ?_, h.rows⟩
    rintro landed (after | orphan)
    · obtain ⟨before, was, same⟩ := flight_landed after
      exact same ▸ h.flights before (.inl was)
    · exact h.flights landed (.inr orphan)
  | orphanCommitted flight db now running wrote =>
    have own := h.flights flight (.inr now)
    refine ⟨h.buffered, ?_, holds_commit wrote own h.rows⟩
    rintro other (awaited | orphan)
    · exact h.flights other (.inl awaited)
    · cases Option.some.inj orphan
      exact own
  | orphanFailed flight now =>
    refine ⟨h.buffered, ?_, h.rows⟩
    rintro other (awaited | orphan)
    · exact h.flights other (.inl awaited)
    · cases Option.some.inj orphan
      exact h.flights flight (.inr now)
  | resumed flight keys ok =>
    exact holds_flushKeys (holds_count flight ok h) (flight_flushLoop _) (fun _ _ => rfl)
  | resumedLast flight keys ok =>
    exact holds_flushKeys (holds_count flight ok h) rfl (fun _ _ => rfl)
  | stopRequested => exact ⟨h.buffered, h.flights, h.rows⟩
  | interrupted flight keys now =>
    refine ⟨h.buffered, ?_, h.rows⟩
    rintro other (awaited | orphan)
    · cases awaited
    · cases Option.some.inj orphan
      exact h.flights flight (.inl (by rw [now]; rfl))
  | cancelled flusher now idle =>
    refine ⟨h.buffered, ?_, h.rows⟩
    rintro other (awaited | orphan)
    · cases awaited
    · exact h.flights other (.inr orphan)
  | lastFlush => exact holds_flushKeys h rfl (fun _ _ => rfl)
  | drained now =>
    refine ⟨h.buffered, ?_, h.rows⟩
    rintro other (awaited | orphan)
    · cases awaited
    · exact h.flights other (.inr orphan)

theorem step_keys {s t : Service} {e : Event M} (stepped : step validate pg s e = some t) :
    ∀ uid ∈ s.db.cto.keys, uid ∈ t.db.cto.keys := by
  have quiet {u : Service} (same : u.db = s.db) : ∀ uid ∈ s.db.cto.keys, uid ∈ u.db.cto.keys :=
    fun _ known => same ▸ known
  cases step_cases stepped with
  | committed flight db now running wrote => exact (commit_keys wrote).1
  | orphanCommitted flight db now running wrote => exact (commit_keys wrote).1
  | woken => exact quiet (db_flushKeys _ _ _ _)
  | resumed flight keys ok => exact quiet ((db_flushKeys _ _ _ _).trans (db_count s flight ok))
  | resumedLast flight keys ok => exact quiet ((db_flushKeys _ _ _ _).trans (db_count s flight ok))
  | lastFlush => exact quiet (db_flushKeys _ _ _ _)
  | _ => exact quiet rfl

theorem kept_start (db : Database) : Kept [] (start db) where
  traced := by simp
  alone _ _ := rfl

section Kept

variable {arrived : List CTO} {s t : Service}

/-- An object stays traced where rows, buffers and raised writes stay, and a batch whose thread
runs goes on or leaves a trace of all its objects. -/
theorem Service.Traced.keep {c : CTO} (traced : s.Traced c)
    (keys : ∀ uid ∈ s.db.cto.keys, uid ∈ t.db.cto.keys)
    (buffer : s.buffer.contents ⊆ t.buffer.contents) (raised : s.raised ⊆ t.raised)
    (running : ∀ flight, s.Running flight → t.Running flight ∨ ∀ c ∈ flight.ctos, t.Traced c) :
    t.Traced c := by
  rcases traced with stored | waiting | ⟨flight, runs, member⟩ | lost
  · exact .inl (keys _ stored)
  · exact .inr (.inl (buffer waiting))
  · rcases running flight runs with still | ended
    · exact .inr (.inr (.inl ⟨flight, still, member⟩))
    · exact ended c member
  · exact .inr (.inr (.inr (raised lost)))

theorem Service.Traced.phase {c : CTO} (traced : s.Traced c) (phase : Phase)
    (ended : ∀ flight, s.phase.flight = some flight → flight.outcome ≠ none) :
    ({ s with phase := phase } : Service).Traced c := by
  refine traced.keep (fun _ known => known) (List.Subset.refl _) (List.Subset.refl _) ?_
  rintro flight ⟨awaited | orphan, runs⟩
  · exact absurd runs (ended flight awaited)
  · exact .inl ⟨.inr orphan, runs⟩

theorem traced_flushKeys {keys : List String} {next : Phase}
    {writing : Flight → List String → Phase} {c : CTO}
    (ended : ∀ flight, s.phase.flight = some flight → flight.outcome ≠ none)
    (busy : ∀ flight rest, (writing flight rest).flight = some flight) (traced : s.Traced c) :
    (s.flushKeys keys writing next).Traced c := by
  have taking := flushNext_taking s keys
  unfold Service.flushKeys
  generalize s.flushNext keys = result at taking
  cases taking with
  | nothing buffer startedAt none_left same left =>
    exact (traced.phase next ended).keep (fun _ known => known) left.symm.subset
      (List.Subset.refl _) (fun _ runs => .inl runs)
  | batch buffer startedAt skipped key rest waiting listed none_left popped same left =>
    rcases traced.phase (writing ⟨s.buffer.queue key, waiting, none⟩ rest) ended with
      stored | among | ⟨flight, runs, member⟩ | lost
    · exact .inl stored
    · rcases List.mem_append.mp (left.symm.subset among) with taken | still
      · exact .inr (.inr (.inl ⟨_, ⟨.inl (busy _ _), rfl⟩, taken⟩))
      · exact .inr (.inl still)
    · exact .inr (.inr (.inl ⟨flight, runs, member⟩))
    · exact .inr (.inr (.inr lost))

theorem kept_flushKeys {keys : List String} {next : Phase}
    {writing : Flight → List String → Phase} (h : Kept arrived s)
    (ended : ∀ flight, s.phase.flight = some flight → flight.outcome ≠ none)
    (busy : ∀ flight rest, (writing flight rest).flight = some flight)
    (serving : (∃ flusher, s.phase = .serving flusher) ∨
      (∀ flight rest flusher, writing flight rest ≠ .serving flusher) ∧
        ∀ flusher, next ≠ .serving flusher) :
    Kept arrived (s.flushKeys keys writing next) where
  traced c member := traced_flushKeys ended busy (h.traced c member)
  alone flusher now := by
    have taking := flushNext_taking s keys
    unfold Service.flushKeys at now ⊢
    generalize s.flushNext keys = result at taking now
    rcases serving with ⟨before, was⟩ | ⟨never, nor⟩
    · cases taking <;> exact h.alone before was
    · cases taking with
      | nothing => exact absurd now (nor flusher)
      | batch => exact absurd now (never _ _ flusher)

theorem kept_count (flight : Flight) (ok : Bool) (h : Kept arrived s) :
    Kept arrived (s.count flight ok) := by
  cases ok <;> exact ⟨h.traced, h.alone⟩

theorem phase_count (s : Service) (flight : Flight) (ok : Bool) :
    (s.count flight ok).phase = s.phase := by
  cases ok <;> rfl

theorem serving_landed {phase : Phase} {ok : Bool} {flusher : Flusher}
    (now : phase.landed ok = .serving flusher) : ∃ before, phase = .serving before := by
  cases phase with
  | serving before => exact ⟨before, rfl⟩
  | _ => cases now

theorem kept_committed {flight : Flight} {db : Database} (h : Kept arrived s)
    (now : s.phase.flight = some flight) (wrote : commit pg s.db flight.ctos = some db) :
    Kept arrived { s with db := db, phase := s.phase.landed true } := by
  obtain ⟨grows, own⟩ := commit_keys wrote
  constructor
  · intro c member
    refine (h.traced c member).keep grows (List.Subset.refl _) (List.Subset.refl _) ?_
    rintro f ⟨awaited | orphan, runs⟩
    · cases Option.some.inj (now.symm.trans awaited)
      exact .inr fun c among => .inl (own c among)
    · exact .inl ⟨.inr orphan, runs⟩
  · intro flusher serving
    obtain ⟨before, was⟩ := serving_landed serving
    exact h.alone before was

theorem kept_failed {flight : Flight} (h : Kept arrived s) (now : s.phase.flight = some flight) :
    Kept arrived { s with raised := s.raised ++ flight.ctos, phase := s.phase.landed false } := by
  constructor
  · intro c member
    refine (h.traced c member).keep (fun _ known => known) (List.Subset.refl _)
      (List.subset_append_left _ _) ?_
    rintro f ⟨awaited | orphan, runs⟩
    · cases Option.some.inj (now.symm.trans awaited)
      exact .inr fun c among => .inr (.inr (.inr (List.mem_append_right _ among)))
    · exact .inl ⟨.inr orphan, runs⟩
  · intro flusher serving
    obtain ⟨before, was⟩ := serving_landed serving
    exact h.alone before was

theorem not_serving {flight : Flight} (h : Kept arrived s) (now : s.orphan = some flight)
    (flusher : Flusher) : s.phase ≠ .serving flusher := by
  intro serving
  rw [h.alone flusher serving] at now
  cases now

theorem kept_orphanCommitted {flight : Flight} {db : Database} (h : Kept arrived s)
    (now : s.orphan = some flight) (wrote : commit pg s.db flight.ctos = some db) :
    Kept arrived { s with db := db, orphan := some { flight with outcome := some true } } := by
  obtain ⟨grows, own⟩ := commit_keys wrote
  refine ⟨?_, fun flusher serving => absurd serving (not_serving h now flusher)⟩
  intro c member
  refine (h.traced c member).keep grows (List.Subset.refl _) (List.Subset.refl _) ?_
  rintro f ⟨awaited | orphan, runs⟩
  · exact .inl ⟨.inl awaited, runs⟩
  · cases Option.some.inj (now.symm.trans orphan)
    exact .inr fun c among => .inl (own c among)

theorem kept_orphanFailed {flight : Flight} (h : Kept arrived s) (now : s.orphan = some flight) :
    Kept arrived { s with raised := s.raised ++ flight.ctos
                          orphan := some { flight with outcome := some false } } := by
  refine ⟨?_, fun flusher serving => absurd serving (not_serving h now flusher)⟩
  intro c member
  refine (h.traced c member).keep (fun _ known => known) (List.Subset.refl _)
    (List.subset_append_left _ _) ?_
  rintro f ⟨awaited | orphan, runs⟩
  · exact .inl ⟨.inl awaited, runs⟩
  · cases Option.some.inj (now.symm.trans orphan)
    exact .inr fun c among => .inr (.inr (.inr (List.mem_append_right _ among)))

theorem kept_interrupted {flight : Flight} {keys : List String} (h : Kept arrived s)
    (now : s.phase = .serving (.writing flight keys)) :
    Kept arrived { s with phase := .stopping, orphan := some flight,
                          abandoned := s.abandoned ++ flight.ctos } := by
  refine ⟨?_, nofun⟩
  intro c member
  refine (h.traced c member).keep (fun _ known => known) (List.Subset.refl _)
    (List.Subset.refl _) ?_
  rintro f ⟨awaited | orphan, runs⟩
  · rw [now] at awaited
    exact .inl ⟨.inr awaited, runs⟩
  · rw [h.alone _ now] at orphan
    cases orphan

theorem step_kept {e : Event M} (h : Kept arrived s)
    (stepped : step validate pg s e = some t) : Kept (arrived ++ (e.cto? validate).toList) t := by
  have quiet {u : Service} (hu : Kept arrived u) : Kept (arrived ++ []) u := by
    rwa [List.append_nil]
  cases step_cases stepped with
  | refused msg invalid =>
    simp only [Event.cto?, invalid, Option.toList_none]
    exact quiet ⟨h.traced, h.alone⟩
  | buffered msg cto valid =>
    simp only [Event.cto?, valid, Option.toList_some]
    have pushed := (Dict.contents_push_perm s.buffer (bufferKey pg cto) cto).symm
    refine ⟨?_, h.alone⟩
    intro c member
    rcases List.mem_append.mp member with before | last
    · exact (h.traced c before).keep (fun _ known => known)
        (List.Subset.trans (List.subset_append_left _ _) pushed.subset) (List.Subset.refl _)
        (fun _ runs => .inl runs)
    · exact .inr (.inl (pushed.subset (List.mem_append_right _ last)))
  | elapsed => exact quiet ⟨h.traced, h.alone⟩
  | started now =>
    refine quiet ⟨fun c member => (h.traced c member).phase _ ?_, fun _ _ => h.alone _ now⟩
    rw [now]
    rintro flight ⟨⟩
  | woken wakeAt now =>
    refine quiet (kept_flushKeys h ?_ (fun _ _ => rfl) (.inl ⟨_, now⟩))
    rw [now]
    rintro flight ⟨⟩
  | committed flight db now running wrote => exact quiet (kept_committed h now wrote)
  | failed flight now running => exact quiet (kept_failed h now)
  | orphanCommitted flight db now running wrote => exact quiet (kept_orphanCommitted h now wrote)
  | orphanFailed flight now running => exact quiet (kept_orphanFailed h now)
  | resumed flight keys ok now ended =>
    refine quiet (kept_flushKeys (kept_count flight ok h) ?_ (fun _ _ => rfl)
      (.inl ⟨_, (phase_count s flight ok).trans now⟩))
    rw [phase_count, now]
    rintro _ ⟨⟩
    simp [ended]
  | resumedLast flight keys ok now ended =>
    refine quiet (kept_flushKeys (kept_count flight ok h) ?_ (fun _ _ => rfl)
      (.inr ⟨by simp, by simp⟩))
    rw [phase_count, now]
    rintro _ ⟨⟩
    simp [ended]
  | stopRequested => exact quiet ⟨h.traced, h.alone⟩
  | interrupted flight keys now => exact quiet (kept_interrupted h now)
  | cancelled flusher now idle =>
    refine quiet ⟨fun c member => (h.traced c member).phase _ ?_, by simp⟩
    rw [idle]
    rintro flight ⟨⟩
  | lastFlush now =>
    refine quiet (kept_flushKeys h ?_ (fun _ _ => rfl) (.inr ⟨by simp, by simp⟩))
    rw [now]
    rintro flight ⟨⟩
  | drained now =>
    refine quiet ⟨fun c member => (h.traced c member).phase _ ?_, by simp⟩
    rw [now]
    rintro flight ⟨⟩

end Kept

end TacticalGateway.Opstore
