import TacticalGateway.Opstore.Supersession

/-! What a batch is made of: the objects of one file and source, or of one stream, in the order of
their arrival; and a key is due exactly as long as objects wait under it. -/
namespace TacticalGateway.Opstore
open Execution
open Json (Value)

/-- An object with its file and the source of that, or without a file. -/
inductive Parented (c : CTO) : Prop where
  | absent (none_given : attr c "parent_kmz_filename" = .null)
  | empty (blank : attr c "parent_kmz_filename" = .str "")
  | named (filename : String) (source : IngestSource) (nonempty : filename ≠ "")
      (file : attr c "parent_kmz_filename" = .str filename)
      (from_source : attr c "parent_kmz_source" = .str source.value)

def Unnamed (c : CTO) : Prop :=
  attr c "parent_kmz_filename" = .null ∨ attr c "parent_kmz_filename" = .str ""

inductive Homogeneous (batch : List CTO) : Prop where
  | file (filename : String) (source : IngestSource) (nonempty : filename ≠ "")
      (all : ∀ c ∈ batch, attr c "parent_kmz_filename" = .str filename ∧
        attr c "parent_kmz_source" = .str source.value)
  | stream (sourceSystem : String)
      (all : ∀ c ∈ batch, Unnamed c ∧ c.sourceSystem = sourceSystem)

def Service.InFlight (s : Service) (flight : Flight) : Prop :=
  s.phase.flight = some flight ∨ s.orphan = some flight

section Keys

variable {pg : Postgres} {c d : CTO}

theorem bufferKey_unnamed (unnamed : Unnamed c) : bufferKey pg c = "stream:" ++ c.sourceSystem := by
  rcases unnamed with none_given | blank
  · exact bufferKey_null pg none_given
  · simp only [bufferKey, blank]
    rfl

theorem named_or_unnamed (parented : Parented c) :
    Unnamed c ∨ ∃ filename, ∃ source : IngestSource, filename ≠ "" ∧
      attr c "parent_kmz_filename" = .str filename ∧
      attr c "parent_kmz_source" = .str source.value := by
  cases parented with
  | absent none_given => exact .inl (.inl none_given)
  | empty blank => exact .inl (.inr blank)
  | named filename source nonempty file from_source =>
    exact .inr ⟨filename, source, nonempty, file, from_source⟩

theorem homogeneous_of_key {batch : List CTO} (nonempty : batch ≠ [])
    (parented : ∀ c ∈ batch, Parented c) {key : String}
    (same : ∀ c ∈ batch, bufferKey pg c = key) : Homogeneous batch := by
  obtain ⟨first, member⟩ := List.exists_mem_of_ne_nil batch nonempty
  have first_key := same first member
  rcases named_or_unnamed (parented first member) with
    unnamed | ⟨filename, source, given, file, from_source⟩
  · rw [bufferKey_unnamed unnamed] at first_key
    refine .stream first.sourceSystem ?_
    intro c among
    have key_eq := (same c among).trans first_key.symm
    rcases named_or_unnamed (parented c among) with
      unnamed' | ⟨filename', source', given', file', from_source'⟩
    · rw [bufferKey_unnamed unnamed', String.append_right_inj] at key_eq
      exact ⟨unnamed', key_eq⟩
    · rw [bufferKey_named pg given' file' from_source'] at key_eq
      exact absurd key_eq (kmzKey_ne_streamKey _ _ _)
  · rw [bufferKey_named pg given file from_source] at first_key
    refine .file filename source given ?_
    intro c among
    have key_eq := (same c among).trans first_key.symm
    rcases named_or_unnamed (parented c among) with
      unnamed' | ⟨filename', source', given', file', from_source'⟩
    · rw [bufferKey_unnamed unnamed'] at key_eq
      exact absurd key_eq.symm (kmzKey_ne_streamKey _ _ _)
    · rw [bufferKey_named pg given' file' from_source'] at key_eq
      obtain ⟨names, sources⟩ := kmzKey_injective key_eq
      rw [names] at file'
      rw [sources] at from_source'
      exact ⟨file', from_source'⟩

theorem Homogeneous.kmzParent {batch : List CTO} (uniform : Homogeneous batch) (hc : c ∈ batch)
    (hd : d ∈ batch) : kmzParent c = kmzParent d := by
  cases uniform with
  | file filename source nonempty all =>
    obtain ⟨file, from_source⟩ := all c hc
    obtain ⟨file', from_source'⟩ := all d hd
    simp only [Opstore.kmzParent, file, from_source, file', from_source']
  | stream sourceSystem all =>
    have none_of {e : CTO} (unnamed : Unnamed e) : Opstore.kmzParent e = none := by
      rcases unnamed with none_given | blank
      · exact kmzParent_null none_given
      · unfold Opstore.kmzParent
        rw [blank]
        split <;> simp_all
    rw [none_of (all c hc).1, none_of (all d hd).1]

end Keys

section Timing

/-- A key has a start time exactly as long as objects wait under it. -/
def Timed (s : Service) : Prop :=
  ∀ key, (∃ started, s.bufferStartedAt.get? key = some started) ↔ s.buffer.queue key ≠ []

theorem timed_start (db : Database) : Timed (start db) := by
  intro key
  simp [start]

theorem timed_bufferCto {s : Service} (h : Timed s) (key : String) (cto : CTO) :
    Timed (s.bufferCto key cto) := by
  intro other
  unfold Service.bufferCto
  by_cases same : other = key
  · subst same
    have full : (s.buffer.push other cto).queue other ≠ [] := by simp
    refine iff_of_true ?_ full
    by_cases idle : s.buffer.queue other = []
    · exact ⟨s.clock, by simp only [if_pos idle, Dict.get?_set_self]⟩
    · simp only [if_neg idle]
      exact (h other).mpr idle
  · have started : (if s.buffer.queue key = [] then s.bufferStartedAt.set key s.clock
        else s.bufferStartedAt).get? other = s.bufferStartedAt.get? other := by
      split
      · exact Dict.get?_set_ne _ _ same
      · rfl
    simp only [started, Dict.queue_push_ne _ _ same]
    exact h other

theorem timed_pop {s : Service} (h : Timed s) (key : String) : Timed (s.pop key) := by
  intro other
  unfold Service.pop
  by_cases same : other = key
  · subst same
    simp
  · simp only [Dict.get?_erase_ne _ same, Dict.queue_erase_ne _ same]
    exact h other

theorem timed_flushNext {s : Service} (h : Timed s) (keys : List String) :
    Timed (s.flushNext keys).1 := by
  induction keys generalizing s with
  | nil => exact h
  | cons key keys ih =>
    rw [Service.flushNext]
    split
    · exact ih (timed_pop h key)
    · exact timed_pop h key

theorem timed_flushKeys {s : Service} (h : Timed s) {keys : List String} {next : Phase}
    {writing : Flight → List String → Phase} : Timed (s.flushKeys keys writing next) := by
  have left := timed_flushNext h keys
  unfold Service.flushKeys
  split
  · rename_i flushed
    rw [flushed] at left
    exact left
  · rename_i flushed
    rw [flushed] at left
    exact left

theorem timed_count {s : Service} (h : Timed s) (flight : Flight) (ok : Bool) :
    Timed (s.count flight ok) := by
  cases ok <;> exact h

end Timing

section Flights

def Recorded (s : Service) : Prop := ∀ flight, s.InFlight flight → flight.ctos ∈ s.taken

theorem flight_landed {phase : Phase} {ok : Bool} {flight : Flight}
    (now : (phase.landed ok).flight = some flight) :
    ∃ before, phase.flight = some before ∧ before.ctos = flight.ctos := by
  cases phase with
  | serving flusher =>
    cases flusher with
    | writing before keys =>
      cases now
      exact ⟨before, rfl, rfl⟩
    | created => cases now
    | sleeping => cases now
    | ended => cases now
  | flushing before keys =>
    cases now
    exact ⟨before, rfl, rfl⟩
  | stopping => cases now
  | draining => cases now
  | returned => cases now

theorem flight_flushLoop (s : Service) : (Phase.serving s.flushLoop).flight = none := by
  unfold Service.flushLoop
  cases s.stop <;> rfl

theorem recorded_flushKeys {s : Service} {keys : List String} {next : Phase}
    {writing : Flight → List String → Phase} (h : Recorded s) (idle : next.flight = none)
    (busy : ∀ flight rest, (writing flight rest).flight = some flight) :
    Recorded (s.flushKeys keys writing next) := by
  have taking := flushNext_taking s keys
  unfold Service.flushKeys
  generalize s.flushNext keys = result at taking
  cases taking with
  | nothing =>
    rintro flight (now | orphan)
    · cases idle.symm.trans now
    · exact h flight (.inr orphan)
  | batch buffer startedAt skipped key rest waiting =>
    rintro flight (now | orphan)
    · cases (busy _ _).symm.trans now
      exact List.mem_append_right _ (List.mem_singleton.mpr rfl)
    · exact List.mem_append_left _ (h flight (.inr orphan))

theorem recorded_count {s : Service} (h : Recorded s) (flight : Flight) (ok : Bool) :
    Recorded (s.count flight ok) := by
  cases ok <;> exact h

end Flights

section Runs

variable {M : Type*} {validate : M → Option CTO} {pg : Postgres}

theorem step_timed {s t : Service} {e : Event M} (h : Timed s)
    (stepped : step validate pg s e = some t) : Timed t := by
  cases step_cases stepped with
  | buffered msg cto => exact timed_bufferCto h _ cto
  | woken => exact timed_flushKeys h
  | resumed flight keys ok => exact timed_flushKeys (timed_count h flight ok)
  | resumedLast flight keys ok => exact timed_flushKeys (timed_count h flight ok)
  | lastFlush => exact timed_flushKeys h
  | _ => exact h

theorem step_recorded {s t : Service} {e : Event M} (h : Recorded s)
    (stepped : step validate pg s e = some t) : Recorded t := by
  cases step_cases stepped with
  | started now =>
    rintro flight (now' | orphan)
    · cases (flight_flushLoop s).symm.trans now'
    · exact h flight (.inr orphan)
  | woken => exact recorded_flushKeys h (flight_flushLoop s) (fun _ _ => rfl)
  | committed flight db now running wrote =>
    rintro flight' (now' | orphan)
    · obtain ⟨before, was, same⟩ := flight_landed now'
      exact same ▸ h before (.inl was)
    · exact h flight' (.inr orphan)
  | failed flight now running =>
    rintro flight' (now' | orphan)
    · obtain ⟨before, was, same⟩ := flight_landed now'
      exact same ▸ h before (.inl was)
    · exact h flight' (.inr orphan)
  | orphanCommitted flight db now running wrote =>
    rintro flight' (now' | orphan)
    · exact h flight' (.inl now')
    · cases orphan
      exact h flight (.inr now)
  | orphanFailed flight now running =>
    rintro flight' (now' | orphan)
    · exact h flight' (.inl now')
    · cases orphan
      exact h flight (.inr now)
  | resumed flight keys ok now ended =>
    exact recorded_flushKeys (recorded_count h flight ok) (flight_flushLoop _) (fun _ _ => rfl)
  | resumedLast flight keys ok now ended =>
    exact recorded_flushKeys (recorded_count h flight ok) rfl (fun _ _ => rfl)
  | interrupted flight keys now asked =>
    -- the awaited write becomes the orphan
    rintro flight' (now' | orphan)
    · cases now'
    · cases orphan
      exact h flight (.inl (by rw [now]; rfl))
  | cancelled =>
    rintro flight' (now' | orphan)
    · cases now'
    · exact h flight' (.inr orphan)
  | lastFlush => exact recorded_flushKeys h rfl (fun _ _ => rfl)
  | drained =>
    rintro flight' (now' | orphan)
    · cases now'
    · exact h flight' (.inr orphan)
  | _ => exact h

theorem mem_arrivals {events : List (Event M)} {cto : CTO}
    (arrived : cto ∈ arrivals validate events) :
    ∃ msg, .message msg ∈ events ∧ validate msg = some cto := by
  obtain ⟨e, member, here⟩ := List.mem_filterMap.mp arrived
  cases e with
  | message msg => exact ⟨msg, member, here⟩
  | _ => cases here

theorem batch_sublist {arrived : List CTO} {s : Service} (queued : Queued pg arrived s)
    {batch : List CTO} (member : batch ∈ s.taken) : batch.Sublist arrived := by
  obtain ⟨-, key, same⟩ := queued.uniform batch member
  have own : batch.filter (fun c => bufferKey pg c = key) = batch :=
    List.filter_eq_self.mpr (fun c among => by simpa using same c among)
  have within : batch.Sublist s.taken.flatten := by
    rw [← List.flatten_singleton (l := batch)]
    exact (List.singleton_sublist.mpr member).flatten
  have listed : (s.taken.flatten.filter (fun c => bufferKey pg c = key)).Sublist
      (arrived.filter (fun c => bufferKey pg c = key)) := by
    rw [queued.order key]
    exact List.sublist_append_left _ _
  rw [← own]
  exact ((within.filter _).trans listed).trans List.filter_sublist

theorem readyKeys_of_timed {s : Service} (h : Timed s) {key : String}
    (waiting : s.buffer.queue key ≠ []) :
    ∃ started, s.bufferStartedAt.get? key = some started ∧
      (batchWindow ≤ s.clock - started → key ∈ s.readyKeys) := by
  obtain ⟨started, since⟩ := (h key).mpr waiting
  refine ⟨started, since, ?_⟩
  intro due
  refine List.mem_map.mpr ⟨(key, started), List.mem_filter.mpr ⟨?_, ?_⟩, rfl⟩
  · exact Dict.mem_items_of_get? since
  · simpa [waiting] using due

/-- Over any run, whatever happens between two messages: each batch is of one file and source or of
one stream, in the order of arrival, and its first object speaks for it; and the flush loop has a
start time for the keys under which objects wait, and for these only. -/
theorem batches_homogeneous (validate : M → Option CTO) (pg : Postgres) (db : Database)
    (events : List (Event M)) (s : Service)
    (ran : run (step validate pg) (start db) events = some s)
    (parented : ∀ msg cto, .message msg ∈ events → validate msg = some cto → Parented cto) :
    (∀ batch ∈ s.taken, Homogeneous batch ∧ batch.Sublist (arrivals validate events) ∧
        ∀ c ∈ batch, ∀ d ∈ batch, kmzParent c = kmzParent d) ∧
      (∀ flight, s.InFlight flight → flight.ctos ∈ s.taken) ∧
      (∀ key, (∃ started, s.bufferStartedAt.get? key = some started) ↔ s.buffer.queue key ≠ []) ∧
      ∀ key, s.buffer.queue key ≠ [] → ∃ started, s.bufferStartedAt.get? key = some started ∧
        (batchWindow ≤ s.clock - started → key ∈ s.readyKeys) := by
  have queued := run_queued ran
  have timed : Timed s := state_invariant Timed (timed_start db)
    (fun _ _ _ h _ stepped => step_timed h stepped) (along_true _ _ events) ran
  have recorded : Recorded s := by
    refine state_invariant Recorded ?_ (fun _ _ _ h _ stepped => step_recorded h stepped)
      (along_true _ _ events) ran
    rintro flight (now | orphan)
    · cases now
    · cases orphan
  refine ⟨?_, recorded, timed, fun key waiting => readyKeys_of_timed timed waiting⟩
  intro batch member
  have listed := batch_sublist queued member
  obtain ⟨nonempty, key, same⟩ := queued.uniform batch member
  have all : ∀ c ∈ batch, Parented c := by
    intro c among
    obtain ⟨msg, sent, valid⟩ := mem_arrivals (listed.subset among)
    exact parented msg c sent valid
  have uniform := homogeneous_of_key nonempty all same
  exact ⟨uniform, listed, fun c hc d hd => uniform.kmzParent hc hd⟩

/-- Two placemarks of a file, and one flush. -/
def twoDelivered : List (Event CTO) :=
  [.message (placemark 1 newYear), .message (placemark 2 newYear), .wake, .elapse batchWindow,
    .wake]

theorem batches_homogeneous_two :
    ∃ s, run (step some plainPostgres) (start ⟨.empty, []⟩) twoDelivered = some s ∧
      (∀ batch ∈ s.taken, Homogeneous batch ∧ batch.Sublist (arrivals some twoDelivered) ∧
        ∀ c ∈ batch, ∀ d ∈ batch, kmzParent c = kmzParent d) ∧
      (∀ flight, s.InFlight flight → flight.ctos ∈ s.taken) ∧
      (∀ key, (∃ started, s.bufferStartedAt.get? key = some started) ↔
        s.buffer.queue key ≠ []) ∧
      ∀ key, s.buffer.queue key ≠ [] → ∃ started, s.bufferStartedAt.get? key = some started ∧
        (batchWindow ≤ s.clock - started → key ∈ s.readyKeys) := by
  have from_file (uid : UUID) : Parented (placemark uid newYear) :=
    .named "a.kmz" .folder (by decide) rfl rfl
  refine ⟨_, rfl, batches_homogeneous some plainPostgres ⟨.empty, []⟩ twoDelivered _ rfl ?_⟩
  intro msg cto sent valid
  cases valid
  simp only [twoDelivered, List.mem_cons, Event.message.injEq, reduceCtorEq, List.not_mem_nil,
    or_false] at sent
  rcases sent with rfl | rfl
  · exact from_file 1
  · exact from_file 2

end Runs

end TacticalGateway.Opstore
