import TacticalGateway.Opstore.Batches

/-! The life of a row of the cto table, over any sequence of batches: it stays as it was inserted,
or one batch closes it and it stays as that batch left it. -/
namespace TacticalGateway.Opstore
open Execution
open Json (Value)

/-- A batch, and whether its transaction is committed where no statement has raised. -/
structure Batch where
  ctos : List CTO
  committed : Bool

def writeBatch (pg : Postgres) (db : Database) (b : Batch) : Database :=
  match commit pg db b.ctos with
  | some after => if b.committed then after else db
  | none => db

def writeBatches (pg : Postgres) (db : Database) (batches : List Batch) : Database :=
  batches.foldl (writeBatch pg) db

/-- The batch, with this first object, closes the row. -/
structure Batch.Retires (b : Batch) (sample : CTO) (r : Row) : Prop where
  committed : b.committed = true
  first : b.ctos.head? = some sample
  open_ended : r.validTo = none
  filename : ∃ name, attr sample "parent_kmz_filename" = .str name ∧ r.parentKmzFilename = some name
  source : ∃ path, attr sample "parent_kmz_source" = .str path ∧ r.parentKmzSource = some path

def Row.closedAt (r : Row) (t : Datetime) : Row := { r with validTo := some t }

section

variable (pg : Postgres) (db : Database) (r : Row)

/-- The row is in the table, as it is, after each of these batches. -/
def Stays (batches : List Batch) : Prop :=
  ∀ now, now <+: batches → r ∈ (writeBatches pg db now).cto.rows

def Life (batches : List Batch) : Prop :=
  Stays pg db r batches ∨
    ∃ before b after sample, batches = before ++ b :: after ∧ b.Retires sample r ∧
      Stays pg db r before ∧
      Stays pg (writeBatches pg db (before ++ [b])) (r.closedAt sample.receivedAt) after

end

variable {pg : Postgres} {db : Database} {r : Row}

theorem writeBatches_append (pg : Postgres) (db : Database) (first second : List Batch) :
    writeBatches pg db (first ++ second) = writeBatches pg (writeBatches pg db first) second :=
  List.foldl_append

theorem kmzParent_eq_some {sample : CTO} {filename source : String}
    (parent : kmzParent sample = some (filename, source)) :
    attr sample "parent_kmz_filename" = .str filename ∧
      attr sample "parent_kmz_source" = .str source := by
  unfold kmzParent at parent
  split at parent
  · rename_i name path
    split at parent
    · cases parent
      exact ⟨name, path⟩
    · cases parent
  · cases parent

theorem retireFor_cases (sample : CTO) (r : Row) :
    r.retireFor sample = r ∨
      ∃ filename source, kmzParent sample = some (filename, source) ∧
        r.currentOf filename source = true ∧ r.retireFor sample = r.closedAt sample.receivedAt := by
  unfold Row.retireFor
  cases parent : kmzParent sample with
  | none => exact .inl rfl
  | some pair =>
    obtain ⟨filename, source⟩ := pair
    cases current : r.currentOf filename source with
    | false => exact .inl (retire_eq_self.mpr current)
    | true => exact .inr ⟨filename, source, rfl, current, if_pos current⟩

theorem commit_keeps {sample : CTO} {ctos : List CTO} {after : Database}
    (wrote : commit pg db (sample :: ctos) = some after) (stored : r ∈ db.cto.rows) :
    r.retireFor sample ∈ after.cto.rows := by
  obtain ⟨⟨_, n, m⟩, done, rfl⟩ := Option.map_eq_some_iff.mp wrote
  obtain ⟨rows, _, table⟩ := write_cto done
  rw [table, Table.rows_insertAll, rows_retired]
  exact List.mem_append_left _ (List.mem_map_of_mem stored)

theorem row_step (b : Batch) (stored : r ∈ db.cto.rows) :
    r ∈ (writeBatch pg db b).cto.rows ∨
      ∃ sample, b.Retires sample r ∧
        r.closedAt sample.receivedAt ∈ (writeBatch pg db b).cto.rows := by
  unfold writeBatch
  cases wrote : commit pg db b.ctos with
  | none => exact .inl stored
  | some after =>
    cases committed : b.committed with
    | false => exact .inl stored
    | true =>
      simp only [if_true]
      cases ctos : b.ctos with
      | nil =>
        rw [ctos] at wrote
        cases Option.some.inj wrote
        exact .inl stored
      | cons sample rest =>
        rw [ctos] at wrote
        have kept := commit_keeps wrote stored
        rcases retireFor_cases sample r with same | ⟨filename, source, parent, current, closed⟩
        · rw [same] at kept
          exact .inl kept
        · rw [closed] at kept
          obtain ⟨name, path⟩ := kmzParent_eq_some parent
          simp only [Row.currentOf, Bool.and_eq_true, decide_eq_true_eq,
            Option.isNone_iff_eq_none] at current
          obtain ⟨⟨own_name, own_path⟩, open_ended⟩ := current
          exact .inr ⟨sample, ⟨committed, by rw [ctos]; rfl, open_ended, ⟨filename, name, own_name⟩,
            ⟨source, path, own_path⟩⟩, kept⟩

theorem stays_cons {b : Batch} {batches : List Batch} (stored : r ∈ db.cto.rows)
    (later : Stays pg (writeBatch pg db b) r batches) : Stays pg db r (b :: batches) := by
  intro now early
  cases now with
  | nil => exact stored
  | cons b' now =>
    obtain ⟨same, rest⟩ := List.cons_prefix_cons.mp early
    subst same
    exact later now rest

theorem closed_stays (batches : List Batch) (stored : r ∈ db.cto.rows) (closed : r.validTo ≠ none) :
    Stays pg db r batches := by
  induction batches generalizing db with
  | nil =>
    intro now early
    rw [List.prefix_nil.mp early]
    exact stored
  | cons b batches ih =>
    rcases row_step b stored with same | ⟨sample, retires, _⟩
    · exact stays_cons stored (ih same)
    · exact absurd retires.open_ended closed

theorem row_life (pg : Postgres) (batches : List Batch) (stored : r ∈ db.cto.rows) :
    Life pg db r batches := by
  induction batches generalizing db with
  | nil =>
    left
    intro now early
    rw [List.prefix_nil.mp early]
    exact stored
  | cons b batches ih =>
    rcases row_step b stored with same | ⟨sample, retires, closed⟩
    · rcases ih same with stays | ⟨before, b', after, sample, rfl, retires, stays, closed⟩
      · exact .inl (stays_cons stored stays)
      · exact .inr ⟨b :: before, b', after, sample, rfl, retires, stays_cons stored stays, closed⟩
    · refine .inr ⟨[], b, batches, sample, rfl, retires, ?_, ?_⟩
      · intro now early
        rw [List.prefix_nil.mp early]
        exact stored
      · apply closed_stays batches closed
        intro open_ended
        cases open_ended

theorem writeBatch_failed {b : Batch} (failed : commit pg db b.ctos = none ∨ b.committed = false) :
    writeBatch pg db b = db := by
  unfold writeBatch
  rcases failed with raised | rolled_back
  · rw [raised]
  · rw [rolled_back]
    split <;> rfl

theorem other_path_stays {batches : List Batch} {path : String} (stored : r ∈ db.cto.rows)
    (own : r.parentKmzSource = some path)
    (foreign : ∀ b ∈ batches, ∀ sample, b.ctos.head? = some sample →
      attr sample "parent_kmz_source" ≠ .str path) : Stays pg db r batches := by
  rcases row_life pg batches stored with stays | ⟨before, b, after, sample, rfl, retires, _⟩
  · exact stays
  · obtain ⟨path', named, same⟩ := retires.source
    cases own.symm.trans same
    exact absurd named (foreign b (by simp) sample retires.first)

/-- Rows are inserted once and never removed. A row changes at most once, in its `valid_to`, when
a later batch of its own file and path comes in; batches of another path leave it alone, and a
failed batch leaves the database as it was. -/
theorem history_immutable (pg : Postgres) (db : Database) (earlier later : List Batch) :
    (∀ r ∈ (writeBatches pg db earlier).cto.rows, Life pg (writeBatches pg db earlier) r later) ∧
    (∀ r ∈ (writeBatches pg db earlier).cto.rows, ∀ path, r.parentKmzSource = some path →
      (∀ b ∈ later, ∀ sample, b.ctos.head? = some sample →
        attr sample "parent_kmz_source" ≠ .str path) →
      Stays pg (writeBatches pg db earlier) r later) ∧
    ∀ b : Batch, commit pg (writeBatches pg db earlier) b.ctos = none ∨ b.committed = false →
      writeBatches pg db (earlier ++ [b]) = writeBatches pg db earlier := by
  refine ⟨fun r stored => row_life pg later stored,
    fun r stored path own foreign => other_path_stays stored own foreign, ?_⟩
  intro b failed
  rw [writeBatches_append]
  exact writeBatch_failed failed

section Service

variable {M : Type*} {validate : M → Option CTO}

theorem db_flushKeys (s : Service) (keys : List String) (writing : Flight → List String → Phase)
    (next : Phase) : (s.flushKeys keys writing next).db = s.db := by
  have taking := flushNext_taking s keys
  unfold Service.flushKeys
  generalize s.flushNext keys = result at taking
  cases taking <;> rfl

theorem db_count (s : Service) (flight : Flight) (ok : Bool) : (s.count flight ok).db = s.db := by
  cases ok <;> rfl

theorem step_writes {s t : Service} {e : Event M} (stepped : step validate pg s e = some t) :
    ∃ batches, t.db = writeBatches pg s.db batches := by
  have quiet {u : Service} (same : u.db = s.db) : ∃ batches, u.db = writeBatches pg s.db batches :=
    ⟨[], same⟩
  have one {db' : Database} {ctos : List CTO} (wrote : commit pg s.db ctos = some db') :
      ∃ batches, db' = writeBatches pg s.db batches := by
    refine ⟨[⟨ctos, true⟩], ?_⟩
    simp only [writeBatches, List.foldl_cons, List.foldl_nil, writeBatch, wrote, if_true]
  cases step_cases stepped with
  | committed flight db' _ _ wrote => exact one wrote
  | orphanCommitted flight db' _ _ wrote => exact one wrote
  | woken => exact quiet (db_flushKeys _ _ _ _)
  | resumed flight keys ok => exact quiet ((db_flushKeys _ _ _ _).trans (db_count s flight ok))
  | resumedLast flight keys ok => exact quiet ((db_flushKeys _ _ _ _).trans (db_count s flight ok))
  | lastFlush => exact quiet (db_flushKeys _ _ _ _)
  | _ => exact quiet rfl

/-- Whatever happens to the service, its database is the first one after some batches, so the
rows in it have the life described above. -/
theorem service_writes {events : List (Event M)} {s : Service}
    (ran : run (step validate pg) (start db) events = some s) :
    ∃ batches, s.db = writeBatches pg db batches := by
  apply state_invariant (fun s => ∃ batches, s.db = writeBatches pg db batches) ⟨[], rfl⟩ ?_
    (along_true _ _ events) ran
  rintro t e u ⟨batches, before⟩ _ stepped
  obtain ⟨more, after⟩ := step_writes stepped
  exact ⟨batches ++ more, by rw [after, before, writeBatches_append]⟩

end Service

end TacticalGateway.Opstore
