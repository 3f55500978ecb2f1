import TacticalGateway.Opstore.Redelivery
import TacticalGateway.Opstore.Service

/-! The table after any number of batches of fresh objects: for each KMZ file the current rows are
those of the last batch of the file. -/
namespace TacticalGateway.Opstore
open Execution
open Json (Value)

/-- What an ingest of a KMZ file publishes, in this order. -/
structure Ingest where
  filename : String
  source : IngestSource
  receivedAt : Datetime
  ctos : List CTO
  named : filename ≠ ""
  nonempty : ctos ≠ []
  attributed : ∀ c ∈ ctos, attr c "parent_kmz_filename" = .str filename ∧
    attr c "parent_kmz_source" = .str source.value
  open_ended : ∀ c ∈ ctos, c.receivedAt = receivedAt ∧ c.validTo = none

def Ingest.parent (i : Ingest) : String × String := (i.filename, i.source.value)

theorem value_nonempty (source : IngestSource) : source.value ≠ "" := by
  cases source <;> decide

theorem kmzParent_ingest {i : Ingest} {c : CTO} (member : c ∈ i.ctos) :
    kmzParent c = some i.parent := by
  obtain ⟨name, from_source⟩ := i.attributed c member
  simp only [kmzParent, name, from_source, if_pos (And.intro i.named (value_nonempty i.source))]
  rfl

/-- An object of a KMZ ingest, or one without a KMZ file name. -/
def Plain (c : CTO) : Prop :=
  (∃ i : Ingest, c ∈ i.ctos) ∨ attr c "parent_kmz_filename" = .null

theorem kmzParent_null {c : CTO} (no_file : attr c "parent_kmz_filename" = .null) :
    kmzParent c = none := by
  simp only [kmzParent, no_file]

theorem current_row {pg : Postgres} {c : CTO} {r : Row} {filename source : String} (plain : Plain c)
    (built : pg.row c = some r) :
    r.currentOf filename source = true ↔ kmzParent c = some (filename, source) := by
  rcases plain with ⟨i, member⟩ | no_file
  · obtain ⟨name, from_source⟩ := row_kmzParent built (kmzParent_ingest member)
    have open_ended : r.validTo = none := (row_of built).2.1.trans (i.open_ended c member).2
    rw [kmzParent_ingest member]
    simp [Row.currentOf, name, from_source, open_ended, Ingest.parent]
  · obtain ⟨_, _, _, name, _⟩ := row_of built
    rw [no_file, pg.text_null] at name
    rw [kmzParent_null no_file]
    simp [Row.currentOf, ← Option.some.inj name]

def Row.retireFor (sample : CTO) (r : Row) : Row :=
  match kmzParent sample with
  | some (filename, source) => r.retire filename source sample.receivedAt
  | none => r

theorem rows_retired (t : CtoTable) (sample : CTO) :
    (retired t sample).rows = t.rows.map (Row.retireFor sample) := by
  unfold retired Row.retireFor
  cases kmzParent sample with
  | none => exact (List.map_id _).symm
  | some pair => rfl

theorem retireFor_identity (sample : CTO) (r : Row) :
    (r.retireFor sample).uid = r.uid ∧
      (r.retireFor sample).parentKmzFilename = r.parentKmzFilename ∧
      (r.retireFor sample).parentKmzSource = r.parentKmzSource := by
  unfold Row.retireFor
  split
  · unfold Row.retire
    split <;> exact ⟨rfl, rfl, rfl⟩
  · exact ⟨rfl, rfl, rfl⟩

theorem current_retireFor (sample : CTO) (r : Row) (filename source : String) :
    (r.retireFor sample).currentOf filename source = true ↔
      r.currentOf filename source = true ∧ kmzParent sample ≠ some (filename, source) := by
  unfold Row.retireFor
  cases parent : kmzParent sample with
  | none => simp
  | some pair =>
    obtain ⟨f, t⟩ := pair
    by_cases own : (f, t) = (filename, source)
    · cases own
      simp [not_current_retire]
    · have other : some (f, t) ≠ some (filename, source) := fun e => own (Option.some.inj e)
      simp only [ne_eq, other, not_false_eq_true, and_true]
      unfold Row.retire
      split
      · rename_i current
        simp only [Row.currentOf, Bool.and_eq_true, decide_eq_true_eq] at current ⊢
        obtain ⟨⟨name, from_source⟩, _⟩ := current
        constructor
        · rintro ⟨⟨name', from_source'⟩, _⟩
          exact absurd (Prod.ext (Option.some.inj (name.symm.trans name'))
            (Option.some.inj (from_source.symm.trans from_source'))) own
        · rintro ⟨⟨name', from_source'⟩, _⟩
          exact absurd (Prod.ext (Option.some.inj (name.symm.trans name'))
            (Option.some.inj (from_source.symm.trans from_source'))) own
      · rfl

theorem uids_of_rows {pg : Postgres} {batch : List CTO} {rows : List Row}
    (built : List.Forall₂ (fun c r => pg.row c = some r) batch rows) :
    rows.map Row.uid = batch.map CTO.uid := by
  induction built with
  | nil => rfl
  | cons first _ ih => rw [List.map_cons, List.map_cons, (row_of first).1, ih]

theorem rows_commit {pg : Postgres} {db db' : Database} {sample : CTO} {ctos : List CTO}
    (wrote : commit pg db (sample :: ctos) = some db')
    (distinct : ((sample :: ctos).map CTO.uid).Nodup)
    (fresh : ∀ c ∈ sample :: ctos, c.uid ∉ db.cto.keys) :
    ∃ rows, List.Forall₂ (fun c r => pg.row c = some r) (sample :: ctos) rows ∧
      db'.cto.rows = db.cto.rows.map (Row.retireFor sample) ++ rows := by
  obtain ⟨⟨_, n, m⟩, done, rfl⟩ := Option.map_eq_some_iff.mp wrote
  obtain ⟨rows, all_built, table⟩ := write_cto done
  have built := Table.mapM_eq_some.mp all_built
  have keys : (retired db.cto sample).keys = db.cto.keys := by
    simp only [Table.keys, rows_retired, List.map_map]
    exact List.map_congr_left (fun r _ => (retireFor_identity sample r).1)
  refine ⟨rows, built, ?_⟩
  rw [table, Table.rows_insertAll, rows_retired, keys]
  congr 1
  apply Table.newcomers_fresh ((uids_of_rows built).symm ▸ distinct)
  intro r member
  obtain ⟨c, among, same⟩ := Table.forall₂_right built member
  rw [(row_of same).1]
  exact fresh c among

/-- The batches of a file, by their first object. -/
def batchesOf (parent : String × String) (batches : List (List CTO)) : List (List CTO) :=
  batches.filter (fun batch => batch.head?.any (fun c => kmzParent c = some parent))

/-- Batches as the service makes them from fresh objects: nonempty, of one file each. -/
structure Regular (db₀ : Database) (batches : List (List CTO)) : Prop where
  uniform : ∀ batch ∈ batches, batch ≠ [] ∧ ∀ c ∈ batch, ∀ d ∈ batch, kmzParent c = kmzParent d
  plain : ∀ c ∈ batches.flatten, Plain c
  distinct : (batches.flatten.map CTO.uid).Nodup
  fresh : ∀ c ∈ batches.flatten, c.uid ∉ db₀.cto.keys

/-- What the table holds after these batches. -/
structure Written (db₀ db : Database) (batches : List (List CTO)) : Prop where
  keys : ∀ uid ∈ db.cto.keys, uid ∈ db₀.cto.keys ∨ uid ∈ batches.flatten.map CTO.uid
  stored : ∀ c ∈ batches.flatten, ∃ r ∈ db.cto.rows, r.uid = c.uid ∧
    ∀ filename source, kmzParent c = some (filename, source) →
      r.parentKmzFilename = some filename ∧ r.parentKmzSource = some source
  current : ∀ filename source last, (batchesOf (filename, source) batches).getLast? = some last →
    ∀ uid, (∃ r ∈ db.cto.rows, r.uid = uid ∧ r.currentOf filename source = true) ↔
      uid ∈ last.map CTO.uid

theorem batchesOf_concat_own {parent : String × String} (batches : List (List CTO)) {sample : CTO}
    (ctos : List CTO) (own : kmzParent sample = some parent) :
    batchesOf parent (batches ++ [sample :: ctos]) = batchesOf parent batches ++
      [sample :: ctos] := by
  simp [batchesOf, List.filter_append, own]

theorem batchesOf_concat_other {parent : String × String} (batches : List (List CTO)) {sample : CTO}
    (ctos : List CTO) (other : kmzParent sample ≠ some parent) :
    batchesOf parent (batches ++ [sample :: ctos]) = batchesOf parent batches := by
  simp [batchesOf, List.filter_append, other]

theorem Regular.before {db₀ : Database} {batches : List (List CTO)} {batch : List CTO}
    (h : Regular db₀ (batches ++ [batch])) : Regular db₀ batches where
  uniform b member := h.uniform b (List.mem_append_left _ member)
  plain c member := h.plain c (by simp [member])
  distinct := by
    have all := h.distinct
    rw [List.flatten_append, List.map_append] at all
    exact (List.nodup_append.mp all).1
  fresh c member := h.fresh c (by simp [member])

section Commit

variable {pg : Postgres} {db₀ db db' : Database} {batches : List (List CTO)} {sample : CTO}
  {ctos : List CTO} {rows : List Row}

theorem mem_flatten_concat {c : CTO} {batch : List CTO} (member : c ∈ batch) :
    c ∈ (batches ++ [batch]).flatten := by
  simp [member]

theorem next_fresh {batch : List CTO} (h : Written db₀ db batches)
    (regular : Regular db₀ (batches ++ [batch])) :
    (batch.map CTO.uid).Nodup ∧ ∀ c ∈ batch, c.uid ∉ db.cto.keys := by
  have distinct := regular.distinct
  rw [List.flatten_append, List.flatten_singleton, List.map_append] at distinct
  obtain ⟨_, own, apart⟩ := List.nodup_append.mp distinct
  refine ⟨own, ?_⟩
  intro c member known
  rcases h.keys c.uid known with old | earlier
  · exact regular.fresh c (mem_flatten_concat member) old
  · exact apart _ earlier _ (List.mem_map_of_mem member) rfl

theorem keys_written (h : Written db₀ db batches)
    (built : List.Forall₂ (fun c r => pg.row c = some r) (sample :: ctos) rows)
    (table : db'.cto.rows = db.cto.rows.map (Row.retireFor sample) ++ rows) (uid : UUID)
    (known : uid ∈ db'.cto.keys) :
    uid ∈ db₀.cto.keys ∨ uid ∈ (batches ++ [sample :: ctos]).flatten.map CTO.uid := by
  rw [List.flatten_append, List.flatten_singleton, List.map_append, List.mem_append]
  rw [Table.keys, table, List.map_append, uids_of_rows built] at known
  rcases List.mem_append.mp known with old | new
  · obtain ⟨r', retired, rfl⟩ := List.mem_map.mp old
    obtain ⟨r, there, rfl⟩ := List.mem_map.mp retired
    rw [(retireFor_identity sample r).1]
    rcases h.keys r.uid (List.mem_map_of_mem there) with before | earlier
    · exact .inl before
    · exact .inr (.inl earlier)
  · exact .inr (.inr new)

theorem stored_written (h : Written db₀ db batches)
    (built : List.Forall₂ (fun c r => pg.row c = some r) (sample :: ctos) rows)
    (table : db'.cto.rows = db.cto.rows.map (Row.retireFor sample) ++ rows) (c : CTO)
    (member : c ∈ (batches ++ [sample :: ctos]).flatten) :
    ∃ r ∈ db'.cto.rows, r.uid = c.uid ∧ ∀ filename source, kmzParent c = some (filename, source) →
      r.parentKmzFilename = some filename ∧ r.parentKmzSource = some source := by
  rw [List.flatten_append, List.flatten_singleton, List.mem_append] at member
  rw [table]
  rcases member with earlier | now
  · obtain ⟨r, there, uid, parents⟩ := h.stored c earlier
    obtain ⟨uid', name, from_source⟩ := retireFor_identity sample r
    refine ⟨r.retireFor sample, List.mem_append_left _ (List.mem_map_of_mem there),
      uid'.trans uid, ?_⟩
    rw [name, from_source]
    exact parents
  · obtain ⟨r, there, same⟩ := Table.forall₂_left built now
    exact ⟨r, List.mem_append_right _ there, (row_of same).1,
      fun filename source parent => row_kmzParent same parent⟩

theorem current_old {filename source : String} {uid : UUID} :
    (∃ r ∈ db.cto.rows.map (Row.retireFor sample), r.uid = uid ∧
        r.currentOf filename source = true) ↔
      (∃ r ∈ db.cto.rows, r.uid = uid ∧ r.currentOf filename source = true) ∧
        kmzParent sample ≠ some (filename, source) := by
  constructor
  · rintro ⟨_, retired, rfl, current⟩
    obtain ⟨r, there, rfl⟩ := List.mem_map.mp retired
    obtain ⟨before, other⟩ := (current_retireFor sample r filename source).mp current
    exact ⟨⟨r, there, (retireFor_identity sample r).1.symm, before⟩, other⟩
  · rintro ⟨⟨r, there, rfl, before⟩, other⟩
    exact ⟨r.retireFor sample, List.mem_map_of_mem there, (retireFor_identity sample r).1,
      (current_retireFor sample r filename source).mpr ⟨before, other⟩⟩

theorem current_new {filename source : String} {uid : UUID}
    (regular : Regular db₀ (batches ++ [sample :: ctos]))
    (built : List.Forall₂ (fun c r => pg.row c = some r) (sample :: ctos) rows) :
    (∃ r ∈ rows, r.uid = uid ∧ r.currentOf filename source = true) ↔
      uid ∈ (sample :: ctos).map CTO.uid ∧ kmzParent sample = some (filename, source) := by
  have one_file (c : CTO) (member : c ∈ sample :: ctos) : kmzParent c = kmzParent sample :=
    (regular.uniform _ (by simp)).2 c member sample List.mem_cons_self
  constructor
  · rintro ⟨r, there, rfl, current⟩
    obtain ⟨c, member, same⟩ := Table.forall₂_right built there
    rw [current_row (regular.plain c (mem_flatten_concat member)) same, one_file c member]
      at current
    rw [(row_of same).1]
    exact ⟨List.mem_map_of_mem member, current⟩
  · rintro ⟨listed, parent⟩
    obtain ⟨c, member, rfl⟩ := List.mem_map.mp listed
    obtain ⟨r, there, same⟩ := Table.forall₂_left built member
    refine ⟨r, there, (row_of same).1, ?_⟩
    rw [current_row (regular.plain c (mem_flatten_concat member)) same, one_file c member]
    exact parent

theorem current_written (h : Written db₀ db batches)
    (regular : Regular db₀ (batches ++ [sample :: ctos]))
    (built : List.Forall₂ (fun c r => pg.row c = some r) (sample :: ctos) rows)
    (table : db'.cto.rows = db.cto.rows.map (Row.retireFor sample) ++ rows)
    (filename source : String) (last : List CTO)
    (latest : (batchesOf (filename, source) (batches ++ [sample :: ctos])).getLast? = some last)
    (uid : UUID) :
    (∃ r ∈ db'.cto.rows, r.uid = uid ∧ r.currentOf filename source = true) ↔
      uid ∈ last.map CTO.uid := by
  simp only [table, List.mem_append, or_and_right, exists_or, current_old,
    current_new regular built]
  by_cases own : kmzParent sample = some (filename, source)
  · rw [batchesOf_concat_own batches ctos own, List.getLast?_concat] at latest
    cases latest
    simp [own]
  · rw [batchesOf_concat_other batches ctos own] at latest
    rw [h.current filename source last latest uid]
    simp [own]

theorem commit_written {batch : List CTO} (h : Written db₀ db batches)
    (regular : Regular db₀ (batches ++ [batch])) (wrote : commit pg db batch = some db') :
    Written db₀ db' (batches ++ [batch]) := by
  obtain ⟨distinct, fresh⟩ := next_fresh h regular
  cases batch with
  | nil => exact absurd rfl (regular.uniform [] (by simp)).1
  | cons sample ctos =>
    obtain ⟨rows, built, table⟩ := rows_commit wrote distinct fresh
    exact ⟨keys_written h built table, stored_written h built table,
      current_written h regular built table⟩

end Commit

theorem run_written {pg : Postgres} {db₀ db : Database} {batches : List (List CTO)}
    (regular : Regular db₀ batches) (ran : run (commit pg) db₀ batches = some db) :
    Written db₀ db batches := by
  induction batches using List.reverseRecOn generalizing db with
  | nil =>
    cases Option.some.inj ran
    exact ⟨fun _ known => .inl known, by simp, by simp [batchesOf]⟩
  | append_singleton batches batch ih =>
    obtain ⟨db', before, last⟩ := run_concat ran
    exact commit_written (ih regular.before before) regular last

end TacticalGateway.Opstore
