import TacticalGateway.Opstore.History

/-! The audit log beside the table: which rows each transaction closes, what it records of them,
and what the records add up to after any sequence of batches. -/
namespace TacticalGateway.Opstore
open Json (Value)

def Row.ofPair (filename source : String) (r : Row) : Bool :=
  r.parentKmzFilename = some filename && r.parentKmzSource = some source

def AuditEntry.ofPair (filename source : String) (e : AuditEntry) : Bool :=
  e.details.parentKmzFilename = filename && e.details.parentKmzSource = source

def supersededCount (filename source : String) (log : List AuditEntry) : Nat :=
  ((log.filter (AuditEntry.ofPair filename source)).map (fun e => e.details.supersededCount)).sum

def closedRows (before after : Database) : List Row :=
  before.cto.rows.filter (fun r => r.validTo.isNone &&
    after.cto.rows.any (fun r' => r'.uid = r.uid && r'.validTo.isSome))

/-- The audit row says what the transaction has done to the table. -/
structure Records (before after : Database) (e : AuditEntry) : Prop where
  positive : 0 < e.details.supersededCount
  counted : e.details.supersededCount = (closedRows before after).length
  own : ∀ r ∈ closedRows before after,
    r.ofPair e.details.parentKmzFilename e.details.parentKmzSource = true
  stamped : ∀ r ∈ closedRows before after, r.closedAt e.at_ ∈ after.cto.rows

/-- One audit row where rows are closed, and none where no row is. -/
def Audited (before after : Database) : Prop :=
  (closedRows before after = [] ∧ after.auditLog = before.auditLog) ∨
    ∃ e, after.auditLog = before.auditLog ++ [e] ∧ Records before after e

/-- The `valid_to` of this uid was NULL after some of the batches. -/
def wasOpen (pg : Postgres) (db : Database) (batches : List Batch) (uid : UUID) : Bool :=
  batches.inits.any (fun now =>
    (writeBatches pg db now).cto.rows.any (fun r => r.uid = uid && r.validTo.isNone))

/-- The row is closed, and has been open. -/
def Row.superseded (pg : Postgres) (db : Database) (batches : List Batch) (r : Row) : Bool :=
  r.validTo.isSome && wasOpen pg db batches r.uid

/-- What a transaction can do: rows with new keys are added; behind a nonempty supersession there
is also one more audit row, and the current rows of the pair are retired. -/
inductive Transaction (db after : Database) : Prop where
  | kept (added : List Row) (rows : after.cto.rows = db.cto.rows ++ added)
      (fresh : ∀ r ∈ added, r.uid ∉ db.cto.keys) (log : after.auditLog = db.auditLog)
  | retired (filename source : String) (e : AuditEntry) (added : List Row)
      (rows : after.cto.rows = db.cto.rows.map (Row.retire filename source e.at_) ++ added)
      (fresh : ∀ r ∈ added, r.uid ∉ db.cto.keys) (log : after.auditLog = db.auditLog ++ [e])
      (counted : e.details.supersededCount = db.cto.rows.countP (Row.currentOf filename source))
      (positive : 0 < e.details.supersededCount)
      (name : e.details.parentKmzFilename = filename) (path : e.details.parentKmzSource = source)

variable {pg : Postgres} {db db' db₀ : Database}

theorem newcomers_unknown {K R : Type*} [DecidableEq K] {key : R → K} (known : List K)
    (rs : List R) : ∀ r ∈ Table.newcomers key known rs, key r ∉ known := by
  induction rs generalizing known with
  | nil => simp [Table.newcomers]
  | cons r rs ih =>
    rw [Table.newcomers]
    split
    · exact ih known
    · rename_i new
      rw [List.forall_mem_cons]
      refine ⟨new, ?_⟩
      intro r' later among
      exact ih _ r' later (List.mem_append_left _ among)

theorem supersedePrior_transaction (filename source : String) (t : Datetime) (uri : Value) :
    Transaction db (supersedePrior db filename source t uri).1 := by
  unfold supersedePrior
  simp only
  split
  · rename_i positive
    exact .retired filename source _ [] (List.append_nil _).symm (by simp) rfl rfl positive rfl rfl
  · rename_i none_current
    refine .kept [] ?_ (by simp) rfl
    rw [List.append_nil]
    have untouched (r : Row) (there : r ∈ db.cto.rows) : r.retire filename source t = id r := by
      have absent := List.countP_eq_zero.mp (Nat.eq_zero_of_not_pos none_current) r there
      exact retire_eq_self.mpr (by simpa using absent)
    exact (List.map_congr_left untouched).trans (List.map_id _)

theorem supersedeFor_transaction {sample : CTO} {n : Nat}
    (done : supersedeFor db sample = some (db', n)) :
    Transaction db db' ∧ db'.cto.keys = db.cto.keys := by
  have unchanged : Transaction db db := .kept [] (List.append_nil _).symm (by simp) rfl
  simp only [supersedeFor] at done
  split at done
  · split at done
    · rename_i filename source _ _
      have after := congrArg Prod.fst (Option.some.inj done)
      simp only at after
      rw [← after]
      refine ⟨supersedePrior_transaction filename source _ _, ?_⟩
      rw [supersedePrior_cto, Table.keys_update]
    · cases done
  · cases done
    exact ⟨unchanged, rfl⟩

theorem Transaction.insertAll (t : Transaction db db') (keys : db'.cto.keys = db.cto.keys)
    (rows : List Row) : Transaction db { db' with cto := db'.cto.insertAll rows } := by
  have new : ∀ r ∈ Table.newcomers Row.uid db'.cto.keys rows, r.uid ∉ db.cto.keys := by
    rw [keys]
    exact newcomers_unknown _ _
  cases t with
  | kept added rows_eq fresh log =>
    refine .kept (added ++ Table.newcomers Row.uid db'.cto.keys rows) ?_ ?_ log
    · rw [Table.rows_insertAll, rows_eq, List.append_assoc]
    · rw [List.forall_mem_append]
      exact ⟨fresh, new⟩
  | retired filename source e added rows_eq fresh log counted positive name path =>
    refine .retired filename source e (added ++ Table.newcomers Row.uid db'.cto.keys rows) ?_ ?_
      log counted positive name path
    · rw [Table.rows_insertAll, rows_eq, List.append_assoc]
    · rw [List.forall_mem_append]
      exact ⟨fresh, new⟩

theorem commit_transaction {ctos : List CTO} (wrote : commit pg db ctos = some db') :
    Transaction db db' := by
  obtain ⟨⟨_, n, m⟩, done, rfl⟩ := Option.map_eq_some_iff.mp wrote
  cases ctos with
  | nil =>
    cases done
    exact .kept [] (List.append_nil _).symm (by simp) rfl
  | cons sample ctos =>
    simp only [writeCtosWithSupersession] at done
    cases superseded : supersedeFor db sample with
    | none =>
      rw [superseded] at done
      cases done
    | some result =>
      obtain ⟨db₁, k⟩ := result
      obtain ⟨transaction, keys⟩ := supersedeFor_transaction superseded
      rw [superseded] at done
      simp only [insertCtos_eq] at done
      cases built : (sample :: ctos).mapM pg.row with
      | none =>
        rw [built] at done
        cases done
      | some rows =>
        rw [built] at done
        cases done
        exact transaction.insertAll keys rows

theorem writeBatch_transaction (pg : Postgres) (db : Database) (b : Batch) :
    Transaction db (writeBatch pg db b) := by
  have unchanged : Transaction db db := .kept [] (List.append_nil _).symm (by simp) rfl
  unfold writeBatch
  cases wrote : commit pg db b.ctos with
  | none => exact unchanged
  | some after =>
    cases b.committed with
    | false => exact unchanged
    | true => exact commit_transaction wrote

theorem row_unique {r r' : Row} (there : r ∈ db.cto.rows) (there' : r' ∈ db.cto.rows)
    (same : r.uid = r'.uid) : r = r' :=
  List.inj_on_of_nodup_map db.cto.keyed there there' same

theorem closedRows_map {f : Row → Row} {added : List Row} (keeps : ∀ r, (f r).uid = r.uid)
    (rows : db'.cto.rows = db.cto.rows.map f ++ added)
    (fresh : ∀ r ∈ added, r.uid ∉ db.cto.keys) :
    closedRows db db' =
      db.cto.rows.filter (fun r => r.validTo.isNone && (f r).validTo.isSome) := by
  apply List.filter_congr
  intro r there
  congr 1
  rw [Bool.eq_iff_iff, List.any_eq_true]
  constructor
  · rintro ⟨r', member, same⟩
    rw [Bool.and_eq_true, decide_eq_true_eq] at same
    obtain ⟨uid, closed⟩ := same
    rw [rows] at member
    rcases List.mem_append.mp member with mapped | new
    · obtain ⟨r₁, there₁, rfl⟩ := List.mem_map.mp mapped
      rw [keeps] at uid
      rw [← row_unique there₁ there uid]
      exact closed
    · exact absurd (uid ▸ List.mem_map_of_mem there) (fresh r' new)
  · intro closed
    refine ⟨f r, ?_, by simp [keeps, closed]⟩
    rw [rows]
    exact List.mem_append_left _ (List.mem_map_of_mem there)

theorem retire_closes (filename source : String) (t : Datetime) (r : Row) :
    (r.validTo.isNone && (r.retire filename source t).validTo.isSome) =
      r.currentOf filename source := by
  unfold Row.retire
  split
  · rename_i current
    rw [current]
    simp only [Row.currentOf, Bool.and_eq_true] at current
    simp [current.2]
  · rename_i other
    cases open_ended : r.validTo <;> simp_all [Row.currentOf]

theorem closedRows_retired {filename source : String} {t : Datetime} {added : List Row}
    (rows : db'.cto.rows = db.cto.rows.map (Row.retire filename source t) ++ added)
    (fresh : ∀ r ∈ added, r.uid ∉ db.cto.keys) :
    closedRows db db' = db.cto.rows.filter (Row.currentOf filename source) := by
  rw [closedRows_map (retire_uid filename source t) rows fresh]
  exact List.filter_congr (fun r _ => retire_closes filename source t r)

theorem closedRows_kept {added : List Row} (rows : db'.cto.rows = db.cto.rows ++ added)
    (fresh : ∀ r ∈ added, r.uid ∉ db.cto.keys) : closedRows db db' = [] := by
  rw [closedRows_map (f := id) (fun _ => rfl) (by rw [List.map_id]; exact rows) fresh]
  apply List.filter_eq_nil_iff.mpr
  intro r _
  cases open_ended : r.validTo <;> simp [open_ended]

theorem Transaction.audited (t : Transaction db db') : Audited db db' := by
  cases t with
  | kept added rows fresh log => exact .inl ⟨closedRows_kept rows fresh, log⟩
  | retired filename source e added rows fresh log counted positive name path =>
    refine .inr ⟨e, log, ?_⟩
    have closed := closedRows_retired rows fresh
    subst name path
    constructor
    · exact positive
    · rw [closed, counted, List.countP_eq_length_filter]
    · intro r member
      rw [closed] at member
      have current := (List.mem_filter.mp member).2
      simp only [Row.currentOf, Bool.and_eq_true] at current
      simp only [Row.ofPair, Bool.and_eq_true]
      exact current.1
    · intro r member
      rw [closed] at member
      obtain ⟨there, current⟩ := List.mem_filter.mp member
      rw [rows]
      apply List.mem_append_left
      exact List.mem_map.mpr ⟨r, there, if_pos current⟩

theorem writeBatches_concat (pg : Postgres) (db : Database) (batches : List Batch) (b : Batch) :
    writeBatches pg db (batches ++ [b]) = writeBatch pg (writeBatches pg db batches) b :=
  writeBatches_append pg db batches [b]

theorem wasOpen_iff {batches : List Batch} {uid : UUID} :
    wasOpen pg db batches uid = true ↔
      ∃ now, now <+: batches ∧ ∃ r ∈ (writeBatches pg db now).cto.rows,
        r.uid = uid ∧ r.validTo = none := by
  simp only [wasOpen, List.any_eq_true, List.mem_inits, Bool.and_eq_true, decide_eq_true_eq,
    Option.isNone_iff_eq_none]

theorem wasOpen_concat {batches : List Batch} {b : Batch} {uid : UUID} :
    wasOpen pg db (batches ++ [b]) uid = true ↔ wasOpen pg db batches uid = true ∨
      ∃ r ∈ (writeBatches pg db (batches ++ [b])).cto.rows, r.uid = uid ∧ r.validTo = none := by
  rw [wasOpen_iff, wasOpen_iff]
  constructor
  · rintro ⟨now, early, open_ended⟩
    rcases List.prefix_concat_iff.mp early with rfl | earlier
    · exact .inr open_ended
    · exact .inl ⟨now, earlier, open_ended⟩
  · rintro (⟨now, early, open_ended⟩ | open_ended)
    · exact ⟨now, early.trans (List.prefix_append _ _), open_ended⟩
    · exact ⟨_, List.prefix_rfl, open_ended⟩

theorem keys_transaction (t : Transaction db db') : db.cto.keys ⊆ db'.cto.keys := by
  intro uid known
  cases t with
  | kept added rows fresh log =>
    rw [Table.keys, rows, List.map_append]
    exact List.mem_append_left _ known
  | retired filename source e added rows fresh log counted positive name path =>
    obtain ⟨r, there, rfl⟩ := List.mem_map.mp known
    rw [Table.keys, rows, List.map_append, List.map_map]
    exact List.mem_append_left _ (List.mem_map.mpr ⟨r, there, retire_uid filename source _ r⟩)

theorem keys_writeBatches (batches : List Batch) :
    db.cto.keys ⊆ (writeBatches pg db batches).cto.keys := by
  induction batches using List.reverseRecOn with
  | nil => exact List.Subset.refl _
  | append_singleton batches b ih =>
    rw [writeBatches_concat]
    exact List.Subset.trans ih (keys_transaction (writeBatch_transaction pg _ b))

theorem known_of_wasOpen {batches : List Batch} {uid : UUID}
    (open_ended : wasOpen pg db batches uid = true) :
    uid ∈ (writeBatches pg db batches).cto.keys := by
  obtain ⟨now, ⟨later, rfl⟩, r, there, rfl, _⟩ := wasOpen_iff.mp open_ended
  rw [writeBatches_append]
  exact keys_writeBatches later (List.mem_map_of_mem there)

/-- An open row of the table has been open; so has a closed one that an earlier batch left open. -/
theorem superseded_mapped {batches : List Batch} {b : Batch} {f : Row → Row} {added : List Row}
    (keeps : ∀ r, (f r).uid = r.uid) (closed_stays : ∀ r, r.validTo ≠ none → f r = r)
    (rows : (writeBatches pg db (batches ++ [b])).cto.rows =
      (writeBatches pg db batches).cto.rows.map f ++ added)
    {r : Row} (there : r ∈ (writeBatches pg db batches).cto.rows) :
    (f r).superseded pg db (batches ++ [b]) = true ↔
      r.superseded pg db batches = true ∨
        (r.validTo.isNone && (f r).validTo.isSome) = true := by
  have now : f r ∈ (writeBatches pg db (batches ++ [b])).cto.rows := by
    rw [rows]
    exact List.mem_append_left _ (List.mem_map_of_mem there)
  have shut (closed : (f r).validTo.isSome = true) :
      ¬ ∃ r' ∈ (writeBatches pg db (batches ++ [b])).cto.rows,
        r'.uid = (f r).uid ∧ r'.validTo = none := by
    rintro ⟨r', there', uid, open_ended⟩
    rw [← row_unique there' now uid, open_ended] at closed
    cases closed
  simp only [Row.superseded, Bool.and_eq_true, wasOpen_concat, keeps]
  cases before : r.validTo with
  | none =>
    have open_before : wasOpen pg db batches r.uid = true :=
      wasOpen_iff.mpr ⟨batches, List.prefix_rfl, r, there, rfl, before⟩
    simp [open_before]
  | some t =>
    have same : f r = r := closed_stays r (by rw [before]; exact Option.some_ne_none t)
    have closed : (f r).validTo.isSome = true := by rw [same, before]; rfl
    have never := shut closed
    rw [keeps] at never
    simp only [closed, true_and, or_iff_left never]
    simp

theorem superseded_added {batches : List Batch} {b : Batch} {r : Row}
    (fresh : r.uid ∉ (writeBatches pg db batches).cto.keys)
    (now : r ∈ (writeBatches pg db (batches ++ [b])).cto.rows) :
    r.superseded pg db (batches ++ [b]) = false := by
  rw [← Bool.not_eq_true]
  intro superseded
  simp only [Row.superseded, Bool.and_eq_true, wasOpen_concat] at superseded
  obtain ⟨closed, open_before | ⟨r', there', uid, open_ended⟩⟩ := superseded
  · exact fresh (known_of_wasOpen open_before)
  · rw [← row_unique there' now uid, open_ended] at closed
    cases closed

theorem countP_or {A : Type*} {p q : A → Bool} {as : List A}
    (apart : ∀ a ∈ as, p a = true → q a = false) :
    as.countP (fun a => p a || q a) = as.countP p + as.countP q := by
  induction as with
  | nil => rfl
  | cons a as ih =>
    rw [List.forall_mem_cons] at apart
    simp only [List.countP_cons, ih apart.2]
    cases here : p a with
    | true =>
      simp only [apart.1 here, Bool.true_or, if_true, Bool.false_eq_true, if_false]
      omega
    | false =>
      simp only [Bool.false_or, Bool.false_eq_true, if_false]
      omega

/-- The rows of a pair that a supersession has closed. -/
def supersededRows (pg : Postgres) (db : Database) (batches : List Batch)
    (filename source : String) : List Row :=
  (writeBatches pg db batches).cto.rows.filter
    (fun r => r.ofPair filename source && r.superseded pg db batches)

theorem supersededRows_nil (pg : Postgres) (db : Database) (filename source : String) :
    supersededRows pg db [] filename source = [] := by
  apply List.filter_eq_nil_iff.mpr
  intro r there both
  simp only [Row.superseded, Bool.and_eq_true, wasOpen_iff] at both
  obtain ⟨_, closed, now, early, r', there', uid, open_ended⟩ := both
  rw [List.prefix_nil.mp early] at there'
  rw [← row_unique there' there uid, open_ended] at closed
  cases closed

theorem length_supersededRows {batches : List Batch} {b : Batch} {f : Row → Row}
    {added : List Row} {filename source : String} (keeps : ∀ r, (f r).uid = r.uid)
    (own : ∀ r, (f r).ofPair filename source = r.ofPair filename source)
    (closed_stays : ∀ r, r.validTo ≠ none → f r = r)
    (rows : (writeBatches pg db (batches ++ [b])).cto.rows =
      (writeBatches pg db batches).cto.rows.map f ++ added)
    (fresh : ∀ r ∈ added, r.uid ∉ (writeBatches pg db batches).cto.keys) :
    (supersededRows pg db (batches ++ [b]) filename source).length =
      (supersededRows pg db batches filename source).length +
        (writeBatches pg db batches).cto.rows.countP (fun r => r.ofPair filename source &&
          (r.validTo.isNone && (f r).validTo.isSome)) := by
  have none_added : added.countP (fun r => r.ofPair filename source &&
      r.superseded pg db (batches ++ [b])) = 0 := by
    apply List.countP_eq_zero.mpr
    intro r member
    have now : r ∈ (writeBatches pg db (batches ++ [b])).cto.rows := by
      rw [rows]
      exact List.mem_append_right _ member
    simp [superseded_added (fresh r member) now]
  rw [supersededRows, supersededRows, ← List.countP_eq_length_filter,
    ← List.countP_eq_length_filter, ← countP_or]
  · nth_rewrite 1 [rows]
    rw [List.countP_append, none_added, Nat.add_zero, List.countP_map]
    apply List.countP_congr
    intro r there
    simp only [Function.comp, own, Bool.and_eq_true, Bool.or_eq_true]
    rw [superseded_mapped keeps closed_stays rows there, Bool.and_eq_true, and_or_left]
  · intro r _ already
    simp only [Row.superseded, Bool.and_eq_true] at already
    cases closed : r.validTo with
    | none =>
      rw [closed] at already
      cases already.2.1
    | some t => simp

theorem retire_ofPair (filename source filename' source' : String) (t : Datetime) (r : Row) :
    (r.retire filename source t).ofPair filename' source' = r.ofPair filename' source' := by
  unfold Row.retire
  split <;> rfl

theorem retire_closed {filename source : String} {t : Datetime} {r : Row}
    (closed : r.validTo ≠ none) : r.retire filename source t = r := by
  apply retire_eq_self.mpr
  cases open_ended : r.validTo with
  | none => exact absurd open_ended closed
  | some t => simp [Row.currentOf, open_ended]

theorem countP_ofPair_currentOf (rows : List Row) (filename source filename' source' : String) :
    rows.countP (fun r => r.ofPair filename' source' && r.currentOf filename source) =
      if filename = filename' ∧ source = source' then rows.countP (Row.currentOf filename source)
      else 0 := by
  split
  · rename_i same
    obtain ⟨rfl, rfl⟩ := same
    apply List.countP_congr
    intro r _
    simp only [Row.ofPair, Row.currentOf, Bool.and_eq_true]
    exact ⟨fun both => both.2, fun current => ⟨current.1, current⟩⟩
  · rename_i other
    apply List.countP_eq_zero.mpr
    intro r _ both
    simp only [Row.ofPair, Row.currentOf, Bool.and_eq_true, decide_eq_true_eq] at both
    obtain ⟨⟨name', path'⟩, ⟨name, path⟩, _⟩ := both
    exact other ⟨Option.some.inj (name.symm.trans name'), Option.some.inj (path.symm.trans path')⟩

theorem supersededCount_append (filename source : String) (log new : List AuditEntry) :
    supersededCount filename source (log ++ new) =
      supersededCount filename source log + supersededCount filename source new := by
  simp [supersededCount, List.filter_append]

theorem supersededCount_single (filename source : String) (e : AuditEntry) :
    supersededCount filename source [e] =
      if e.details.parentKmzFilename = filename ∧ e.details.parentKmzSource = source then
        e.details.supersededCount
      else 0 := by
  simp only [supersededCount, List.filter_cons, List.filter_nil, AuditEntry.ofPair,
    Bool.and_eq_true, decide_eq_true_eq]
  split <;> simp

/-- Table and log stay in step: what one more batch adds to the one, it adds to the other. -/
theorem supersededCount_step (pg : Postgres) (db : Database) (batches : List Batch) (b : Batch) :
    ∃ new, (writeBatches pg db (batches ++ [b])).auditLog =
        (writeBatches pg db batches).auditLog ++ new ∧
      (∀ e ∈ new, 0 < e.details.supersededCount) ∧
      ∀ filename source, (supersededRows pg db (batches ++ [b]) filename source).length =
        (supersededRows pg db batches filename source).length +
          supersededCount filename source new := by
  have transaction := writeBatch_transaction pg (writeBatches pg db batches) b
  rw [← writeBatches_concat] at transaction
  cases transaction with
  | kept added rows fresh log =>
    refine ⟨[], by rw [log, List.append_nil], by simp, ?_⟩
    intro filename source
    rw [length_supersededRows (f := id) (fun _ => rfl) (fun _ => rfl) (fun _ _ => rfl)
      (by rw [List.map_id]; exact rows) fresh]
    congr 1
    apply List.countP_eq_zero.mpr
    intro r _
    cases open_ended : r.validTo <;> simp [open_ended]
  | retired filename source e added rows fresh log counted positive name path =>
    refine ⟨[e], log, by simpa using positive, ?_⟩
    intro filename' source'
    rw [length_supersededRows (retire_uid filename source e.at_)
      (retire_ofPair filename source filename' source' e.at_) (fun _ => retire_closed) rows fresh]
    congr 1
    simp only [retire_closes]
    rw [countP_ofPair_currentOf, supersededCount_single, counted, name, path]

/-- Over any batches, committed or not: each transaction that closes rows writes one audit row, for
exactly these rows; and the audit rows of a pair add up to its rows that have been superseded. -/
theorem audit_exact (pg : Postgres) (db : Database) (batches : List Batch) :
    (∀ before b after, batches = before ++ b :: after →
      Audited (writeBatches pg db before) (writeBatches pg db (before ++ [b]))) ∧
    ∃ new, (writeBatches pg db batches).auditLog = db.auditLog ++ new ∧
      (∀ e ∈ new, 0 < e.details.supersededCount) ∧
      ∀ filename source, supersededCount filename source new =
        (supersededRows pg db batches filename source).length := by
  constructor
  · intro before b after _
    rw [writeBatches_concat]
    exact (writeBatch_transaction pg _ b).audited
  · induction batches using List.reverseRecOn with
    | nil =>
      refine ⟨[], (List.append_nil _).symm, by simp, ?_⟩
      intro filename source
      rw [supersededRows_nil]
      rfl
    | append_singleton batches b ih =>
      obtain ⟨new, log, positive, counted⟩ := ih
      obtain ⟨more, log', positive', step⟩ := supersededCount_step pg db batches b
      refine ⟨new ++ more, by rw [log', log, List.append_assoc], ?_, ?_⟩
      · rw [List.forall_mem_append]
        exact ⟨positive, positive'⟩
      · intro filename source
        rw [supersededCount_append, counted, step]

end TacticalGateway.Opstore
