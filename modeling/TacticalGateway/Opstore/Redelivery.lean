import TacticalGateway.Opstore.Writer

/-! What a batch write does to the table, and what a second write of the same batch does. -/
namespace TacticalGateway.Opstore
open Text
open Json (Value)

/-- The pair whose current rows a batch supersedes, by its first object. -/
def kmzParent (cto : CTO) : Option (String × String) :=
  match attr cto "parent_kmz_filename", attr cto "parent_kmz_source" with
  | .str filename, .str source => if filename ≠ "" ∧ source ≠ "" then
    some (filename, source) else none
  | _, _ => none

def retired (t : CtoTable) (sample : CTO) : CtoTable :=
  match kmzParent sample with
  | some (filename, source) =>
    t.update (Row.retire filename source sample.receivedAt) (retire_uid _ _ _)
  | none => t

theorem insertCtos_eq (pg : Postgres) (t : CtoTable) (inserted : Nat) (ctos : List CTO) :
    insertCtos pg t inserted ctos =
      (ctos.mapM pg.row).map (fun rows =>
        (t.insertAll rows, inserted + (Table.newcomers Row.uid t.keys rows).length)) := by
  induction ctos generalizing t inserted with
  | nil => rfl
  | cons cto ctos ih =>
    rw [insertCtos, List.mapM_cons]
    cases built : pg.row cto with
    | none => rfl
    | some row =>
      simp only [Option.bind_eq_bind, Option.bind_some, ih]
      cases rest : ctos.mapM pg.row with
      | none => rfl
      | some rows =>
        simp only [Option.map_some, Option.bind_some, Option.pure_def, Option.some.injEq,
          Prod.mk.injEq]
        refine ⟨rfl, ?_⟩
        rw [Table.newcomers]
        by_cases known : row.uid ∈ t.keys
        · rw [if_pos known, if_pos known, Table.insertNew_of_mem known]
        · rw [if_neg known, if_neg known, Table.keys_insertNew known, List.length_cons]
          omega

theorem supersedePrior_cto (db : Database) (filename source : String) (t : Datetime) (uri : Value) :
    (supersedePrior db filename source t uri).1.cto =
      db.cto.update (Row.retire filename source t) (retire_uid _ _ _) := by
  unfold supersedePrior
  simp only
  split <;> rfl

theorem truthy_str (s : String) : (Value.str s).truthy = decide (s ≠ "") := by
  simp only [Value.truthy, bne, ne_eq, decide_not]
  rfl

theorem supersedeFor_spec (sample : CTO) :
    (∀ db, supersedeFor db sample = none) ∨
      ∀ db, ∃ db' n, supersedeFor db sample = some (db', n) ∧ db'.cto = retired db.cto sample := by
  unfold supersedeFor retired kmzParent
  cases attr sample "parent_kmz_filename" <;> cases attr sample "parent_kmz_source"
  case str.str filename source =>
    right
    intro db
    by_cases both : filename ≠ "" ∧ source ≠ ""
    · simp only [truthy_str, decide_eq_true both.1, decide_eq_true both.2, Bool.and_self, if_true,
        if_pos both]
      exact ⟨_, _, rfl, supersedePrior_cto _ _ _ _ _⟩
    · refine ⟨db, 0, ?_, ?_⟩
      · rw [if_neg]
        simpa [truthy_str] using both
      · simp only [if_neg both]
  all_goals
    simp only
    split
    · exact .inl fun _ => rfl
    · exact .inr fun db => ⟨db, 0, rfl, rfl⟩

theorem write_cto {pg : Postgres} {db db' : Database} {sample : CTO} {ctos : List CTO} {n m : Nat}
    (wrote : writeCtosWithSupersession pg db (sample :: ctos) = some (db', n, m)) :
    ∃ rows, (sample :: ctos).mapM pg.row = some rows ∧
      db'.cto = (retired db.cto sample).insertAll rows := by
  rcases supersedeFor_spec sample with raises | superseded
  · simp only [writeCtosWithSupersession, raises db] at wrote
    cases wrote
  · obtain ⟨db₁, k, done, table⟩ := superseded db
    simp only [writeCtosWithSupersession, done, insertCtos_eq] at wrote
    cases built : (sample :: ctos).mapM pg.row with
    | none =>
      rw [built] at wrote
      cases wrote
    | some rows =>
      rw [built] at wrote
      cases wrote
      exact ⟨rows, rfl, by rw [table]⟩

theorem write_again {pg : Postgres} {db db' : Database} {sample : CTO} {ctos : List CTO} {n m : Nat}
    (wrote : writeCtosWithSupersession pg db (sample :: ctos) = some (db', n, m))
    (other : Database) :
    ∃ db'' n' m', writeCtosWithSupersession pg other (sample :: ctos) = some (db'', n', m') := by
  obtain ⟨rows, built, _⟩ := write_cto wrote
  rcases supersedeFor_spec sample with raises | superseded
  · simp only [writeCtosWithSupersession, raises db] at wrote
    cases wrote
  · obtain ⟨db₁, k, done, _⟩ := superseded other
    simp only [writeCtosWithSupersession, done, insertCtos_eq, built]
    exact ⟨_, _, _, rfl⟩

theorem row_of {pg : Postgres} {cto : CTO} {row : Row} (built : pg.row cto = some row) :
    row.uid = cto.uid ∧ row.validTo = cto.validTo ∧ row.receivedAt = cto.receivedAt ∧
      pg.text (attr cto "parent_kmz_filename") = some row.parentKmzFilename ∧
      pg.text (attr cto "parent_kmz_source") = some row.parentKmzSource := by
  unfold Postgres.row at built
  split at built
  · rename_i filename source
    simp only at built
    split at built
    · cases built
      exact ⟨rfl, rfl, rfl, filename, source⟩
    · cases built
  · cases built

theorem row_kmzParent {pg : Postgres} {cto : CTO} {row : Row} {filename source : String}
    (built : pg.row cto = some row) (parent : kmzParent cto = some (filename, source)) :
    row.parentKmzFilename = some filename ∧ row.parentKmzSource = some source := by
  obtain ⟨_, _, _, names, sources⟩ := row_of built
  unfold kmzParent at parent
  split at parent
  · rename_i first second
    split at parent
    · cases parent
      rw [first] at names
      rw [second] at sources
      exact ⟨pg.text_str _ _ names, pg.text_str _ _ sources⟩
    · cases parent
  · cases parent

theorem newcomers_rows {pg : Postgres} {known : List UUID} {ctos : List CTO} {rows : List Row}
    (built : List.Forall₂ (fun cto row => pg.row cto = some row) ctos rows) :
    List.Forall₂ (fun cto row => pg.row cto = some row) (Table.newcomers CTO.uid known ctos)
      (Table.newcomers Row.uid known rows) := by
  induction built generalizing known with
  | nil => exact .nil
  | cons first rest ih =>
    rw [Table.newcomers, Table.newcomers, (row_of first).1]
    split
    · exact ih
    · exact .cons first ih

theorem retire_eq_self {filename source : String} {t : Datetime} {r : Row} :
    r.retire filename source t = r ↔ r.currentOf filename source = false := by
  unfold Row.retire
  cases current : r.currentOf filename source with
  | false => simp
  | true =>
    simp only [if_true, Bool.true_eq_false, iff_false]
    intro same
    have set := congrArg Row.validTo same
    simp only [Row.currentOf, Bool.and_eq_true, Option.isNone_iff_eq_none] at current
    rw [current.2] at set
    cases set

theorem not_current_retire {filename source : String} {t : Datetime} (r : Row) :
    (r.retire filename source t).currentOf filename source = false := by
  unfold Row.retire
  split
  · simp [Row.currentOf]
  · rename_i other
    simpa using other

theorem current_after_write {pg : Postgres} {db db' : Database} {sample : CTO} {ctos : List CTO}
    {n m : Nat} {filename source : String} (parent : kmzParent sample = some (filename, source))
    (wrote : writeCtosWithSupersession pg db (sample :: ctos) = some (db', n, m)) (r : Row) :
    r ∈ db'.cto.rows ∧ r.currentOf filename source = true ↔
      ∃ c ∈ Table.newcomers CTO.uid db.cto.keys (sample :: ctos), pg.row c = some r ∧
        r.currentOf filename source = true := by
  obtain ⟨rows, built, table⟩ := write_cto wrote
  have keys : (retired db.cto sample).keys = db.cto.keys := by
    simp only [retired, parent, Table.keys_update]
  have new : List.Forall₂ (fun c r => pg.row c = some r)
      (Table.newcomers CTO.uid db.cto.keys (sample :: ctos))
        (Table.newcomers Row.uid db.cto.keys rows) :=
    newcomers_rows (Table.mapM_eq_some.mp built)
  rw [table, Table.rows_insertAll, keys, List.mem_append]
  constructor
  · rintro ⟨old | added, current⟩
    · simp only [retired, parent, Table.update, List.mem_map] at old
      obtain ⟨r', _, rfl⟩ := old
      rw [not_current_retire] at current
      cases current
    · obtain ⟨c, among, same⟩ := Table.forall₂_right new added
      exact ⟨c, among, same, current⟩
  · rintro ⟨c, among, same, current⟩
    obtain ⟨r', added, same'⟩ := Table.forall₂_left new among
    cases same.symm.trans same'
    exact ⟨.inr added, current⟩

/-- The batch has no KMZ parent, or brings no current row that the table does not have. -/
def Redeliverable (t : CtoTable) (sample : CTO) (ctos : List CTO) : Prop :=
  kmzParent sample = none ∨ ∀ c ∈ Table.newcomers CTO.uid t.keys (sample :: ctos), c.validTo ≠ none

theorem retired_eq_self {t : CtoTable} {sample : CTO} {filename source : String}
    (parent : kmzParent sample = some (filename, source)) :
    retired t sample = t ↔ ∀ r ∈ t.rows, r.currentOf filename source = false := by
  simp only [retired, parent, Table.update_eq_self, retire_eq_self]

theorem current_iff_open {pg : Postgres} {c : CTO} {r : Row} {filename source : String}
    (own : kmzParent c = some (filename, source)) (built : pg.row c = some r) :
    r.currentOf filename source = true ↔ c.validTo = none := by
  obtain ⟨name, from_source⟩ := row_kmzParent built own
  simp [Row.currentOf, name, from_source, (row_of built).2.1]

/-- A second write of a batch keeps the table exactly when the first one added no current row. -/
theorem rewrite_keeps_table_iff (pg : Postgres) (db db₁ : Database) (sample : CTO) (ctos : List CTO)
    (n m : Nat) (shared : ∀ c ∈ ctos, kmzParent c = kmzParent sample)
    (wrote : writeCtosWithSupersession pg db (sample :: ctos) = some (db₁, n, m)) :
    ∃ db₂ n' m', writeCtosWithSupersession pg db₁ (sample :: ctos) = some (db₂, n', m') ∧
      (db₂.cto = db₁.cto ↔ Redeliverable db.cto sample ctos) := by
  obtain ⟨db₂, n', m', again⟩ := write_again wrote db₁
  refine ⟨db₂, n', m', again, ?_⟩
  obtain ⟨rows, built, table₁⟩ := write_cto wrote
  obtain ⟨rows', built', table₂⟩ := write_cto again
  cases built.symm.trans built'
  cases parent : kmzParent sample with
  | none =>
    have same : db₂.cto = db₁.cto := by
      rw [table₂, retired, parent]
      apply Table.insertAll_of_known
      rw [table₁]
      exact fun r member => Table.mem_keys_insertAll _ rows member
    exact iff_of_true same (.inl parent)
  | some pair =>
    obtain ⟨filename, source⟩ := pair
    have keys : (retired db₁.cto sample).keys = db₁.cto.keys := by
      simp only [retired, parent, Table.keys_update]
    have no_insert : db₂.cto = retired db₁.cto sample := by
      rw [table₂]
      apply Table.insertAll_of_known
      rw [keys, table₁]
      exact fun r member => Table.mem_keys_insertAll _ rows member
    have own (c : CTO) (member : c ∈ sample :: ctos) : kmzParent c = some (filename, source) := by
      rcases List.mem_cons.mp member with rfl | later
      · exact parent
      · rw [shared c later, parent]
    rw [no_insert, retired_eq_self parent]
    constructor
    · intro untouched
      refine .inr ?_
      intro c new open_ended
      have member := Table.newcomers_subset _ _ new
      obtain ⟨r, _, same⟩ := Table.forall₂_left (Table.mapM_eq_some.mp built) member
      have now : r.currentOf filename source = true :=
        (current_iff_open (own c member) same).mpr open_ended
      have there := ((current_after_write parent wrote r).mpr ⟨c, new, same, now⟩).1
      rw [untouched r there] at now
      cases now
    · rintro (no_parent | closed) r there
      · rw [parent] at no_parent
        cases no_parent
      · by_contra now
        have now : r.currentOf filename source = true := by simpa using now
        obtain ⟨c, new, same, _⟩ := (current_after_write parent wrote r).mp ⟨there, now⟩
        exact closed c new ((current_iff_open (own c (Table.newcomers_subset _ _ new)) same).mp now)

/-- A server that takes every row and stores text as text. -/
def plainPostgres : Postgres where
  pyStr := fun v => match v with
    | .str s => s
    | _ => "0.0"
  text := fun v => match v with
    | .null => some none
    | .str s => some (some s)
    | _ => none
  admits := fun _ => true
  pyStr_str _ := rfl
  text_null := rfl
  text_str s column h := by
    cases h
    rfl

theorem origin_valid : validateCoordinates .point [.num 0, .num 0] = .ok () := by
  simp [validateCoordinates, isNumber]

def placemark (uid : UUID) (receivedAt : Datetime) : CTO :=
  { uid := uid
    sourceSystem := "folder:/inbox"
    sourceProtocol := .kmz
    ingestSource := .folder
    receivedAt := receivedAt
    eventTime := receivedAt
    geometry := ⟨.point, [.num 0, .num 0], origin_valid⟩
    attributes := (Dict.empty.set "parent_kmz_filename" (.str "a.kmz")).set "parent_kmz_source"
      (.str "folder") }

theorem placemark_parent (uid : UUID) (receivedAt : Datetime) :
    kmzParent (placemark uid receivedAt) = some ("a.kmz", "folder") := rfl

theorem first_write : ∃ db₁ n m,
    writeCtosWithSupersession plainPostgres ⟨.empty, []⟩ [placemark 1 newYear] = some (db₁, n, m) ∧
    db₁.cto.keys = [1] ∧ ∃ r ∈ db₁.cto.rows, r.currentOf "a.kmz" "folder" = true :=
  ⟨_, _, _, rfl, rfl, _, List.mem_singleton.mpr rfl, rfl⟩

theorem rewrite_keeps_table_iff_placemarks :
    ∃ db₁ n m db₂ n' m', writeCtosWithSupersession plainPostgres ⟨.empty, []⟩
        [placemark 1 newYear, placemark 2 newYear] = some (db₁, n, m) ∧
      writeCtosWithSupersession plainPostgres db₁ [placemark 1 newYear, placemark 2 newYear] =
        some (db₂, n', m') ∧
      (db₂.cto = db₁.cto ↔
        Redeliverable .empty (placemark 1 newYear) [placemark 2 newYear]) := by
  obtain ⟨⟨db₁, n, m⟩, wrote⟩ := Option.isSome_iff_exists.mp (rfl :
    (writeCtosWithSupersession plainPostgres ⟨.empty, []⟩
      [placemark 1 newYear, placemark 2 newYear]).isSome = true)
  have shared : ∀ c ∈ [placemark 2 newYear], kmzParent c = kmzParent (placemark 1 newYear) := by
    intro c member
    rw [List.mem_singleton.mp member, placemark_parent, placemark_parent]
  obtain ⟨db₂, n', m', again, same⟩ := rewrite_keeps_table_iff plainPostgres ⟨.empty, []⟩ db₁
    (placemark 1 newYear) [placemark 2 newYear] n m shared wrote
  exact ⟨db₁, n, m, db₂, n', m', wrote, again, same⟩

/-- One placemark, delivered twice: it is current after the first write, and nothing is after
the second. -/
theorem redelivery_retires_placemark :
    ∃ db₁ n m db₂ n' m', writeCtosWithSupersession plainPostgres
      ⟨.empty, []⟩ [placemark 1 newYear] =
        some (db₁, n, m) ∧
      writeCtosWithSupersession plainPostgres db₁ [placemark 1 newYear] = some (db₂, n', m') ∧
      (∃ r ∈ db₁.cto.rows, r.currentOf "a.kmz" "folder" = true) ∧
      ∀ r ∈ db₂.cto.rows, r.currentOf "a.kmz" "folder" = false := by
  obtain ⟨db₁, n, m, wrote, keys, current⟩ := first_write
  obtain ⟨db₂, n', m', again⟩ := write_again wrote db₁
  refine ⟨db₁, n, m, db₂, n', m', wrote, again, current, ?_⟩
  intro r there
  by_contra now
  obtain ⟨c, new, _⟩ := (current_after_write (placemark_parent 1 newYear) again r).mp
    ⟨there, by simpa using now⟩
  rw [keys] at new
  cases new

end TacticalGateway.Opstore
