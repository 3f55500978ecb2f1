import TacticalGateway.Opstore.Custody

/-! The `cto` table as migrations 0001 to 0004 leave it, and which batches go into it. A flush is
one transaction: it stores all the objects of its batch or none, and any object outside the enum
types or the column widths stops all that came with it. -/
namespace TacticalGateway.Opstore
open Execution
open Json (Value)

/-- `source_protocol_enum` of 0001, and the value that 0004 adds. -/
def sourceProtocolEnum : List String :=
  ["cot_xml", "cot_protobuf", "oth_gold", "kml", "kmz", "internal"] ++ ["ovl"]

/-- `object_class_enum` of 0001, and the value that 0003 adds. -/
def objectClassEnum : List String :=
  ["track", "point", "area", "route", "symbol", "overlay", "text_annotation"] ++ ["graphic"]

def classificationEnum : List String := ["U", "CUI", "S"]

/-- `VARCHAR(n)`, or `TEXT` without a width. The driver refuses a NUL character; the server cuts
blanks beyond the width off and raises for anything else there. -/
def textColumn (width : Option Nat) (s : String) : Bool :=
  s.toList.all (fun c => c.toNat != 0) &&
    width.all (fun n => (s.toList.drop n).all (fun c => c == ' '))

def fitsAll (columns : List (Option Nat × Option String)) : Bool :=
  columns.all (fun column => column.2.all (textColumn column.1))

def Row.textColumns (r : Row) : List (Option Nat × Option String) :=
  [(some 256, r.sourceUid), (some 128, some r.sourceSystem), (some 32, r.altitudeSource),
    (some 20, r.sidc2525d), (some 64, r.cotType), (some 32, r.affiliation),
    (some 32, r.battleDimension), (some 128, r.callsign), (some 256, r.label), (none, r.remarks),
    (some 64, some r.rawSha256), (some 512, some r.rawObjectKey), (some 32, r.ingestSource),
    (some 512, r.parentKmzUri), (some 256, r.parentKmzFilename), (some 32, r.parentKmzSource)]

def Row.wellTyped (r : Row) : Bool :=
  decide (r.sourceProtocol ∈ sourceProtocolEnum) && decide (r.objectClass ∈ objectClassEnum) &&
    decide (r.classification ∈ classificationEnum) && fitsAll r.textColumns &&
    -- `raw_size_bytes INTEGER`
    decide (r.rawSizeBytes < 2 ^ 31)

/-- What is not this table: `str` in an f-string, a JSON value given for a text column,
`ST_GeomFromEWKT`, and the casts to `jsonb`. -/
structure Server where
  pyStr : Value → String
  text : Value → Option (Option String)
  pyStr_str : ∀ s, pyStr (.str s) = s
  text_null : text .null = some none
  text_str : ∀ s column, text (.str s) = some column → column = some s
  parsesEwkt : String → Bool
  castsJsonb : Attributes → List ProvenanceEntry → Bool

def Server.migrated (server : Server) : Postgres :=
  { pyStr := server.pyStr
    text := server.text
    admits := fun r =>
      r.wellTyped && server.parsesEwkt r.geom && server.castsJsonb r.attributes r.provenance
    pyStr_str := server.pyStr_str
    text_null := server.text_null
    text_str := server.text_str }

def freeTexts (c : CTO) : List (Option Nat × Option String) :=
  [(some 256, c.sourceUid), (some 128, some c.sourceSystem), (some 20, c.symbology.sidc2525c),
    (some 64, c.symbology.cotType), (some 128, c.callsign), (some 256, c.label), (none, c.remarks),
    (some 64, c.rawPointer.map RawPointer.sha256),
    (some 512, c.rawPointer.map RawPointer.objectKey)]

def parentColumns : List (String × Nat) :=
  [("parent_kmz_uri", 512), ("parent_kmz_filename", 256), ("parent_kmz_source", 32)]

/-- An object that the table has a place for. -/
structure Storable (server : Server) (c : CTO) : Prop where
  protocol : c.sourceProtocol ≠ .usmtf ∧ c.sourceProtocol ≠ .other
  classification : c.classification ≠ .confidential ∧ c.classification ≠ .topSecret
  geometry : ∃ wkt, geometryToWkt server.pyStr c.geometry = some wkt ∧
    server.parsesEwkt wkt = true
  texts : fitsAll (freeTexts c) = true
  parents : ∀ column ∈ parentColumns, ∃ text, server.text (attr c column.1) = some text ∧
    text.all (textColumn (some column.2)) = true
  size : ∀ p, c.rawPointer = some p → p.sizeBytes < 2 ^ 31
  json : server.castsJsonb c.attributes c.provenance = true

section Columns

theorem protocol_mem_iff (p : SourceProtocol) :
    p.value ∈ sourceProtocolEnum ↔ p ≠ .usmtf ∧ p ≠ .other := by
  cases p <;> decide

theorem classification_mem_iff (c : Classification) :
    classificationToDb c.value ∈ classificationEnum ↔ c ≠ .confidential ∧ c ≠ .topSecret := by
  cases c <;> decide

theorem objectClass_mem (c : ObjectClass) : c.value ∈ objectClassEnum := by
  cases c <;> decide

theorem altitudeSource_fits (s : AltitudeSource) : textColumn (some 32) s.value = true := by
  cases s <;> decide

theorem affiliation_fits (a : Affiliation) : textColumn (some 32) a.value = true := by
  cases a <;> decide

theorem battleDimension_fits (d : BattleDimension) : textColumn (some 32) d.value = true := by
  cases d <;> decide

theorem ingestSource_fits (s : IngestSource) : textColumn (some 32) s.value = true := by
  cases s <;> decide

theorem all_map_fits {A : Type*} {value : A → String} {width : Option Nat}
    (fits : ∀ a, textColumn width (value a) = true) (field : Option A) :
    (field.map value).all (textColumn width) = true := by
  cases field with
  | none => rfl
  | some a => exact fits a

theorem textColumn_empty (width : Option Nat) : textColumn width "" = true := by
  cases width <;> simp [textColumn]

theorem all_getD_empty (width : Option Nat) (field : Option String) :
    textColumn width (field.getD "") = field.all (textColumn width) := by
  cases field with
  | none => exact textColumn_empty width
  | some s => rfl

theorem size_iff (p : Option RawPointer) :
    (p.map RawPointer.sizeBytes).getD 0 < 2 ^ 31 ↔ ∀ q, p = some q → q.sizeBytes < 2 ^ 31 := by
  cases p with
  | none => simp
  | some q => simp

end Columns

section Batches

variable {server : Server} {c : CTO}

/-- Where the expressions of the statement have values, the checks of the table decide. The
enumerations of the model always fit their columns, but for protocol and classification. -/
theorem row_isSome_of_parts {geom : String} {uri filename source : Option String}
    (drawn : geometryToWkt server.pyStr c.geometry = some geom)
    (kmzUri : server.text (attr c "parent_kmz_uri") = some uri)
    (kmzFilename : server.text (attr c "parent_kmz_filename") = some filename)
    (kmzSource : server.text (attr c "parent_kmz_source") = some source) :
    (∃ r, server.migrated.row c = some r) ↔
      (c.sourceProtocol ≠ .usmtf ∧ c.sourceProtocol ≠ .other) ∧
      (c.classification ≠ .confidential ∧ c.classification ≠ .topSecret) ∧
      (fitsAll (freeTexts c) = true ∧ uri.all (textColumn (some 512)) = true ∧
        filename.all (textColumn (some 256)) = true ∧ source.all (textColumn (some 32)) = true) ∧
      (∀ p, c.rawPointer = some p → p.sizeBytes < 2 ^ 31) ∧ server.parsesEwkt geom = true ∧
      server.castsJsonb c.attributes c.provenance = true := by
  unfold Postgres.row
  simp only [Server.migrated, drawn, kmzUri, kmzFilename, kmzSource, Option.ite_none_right_eq_some,
    Option.some.injEq, exists_and_left, exists_eq', and_true, Row.wellTyped, Bool.and_eq_true,
    decide_eq_true_eq, protocol_mem_iff, classification_mem_iff, objectClass_mem, size_iff]
  simp only [fitsAll, Row.textColumns, freeTexts, List.all_cons, List.all_nil, Bool.and_true,
    Bool.and_eq_true, Option.all_some, all_getD_empty, all_map_fits affiliation_fits,
    all_map_fits battleDimension_fits, ingestSource_fits,
    all_map_fits (fun a : Altitude => altitudeSource_fits a.source), true_and]
  tauto

theorem row_isSome_iff : (∃ r, server.migrated.row c = some r) ↔ Storable server c := by
  constructor
  · intro stored
    obtain ⟨r, built⟩ := stored
    have parts := built
    unfold Postgres.row at parts
    split at parts
    · rename_i geom uri filename source drawn kmzUri kmzFilename kmzSource
      obtain ⟨protocol, classification, texts, size, parsed, json⟩ :=
        (row_isSome_of_parts drawn kmzUri kmzFilename kmzSource).mp ⟨r, built⟩
      have parents : ∀ column ∈ parentColumns, ∃ text, server.text (attr c column.1) = some text ∧
          text.all (textColumn (some column.2)) = true := by
        simp only [parentColumns, List.forall_mem_cons, List.not_mem_nil, IsEmpty.forall_iff,
          implies_true, and_true]
        exact ⟨⟨uri, kmzUri, texts.2.1⟩, ⟨filename, kmzFilename, texts.2.2.1⟩,
          ⟨source, kmzSource, texts.2.2.2⟩⟩
      exact ⟨protocol, classification, ⟨geom, drawn, parsed⟩, texts.1, parents, size, json⟩
    · cases parts
  · intro storable
    obtain ⟨geom, drawn, parsed⟩ := storable.geometry
    obtain ⟨uri, kmzUri, uri_fits⟩ := storable.parents ("parent_kmz_uri", 512) (by decide)
    obtain ⟨filename, kmzFilename, filename_fits⟩ :=
      storable.parents ("parent_kmz_filename", 256) (by decide)
    obtain ⟨source, kmzSource, source_fits⟩ :=
      storable.parents ("parent_kmz_source", 32) (by decide)
    exact (row_isSome_of_parts drawn kmzUri kmzFilename kmzSource).mpr
      ⟨storable.protocol, storable.classification,
        ⟨storable.texts, uri_fits, filename_fits, source_fits⟩, storable.size, parsed,
        storable.json⟩

theorem supersedeFor_parented (parented : Parented c) (db : Database) :
    ∃ done, supersedeFor db c = some done := by
  unfold supersedeFor
  cases parented with
  | absent none_given =>
    simp only [none_given, Value.truthy, Bool.false_and, Bool.false_eq_true, if_false]
    exact ⟨_, rfl⟩
  | empty blank =>
    have falsy : (Value.str "").truthy = false := by simp [truthy_str]
    simp only [blank, falsy, Bool.false_and, Bool.false_eq_true, if_false]
    exact ⟨_, rfl⟩
  | named filename source nonempty file from_source =>
    simp only [file, from_source]
    split <;> exact ⟨_, rfl⟩

theorem rows_iff {ctos : List CTO} :
    (∃ rows, ctos.mapM server.migrated.row = some rows) ↔ ∀ c ∈ ctos, Storable server c := by
  simp only [Table.mapM_eq_some]
  constructor
  · rintro ⟨rows, each⟩ c member
    obtain ⟨r, -, built⟩ := Table.forall₂_left each member
    exact row_isSome_iff.mp ⟨r, built⟩
  · intro all
    induction ctos with
    | nil => exact ⟨[], .nil⟩
    | cons c ctos ih =>
      obtain ⟨r, built⟩ := row_isSome_iff.mpr (all c List.mem_cons_self)
      obtain ⟨rows, each⟩ := ih (fun d member => all d (List.mem_cons_of_mem _ member))
      exact ⟨r :: rows, .cons built each⟩

/-- The database takes a batch exactly when it has a place for each of its objects. -/
theorem commit_iff {ctos : List CTO} (parented : ∀ c ∈ ctos, Parented c) (db : Database) :
    (∃ db', commit server.migrated db ctos = some db') ↔ ∀ c ∈ ctos, Storable server c := by
  cases ctos with
  | nil => simp [commit, writeCtosWithSupersession]
  | cons sample rest =>
    obtain ⟨⟨between, n⟩, superseded⟩ :=
      supersedeFor_parented (parented sample List.mem_cons_self) db
    rw [← rows_iff]
    simp only [commit, writeCtosWithSupersession, superseded, insertCtos_eq]
    cases (sample :: rest).mapM server.migrated.row with
    | none => simp
    | some rows => simp

theorem storable_of_commit {ctos : List CTO} {db db' : Database}
    (wrote : commit server.migrated db ctos = some db') : ∀ c ∈ ctos, Storable server c := by
  cases ctos with
  | nil => simp
  | cons sample rest =>
    obtain ⟨⟨_, n, m⟩, done, rfl⟩ := Option.map_eq_some_iff.mp wrote
    obtain ⟨rows, built, -⟩ := write_cto done
    exact rows_iff.mp ⟨rows, built⟩

end Batches

section Runs

variable {M : Type*} {validate : M → Option CTO} {server : Server} {db₀ : Database}
  {s t : Service}

/-- A batch all of whose objects have rows, and a place in the table. -/
def Service.Wrote (server : Server) (s : Service) (batch : List CTO) : Prop :=
  batch ∈ s.taken ∧ ∀ c ∈ batch, c.uid ∈ s.db.cto.keys ∧ Storable server c

/-- A row that was not there at the start came with its whole batch. -/
def Whole (server : Server) (db₀ : Database) (s : Service) : Prop :=
  ∀ uid ∈ s.db.cto.keys, uid ∈ db₀.cto.keys ∨
    ∃ batch, s.Wrote server batch ∧ uid ∈ batch.map CTO.uid

theorem taken_flushKeys (s : Service) (keys : List String) (writing : Flight → List String → Phase)
    (next : Phase) : s.taken ⊆ (s.flushKeys keys writing next).taken := by
  have taking := flushNext_taking s keys
  unfold Service.flushKeys
  generalize s.flushNext keys = result at taking
  cases taking with
  | nothing => exact List.Subset.refl _
  | batch => exact List.subset_append_left _ _

theorem whole_keep (h : Whole server db₀ s) (same : t.db = s.db) (taken : s.taken ⊆ t.taken) :
    Whole server db₀ t := by
  intro uid known
  rw [same] at known
  rcases h uid known with first | ⟨batch, ⟨listed, all⟩, member⟩
  · exact .inl first
  · exact .inr ⟨batch, ⟨taken listed, fun c inside => same.symm ▸ all c inside⟩, member⟩

theorem whole_flushKeys (h : Whole server db₀ s) {keys : List String} {next : Phase}
    {writing : Flight → List String → Phase} :
    Whole server db₀ (s.flushKeys keys writing next) :=
  whole_keep h (db_flushKeys _ _ _ _) (taken_flushKeys _ _ _ _)

theorem whole_count (h : Whole server db₀ s) (flight : Flight) (ok : Bool) :
    Whole server db₀ (s.count flight ok) := by
  cases ok <;> exact h

theorem whole_commit (h : Whole server db₀ s) {ctos : List CTO} (listed : ctos ∈ s.taken)
    {db : Database} (wrote : commit server.migrated s.db ctos = some db) (same : t.db = db)
    (taken : s.taken = t.taken) : Whole server db₀ t := by
  have keys := commit_keys wrote
  have own : t.Wrote server ctos :=
    ⟨taken ▸ listed, fun c member => ⟨same ▸ keys.2 c member, storable_of_commit wrote c member⟩⟩
  intro uid known
  rw [same] at known
  obtain ⟨r, there, rfl⟩ := List.mem_map.mp known
  rcases commit_rows wrote r there with ⟨old, stored, from_old⟩ | ⟨c, member, built⟩
  · have uid_eq : r.uid = old.uid := by
      rcases from_old with rfl | ⟨sample, _, rfl⟩
      · rfl
      · exact (retireFor_identity sample old).1
    rw [uid_eq]
    rcases h old.uid (List.mem_map_of_mem stored) with first | ⟨batch, ⟨before, all⟩, member⟩
    · exact .inl first
    · exact .inr ⟨batch, ⟨taken ▸ before,
        fun c inside => ⟨same ▸ keys.1 _ (all c inside).1, (all c inside).2⟩⟩, member⟩
  · rw [(row_of built).1]
    exact .inr ⟨ctos, own, List.mem_map_of_mem member⟩

theorem step_whole {e : Event M} (recorded : Recorded s) (h : Whole server db₀ s)
    (stepped : step validate server.migrated s e = some t) : Whole server db₀ t := by
  cases step_cases stepped with
  | committed flight db now running wrote =>
    exact whole_commit h (recorded flight (.inl now)) wrote rfl rfl
  | orphanCommitted flight db now running wrote =>
    exact whole_commit h (recorded flight (.inr now)) wrote rfl rfl
  | woken => exact whole_flushKeys h
  | resumed flight keys ok => exact whole_flushKeys (whole_count h flight ok)
  | resumedLast flight keys ok => exact whole_flushKeys (whole_count h flight ok)
  | lastFlush => exact whole_flushKeys h
  | _ => exact h

theorem run_whole {events : List (Event M)}
    (ran : run (step validate server.migrated) (start db₀) events = some s) :
    Whole server db₀ s := by
  have from_start : Recorded (start db₀) ∧ Whole server db₀ (start db₀) := by
    refine ⟨?_, fun uid known => .inl known⟩
    rintro flight (now | orphan)
    · cases now
    · cases orphan
  exact (state_invariant (fun s => Recorded s ∧ Whole server db₀ s) from_start
    (fun _ _ _ h _ stepped => ⟨step_recorded h.1 stepped, step_whole h.1 h.2 stepped⟩)
    (along_true _ _ events) ran).2

/-- Over any run against the migrated table: all the objects of a flush have rows or none has, none
has unless there is a place for all of them, and the database takes such a batch, and no other. -/
theorem batches_atomic (validate : M → Option CTO) (server : Server) (db₀ : Database)
    (events : List (Event M)) (s : Service)
    (ran : run (step validate server.migrated) (start db₀) events = some s)
    (parented : ∀ c ∈ arrivals validate events, Parented c)
    (distinct : ((arrivals validate events).map CTO.uid).Nodup)
    (fresh : ∀ c ∈ arrivals validate events, c.uid ∉ db₀.cto.keys) :
    ∀ batch ∈ s.taken,
      ((∀ c ∈ batch, c.uid ∈ s.db.cto.keys ∧ Storable server c) ∨
        ∀ c ∈ batch, c.uid ∉ s.db.cto.keys) ∧
      ∀ db, (∃ db', commit server.migrated db batch = some db') ↔
        ∀ c ∈ batch, Storable server c := by
  intro batch taken
  have queued := run_queued ran
  have arrived : ∀ {b}, b ∈ s.taken → ∀ c ∈ b, c ∈ arrivals validate events :=
    fun member _ inside => (batch_sublist queued member).subset inside
  refine ⟨?_, fun db => commit_iff (fun c member => parented c (arrived taken c member)) db⟩
  by_cases stored : ∃ c ∈ batch, c.uid ∈ s.db.cto.keys
  · obtain ⟨c, member, known⟩ := stored
    rcases run_whole ran c.uid known with first | ⟨other, ⟨listed, all⟩, among⟩
    · exact absurd first (fresh c (arrived taken c member))
    · obtain ⟨d, inside, same⟩ := List.mem_map.mp among
      have alike : d = c := List.inj_on_of_nodup_map distinct (arrived listed d inside)
        (arrived taken c member) same
      rw [queued.batch_eq (List.Nodup.of_map _ distinct) taken listed member (alike ▸ inside)]
      exact .inl all
  · exact .inr (fun c member known => stored ⟨c, member, known⟩)

def plainServer : Server :=
  { pyStr := plainPostgres.pyStr
    text := plainPostgres.text
    pyStr_str := plainPostgres.pyStr_str
    text_null := plainPostgres.text_null
    text_str := plainPostgres.text_str
    parsesEwkt := fun _ => true
    castsJsonb := fun _ _ => true }

/-- Two objects of a file, one of a protocol that the migrations leave out. -/
def oneOutside : List (Event CTO) :=
  [.message (placemark 1 newYear),
    .message { placemark 2 newYear with sourceProtocol := .usmtf }, .requestStop, .cancel,
    .flushAll, .writeEnds false, .resume, .drained]

theorem batches_atomic_oneOutside :
    ∃ s, run (step some plainServer.migrated) (start ⟨.empty, []⟩) oneOutside = some s ∧
      ∀ batch ∈ s.taken,
        ((∀ c ∈ batch, c.uid ∈ s.db.cto.keys ∧ Storable plainServer c) ∨
          ∀ c ∈ batch, c.uid ∉ s.db.cto.keys) ∧
        ∀ db, (∃ db', commit plainServer.migrated db batch = some db') ↔
          ∀ c ∈ batch, Storable plainServer c := by
  have two : arrivals some oneOutside =
      [placemark 1 newYear, { placemark 2 newYear with sourceProtocol := .usmtf }] := rfl
  refine ⟨_, rfl, batches_atomic some plainServer ⟨.empty, []⟩ oneOutside _ rfl ?_ ?_ ?_⟩
  · rw [two]
    simp only [List.forall_mem_cons, List.not_mem_nil, IsEmpty.forall_iff, implies_true, and_true]
    exact ⟨.named "a.kmz" .folder (by decide) rfl rfl, .named "a.kmz" .folder (by decide) rfl rfl⟩
  · rw [two]
    decide
  · intro c _ known
    cases known

end Runs

end TacticalGateway.Opstore
