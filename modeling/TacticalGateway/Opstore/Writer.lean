import TacticalGateway.Lib.Table
import TacticalGateway.Schema.Models

/-! The opstore writer: the row of an object, supersession of the current rows of a file, and
the batch write. Postgres and its driver are parameters where they are more than a table. -/
namespace TacticalGateway.Opstore
open Text
open Json (Value)

structure Row where
  uid : UUID
  sourceUid : Option String
  sourceSystem : String
  sourceProtocol : String
  receivedAt : Datetime
  eventTime : Datetime
  validFrom : Option Datetime
  validTo : Option Datetime
  classification : String
  objectClass : String
  geom : String
  altitudeM : Option Rat
  altitudeSource : Option String
  altitudeAccuracyM : Option Rat
  courseDeg : Option Rat
  speedMps : Option Rat
  verticalRateMps : Option Rat
  sidc2525d : Option String
  cotType : Option String
  affiliation : Option String
  battleDimension : Option String
  callsign : Option String
  label : Option String
  remarks : Option String
  attributes : Attributes
  provenance : List ProvenanceEntry
  rawSha256 : String
  rawObjectKey : String
  rawSizeBytes : Nat
  rawCapturedAt : Datetime
  ingestSource : Option String
  parentKmzUri : Option String
  parentKmzFilename : Option String
  parentKmzSource : Option String

/-- `str` of a JSON value in an f-string, how a JSON value is stored in a text column (none where
the statement raises), and which rows the types and constraints of the table let in. -/
structure Postgres where
  pyStr : Value → String
  text : Value → Option (Option String)
  admits : Row → Bool
  pyStr_str : ∀ s, pyStr (.str s) = s
  text_null : text .null = some none
  text_str : ∀ s column, text (.str s) = some column → column = some s

def classificationToDb (value : String) : String :=
  match value with
  | "unclassified" => "U"
  | "cui" => "CUI"
  | "confidential" => "C"
  | "secret" => "S"
  | "top_secret" => "TS"
  | _ => "U"

def subscript (p : Value) (i : Nat) : Option Value :=
  match p with
  | .arr items => items[i]?
  | .str s => (s.toList[i]?).map (fun c => .str (String.singleton c))
  | _ => none

def position (pyStr : Value → String) (p : Value) : Option String :=
  match subscript p 0, subscript p 1 with
  | some lon, some lat => some (pyStr lon ++ " " ++ pyStr lat)
  | _, _ => none

def ringText (pyStr : Value → String) (ring : Value) : Option String :=
  match ring with
  | .arr points => (points.mapM (position pyStr)).map (fun texts => "(" ++ join ", " texts ++ ")")
  | _ => none

def geometryToWkt (pyStr : Value → String) (g : Geometry) : Option String :=
  match g.type with
  | .point => (position pyStr (.arr g.coordinates)).map (fun p => "SRID=4326;POINT(" ++ p ++ ")")
  | .lineString =>
    (g.coordinates.mapM (position pyStr)).map
      (fun texts => "SRID=4326;LINESTRING(" ++ join ", " texts ++ ")")
  | .polygon =>
    (g.coordinates.mapM (ringText pyStr)).map
      (fun rings => "SRID=4326;POLYGON(" ++ join ", " rings ++ ")")

def attr (cto : CTO) (name : String) : Value := (cto.attributes.get? name).getD .null

/-- The row of the INSERT, or none where building or executing it raises. -/
def Postgres.row (pg : Postgres) (cto : CTO) : Option Row :=
  match geometryToWkt pg.pyStr cto.geometry, pg.text (attr cto "parent_kmz_uri"),
    pg.text (attr cto "parent_kmz_filename"), pg.text (attr cto "parent_kmz_source") with
  | some geom, some uri, some filename, some source =>
    let row : Row :=
      { uid := cto.uid
        sourceUid := cto.sourceUid
        sourceSystem := cto.sourceSystem
        sourceProtocol := cto.sourceProtocol.value
        receivedAt := cto.receivedAt
        eventTime := cto.eventTime
        validFrom := cto.validFrom
        validTo := cto.validTo
        classification := classificationToDb cto.classification.value
        objectClass := cto.objectClass.value
        geom := geom
        altitudeM := cto.altitude.map Altitude.valueM
        altitudeSource := cto.altitude.map (fun a => a.source.value)
        altitudeAccuracyM := cto.altitude.bind Altitude.accuracyM
        courseDeg := cto.kinematics.bind Kinematics.courseDeg
        speedMps := cto.kinematics.bind Kinematics.speedMps
        verticalRateMps := cto.kinematics.bind Kinematics.verticalRateMps
        sidc2525d := cto.symbology.sidc2525c
        cotType := cto.symbology.cotType
        affiliation := cto.symbology.affiliation.map Affiliation.value
        battleDimension := cto.symbology.battleDimension.map BattleDimension.value
        callsign := cto.callsign
        label := cto.label
        remarks := cto.remarks
        attributes := cto.attributes
        provenance := cto.provenance
        rawSha256 := (cto.rawPointer.map RawPointer.sha256).getD ""
        rawObjectKey := (cto.rawPointer.map RawPointer.objectKey).getD ""
        rawSizeBytes := (cto.rawPointer.map RawPointer.sizeBytes).getD 0
        rawCapturedAt := (cto.rawPointer.map RawPointer.capturedAt).getD cto.receivedAt
        ingestSource := some cto.ingestSource.value
        parentKmzUri := uri
        parentKmzFilename := filename
        parentKmzSource := source }
    if pg.admits row then some row else none
  | _, _, _, _ => none

structure SupersessionDetails where
  parentKmzFilename : String
  parentKmzSource : String
  supersededCount : Nat
  newKmzUri : Value

structure AuditEntry where
  at_ : Datetime
  actor : String
  action : String
  target : String
  outcome : String
  eventType : String
  subjectUid : Option UUID
  details : SupersessionDetails

abbrev CtoTable := Table UUID Row Row.uid

structure Database where
  cto : CtoTable
  auditLog : List AuditEntry

def Row.currentOf (filename source : String) (r : Row) : Bool :=
  r.parentKmzFilename = some filename && r.parentKmzSource = some source && r.validTo.isNone

def Row.retire (filename source : String) (t : Datetime) (r : Row) : Row :=
  if r.currentOf filename source then { r with validTo := some t } else r

theorem retire_uid (filename source : String) (t : Datetime) (r : Row) :
    (r.retire filename source t).uid = r.uid := by
  unfold Row.retire
  split <;> rfl

def supersedePrior (db : Database) (filename source : String) (newIngestAt : Datetime)
    (newKmzUri : Value) : Database × Nat :=
  let count := db.cto.rows.countP (Row.currentOf filename source)
  let cto := db.cto.update (Row.retire filename source newIngestAt) (retire_uid _ _ _)
  if 0 < count then
    ({ cto := cto
       auditLog := db.auditLog ++
        [{ at_ := newIngestAt
           actor := "opstore.supersede"
           action := "kmz_supersede"
           target := filename
           outcome := "success"
           eventType := "supersession"
           subjectUid := none
           details := ⟨filename, source, count, newKmzUri⟩ }] }, count)
  else ({ db with cto := cto }, count)

/-- The insert loop, with the rows inserted so far; none is an exception of any statement. -/
def insertCtos (pg : Postgres) (t : CtoTable) (inserted : Nat) : List CTO → Option (CtoTable × Nat)
  | [] => some (t, inserted)
  | cto :: ctos =>
    match pg.row cto with
    | none => none
    | some row =>
      insertCtos pg (t.insertNew row) (if row.uid ∈ t.keys then inserted else inserted + 1) ctos

/-- The supersession of a batch, by the attributes of its first object. Only text compares
with the columns, any other truthy value makes the UPDATE raise. -/
def supersedeFor (db : Database) (sample : CTO) : Option (Database × Nat) :=
  let pkf := attr sample "parent_kmz_filename"
  let pks := attr sample "parent_kmz_source"
  if pkf.truthy && pks.truthy then
    match pkf, pks with
    | .str filename, .str source =>
      some (supersedePrior db filename source sample.receivedAt (attr sample "parent_kmz_uri"))
    | _, _ => none
  else some (db, 0)

/-- The database after the batch, and the counts of inserted and superseded rows. -/
def writeCtosWithSupersession (pg : Postgres) (db : Database) (ctos : List CTO) :
    Option (Database × Nat × Nat) :=
  match ctos with
  | [] => some (db, 0, 0)
  | sample :: _ =>
    match supersedeFor db sample with
    | none => none
    | some (db, superseded) =>
      match insertCtos pg db.cto 0 ctos with
      | none => none
      | some (cto, inserted) => some ({ db with cto := cto }, inserted, superseded)

end TacticalGateway.Opstore
