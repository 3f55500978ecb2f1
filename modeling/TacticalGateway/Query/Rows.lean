import TacticalGateway.Opstore.Writer
import TacticalGateway.Schema.Instant
import TacticalGateway.Schema.Uuid

/-! What the query API reads from a row of the cto table, and the dictionary it answers with. -/
namespace TacticalGateway.Query
open Text Opstore
open Json (Value)

/-- What the routes take from Python and from the database: `float`, `datetime.fromisoformat` and
`UUID` (none where they raise), the instant a timestamp parameter is compared at, the offset of the
session's time zone at an instant, `ILIKE`, the spatial functions, and JSON as it is read back. -/
structure Backend (F : Type) where
  float : String → Option F
  fromisoformat : String → Option Timestamp
  uuid : String → Option UUID
  instantOf : Timestamp → Int
  sessionOffset : Int → Int
  ilike : String → String → Bool
  intersects : F → F → F → F → String → Bool
  asGeoJson : String → String
  loads : String → Value
  jsonb : Value → Value
  dump : ProvenanceEntry → Value
  fromisoformat_isoformat : ∀ t : Datetime, fromisoformat t.isoformat = some (.aware t)
  uuid_uuidText : ∀ u, uuid (uuidText u) = some u
  instantOf_aware : ∀ t, instantOf (.aware t) = t.instant

/-- A timestamp as the driver returns it. One that has no date in the session's zone, which the
driver cannot return, is left in its own. -/
def Backend.inSession {F : Type} (b : Backend F) (t : Datetime) : Datetime :=
  (atOffset t.instant (b.sessionOffset t.instant)).getD t

theorem Backend.inSession_instant {F : Type} (b : Backend F) (t : Datetime) :
    (b.inSession t).instant = t.instant := by
  unfold Backend.inSession
  cases dated : atOffset t.instant (b.sessionOffset t.instant) with
  | none => rfl
  | some u => exact (atOffset_eq_some dated).1

inductive Cell where
  | null
  | uuid (u : UUID)
  | text (s : String)
  | number (q : Rat)
  | timestamp (t : Datetime)
  | json (v : Value)

def Cell.ofOption {A : Type} (f : A → Cell) : Option A → Cell
  | some a => f a
  | none => .null

variable {F : Type}

/-- The columns of `_select_columns_sql`, in its order. -/
def selectColumns (b : Backend F) (r : Row) : List (String × Cell) :=
  [("uid", .uuid r.uid),
   ("source_uid", .ofOption .text r.sourceUid),
   ("source_system", .text r.sourceSystem),
   ("source_protocol", .text r.sourceProtocol),
   ("received_at", .timestamp (b.inSession r.receivedAt)),
   ("event_time", .timestamp (b.inSession r.eventTime)),
   ("valid_from", .ofOption (fun t => .timestamp (b.inSession t)) r.validFrom),
   ("valid_to", .ofOption (fun t => .timestamp (b.inSession t)) r.validTo),
   ("classification", .text r.classification),
   ("object_class", .text r.objectClass),
   ("geom_geojson", .text (b.asGeoJson r.geom)),
   ("altitude_m", .ofOption .number r.altitudeM),
   ("altitude_source", .ofOption .text r.altitudeSource),
   ("altitude_accuracy_m", .ofOption .number r.altitudeAccuracyM),
   ("course_deg", .ofOption .number r.courseDeg),
   ("speed_mps", .ofOption .number r.speedMps),
   ("vertical_rate_mps", .ofOption .number r.verticalRateMps),
   ("sidc_2525d", .ofOption .text r.sidc2525d),
   ("cot_type", .ofOption .text r.cotType),
   ("affiliation", .ofOption .text r.affiliation),
   ("battle_dimension", .ofOption .text r.battleDimension),
   ("callsign", .ofOption .text r.callsign),
   ("label", .ofOption .text r.label),
   ("remarks", .ofOption .text r.remarks),
   ("attributes", .json (b.jsonb (.obj r.attributes.items))),
   ("provenance", .json (b.jsonb (.arr (r.provenance.map b.dump)))),
   ("raw_sha256", .text r.rawSha256),
   ("raw_object_key", .text r.rawObjectKey),
   ("raw_size_bytes", .number r.rawSizeBytes),
   ("raw_captured_at", .timestamp (b.inSession r.rawCapturedAt)),
   ("ingest_source", .ofOption .text r.ingestSource),
   ("parent_kmz_uri", .ofOption .text r.parentKmzUri),
   ("parent_kmz_filename", .ofOption .text r.parentKmzFilename),
   ("parent_kmz_source", .ofOption .text r.parentKmzSource)]

def classificationFromDb (code : String) : String :=
  match code with
  | "U" => "unclassified"
  | "CUI" => "cui"
  | "C" => "confidential"
  | "S" => "secret"
  | "TS" => "top_secret"
  | other => other

/-- The key a column comes out under: only a geometry that is there is renamed. -/
def outName (name : String) : Cell → String
  | .null => name
  | _ => if name = "geom_geojson" then "geometry" else name

def outValue (b : Backend F) (name : String) : Cell → Value
  | .null => .null
  | .uuid u => .str (uuidText u)
  | .text s =>
    if name = "geom_geojson" then (if s = "" then .null else b.loads s)
    else if name = "classification" then .str (classificationFromDb s)
    else .str s
  | .timestamp t => .str t.isoformat
  | .number q => .num q
  | .json v => v

def rowToDict (b : Backend F) (columns : List (String × Cell)) : Dict String Value :=
  columns.foldl (fun out c => out.set (outName c.1 c.2) (outValue b c.1 c.2)) .empty

def item (b : Backend F) (r : Row) : Dict String Value := rowToDict b (selectColumns b r)

theorem get?_foldl_set {A : Type} (name : A → String) (value : A → Value) (columns : List A)
    (out : Dict String Value) {key : String} (absent : ∀ c ∈ columns, name c ≠ key) :
    (columns.foldl (fun out c => out.set (name c) (value c)) out).get? key = out.get? key := by
  induction columns generalizing out with
  | nil => rfl
  | cons c columns ih =>
    rw [List.foldl_cons, ih _ (fun c' later => absent c' (List.mem_cons_of_mem c later))]
    exact Dict.get?_set_ne _ _ (absent c List.mem_cons_self).symm

theorem get?_rowToDict (b : Backend F) (before after : List (String × Cell)) (c : String × Cell)
    (absent : ∀ c' ∈ after, outName c'.1 c'.2 ≠ outName c.1 c.2) :
    (rowToDict b (before ++ c :: after)).get? (outName c.1 c.2) = some (outValue b c.1 c.2) := by
  rw [rowToDict, List.foldl_append, List.foldl_cons, get?_foldl_set _ _ _ _ absent,
    Dict.get?_set_self]

theorem outName_ne {key name : String} (cell : Cell) (other : name ≠ key)
    (geometry : key ≠ "geometry") :
    outName name cell ≠ key := by
  unfold outName
  split
  · exact other
  · split
    · exact geometry.symm
    · exact other

theorem item_column (b : Backend F) (r : Row) (before after : List (String × Cell)) {name : String}
    {cell : Cell} (columns : selectColumns b r = before ++ (name, cell) :: after)
    (plain : name ≠ "geom_geojson") (geometry : name ≠ "geometry")
    (last : name ∉ after.map Prod.fst) :
    (item b r).get? name = some (outValue b name cell) := by
  have kept : outName name cell = name := by
    unfold outName
    split
    · rfl
    · exact if_neg plain
  have found := get?_rowToDict b before after (name, cell) (by
    intro c later
    rw [kept]
    exact outName_ne _ (fun same => last (same ▸ List.mem_map_of_mem later)) geometry)
  rw [kept] at found
  rw [item, columns]
  exact found

theorem item_uid (b : Backend F) (r : Row) :
    (item b r).get? "uid" = some (.str (uuidText r.uid)) := by
  apply item_column b r [] _ rfl
  · decide
  · decide
  · simp

theorem item_eventTime (b : Backend F) (r : Row) :
    (item b r).get? "event_time" = some (.str (b.inSession r.eventTime).isoformat) := by
  apply item_column b r ((selectColumns b r).take 5) _ rfl
  · decide
  · decide
  · simp

end TacticalGateway.Query
