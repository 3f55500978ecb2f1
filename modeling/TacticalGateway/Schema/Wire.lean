import TacticalGateway.Lib.RecordModel
import TacticalGateway.Schema.Instant
import TacticalGateway.Schema.Uuid

/-! A CTO as it goes over the bus: what `model_dump_json` writes, and what `json.loads` and
`CTO.model_validate` make of a message. How pydantic writes and reads a scalar is a parameter. -/
namespace TacticalGateway
open Json (Value lookup)
open JsonGrammar (Numbers)
open RecordModel

/-- The UTC offset is one of whole minutes, as an ISO 8601 text has it. -/
def Datetime.WholeMinutes (t : Datetime) : Prop := t.offset % 60000000 = 0

/-- Pydantic on scalars; none is a validation error. `finite` are the values of a float that is a
number. -/
structure Pydantic where
  numbers : Numbers
  finite : Rat → Prop
  float : Value → Option Rat
  int : Value → Option Int
  uuid : Value → Option UUID
  datetime : Value → Option Timestamp
  datetimeText : Datetime → String
  finite_exact : ∀ q, finite q → numbers.exact q
  nat_exact : ∀ k : Nat, numbers.exact k
  float_num : ∀ q, finite q → float (.num q) = some q
  int_num : ∀ k : Nat, int (.num k) = some k
  uuid_text : ∀ u, uuid (.str (uuidText u)) = some u
  datetime_text : ∀ t : Datetime, t.WholeMinutes →
    datetime (.str (datetimeText t)) = some (.aware t)

def SourceProtocol.all : List SourceProtocol :=
  [.cotXml, .cotProtobuf, .kmz, .ovl, .othGold, .usmtf, .other]

def IngestSource.all : List IngestSource := [.folder, .upload, .stream, .other]

def ObjectClass.all : List ObjectClass := [.track, .area, .route, .point, .graphic]

def Affiliation.all : List Affiliation :=
  [.friend, .hostile, .neutral, .unknown, .pending, .suspect, .assumedFriend]

def BattleDimension.all : List BattleDimension :=
  [.land, .air, .seaSurface, .seaSubsurface, .space, .sof, .unknown]

def AltitudeSource.all : List AltitudeSource := [.gps, .barometric, .derived, .unknown]

def Classification.all : List Classification :=
  [.unclassified, .cui, .confidential, .secret, .topSecret]

def GeometryType.value : GeometryType → String
  | .point => "Point"
  | .lineString => "LineString"
  | .polygon => "Polygon"

def GeometryType.all : List GeometryType := [.point, .lineString, .polygon]

section Models

variable (p : Pydantic)

def Geometry.dump (g : Geometry) : Value :=
  .obj [("type", .str g.type.value), ("coordinates", .arr g.coordinates)]

def Altitude.dump (a : Altitude) : Value :=
  .obj [("value_m", .num a.valueM), ("source", .str a.source.value),
    ("accuracy_m", dumpOption .num a.accuracyM)]

def Kinematics.dump (k : Kinematics) : Value :=
  .obj [("course_deg", dumpOption .num k.courseDeg), ("speed_mps", dumpOption .num k.speedMps),
    ("vertical_rate_mps", dumpOption .num k.verticalRateMps)]

def Symbology.dump (s : Symbology) : Value :=
  .obj [("cot_type", dumpOption .str s.cotType), ("sidc_2525c", dumpOption .str s.sidc2525c),
    ("affiliation", dumpOption (fun a => .str a.value) s.affiliation),
    ("battle_dimension", dumpOption (fun d => .str d.value) s.battleDimension)]

def dumpDatetime (t : Datetime) : Value := .str (p.datetimeText t)

def RawPointer.dump (r : RawPointer) : Value :=
  .obj [("sha256", .str r.sha256), ("object_key", .str r.objectKey),
    ("size_bytes", .num r.sizeBytes), ("captured_at", dumpDatetime p r.capturedAt)]

def ProvenanceEntry.dump (e : ProvenanceEntry) : Value :=
  .obj [("step", .str e.step), ("actor", .str e.actor), ("at", dumpDatetime p e.at_),
    ("notes", dumpOption .str e.notes), ("lossy_fields", .arr (e.lossyFields.map .str))]

def CTO.members (c : CTO) : List (String × Value) :=
  [("uid", .str (uuidText c.uid)), ("source_uid", dumpOption .str c.sourceUid),
    ("source_system", .str c.sourceSystem), ("source_protocol", .str c.sourceProtocol.value),
    ("ingest_source", .str c.ingestSource.value), ("received_at", dumpDatetime p c.receivedAt),
    ("event_time", dumpDatetime p c.eventTime),
    ("valid_from", dumpOption (dumpDatetime p) c.validFrom),
    ("valid_to", dumpOption (dumpDatetime p) c.validTo),
    ("classification", .str c.classification.value), ("object_class", .str c.objectClass.value),
    ("symbology", c.symbology.dump), ("geometry", c.geometry.dump),
    ("altitude", dumpOption Altitude.dump c.altitude),
    ("kinematics", dumpOption Kinematics.dump c.kinematics),
    ("callsign", dumpOption .str c.callsign), ("label", dumpOption .str c.label),
    ("remarks", dumpOption .str c.remarks), ("attributes", .obj c.attributes.items),
    ("raw_pointer", dumpOption (RawPointer.dump p) c.rawPointer),
    ("provenance", .arr (c.provenance.map (ProvenanceEntry.dump p)))]

/-- `model_dump(mode="json")`. -/
def CTO.dump (c : CTO) : Value := .obj (c.members p)

/-- A datetime that passes `must_be_timezone_aware`. The code lets a naive `captured_at` or `at`
pass as well, for which the types of the pointer and of the entry have no place. -/
def validateDatetime (v : Value) : Option Datetime :=
  match p.datetime v with
  | some (.aware t) => some t
  | _ => none

def validateGeometry (v : Value) : Option Geometry := do
  let members ← model ["type", "coordinates"] v
  let type ← required members "type" (oneOf GeometryType.value GeometryType.all)
  let coordinates ← lookup "coordinates" members
  Geometry.build type coordinates

def validateAltitude (v : Value) : Option Altitude := do
  let members ← model ["value_m", "source", "accuracy_m"] v
  let valueM ← required members "value_m" p.float
  let source ← defaulted members "source" .unknown (oneOf AltitudeSource.value AltitudeSource.all)
  let accuracyM ← defaulted members "accuracy_m" none (nullable p.float)
  return { valueM := valueM, source := source, accuracyM := accuracyM }

def validateKinematics (v : Value) : Option Kinematics := do
  let members ← model ["course_deg", "speed_mps", "vertical_rate_mps"] v
  let courseDeg ← defaulted members "course_deg" none (nullable p.float)
  let speedMps ← defaulted members "speed_mps" none (nullable p.float)
  let verticalRateMps ← defaulted members "vertical_rate_mps" none (nullable p.float)
  return { courseDeg := courseDeg, speedMps := speedMps, verticalRateMps := verticalRateMps }

def validateSymbology (v : Value) : Option Symbology := do
  let members ← model ["cot_type", "sidc_2525c", "affiliation", "battle_dimension"] v
  let cotType ← defaulted members "cot_type" none (nullable text)
  let sidc2525c ← defaulted members "sidc_2525c" none (nullable text)
  let affiliation ← defaulted members "affiliation" none
    (nullable (oneOf Affiliation.value Affiliation.all))
  let battleDimension ← defaulted members "battle_dimension" none
    (nullable (oneOf BattleDimension.value BattleDimension.all))
  return { cotType := cotType, sidc2525c := sidc2525c, affiliation := affiliation,
           battleDimension := battleDimension }

def validateRawPointer (v : Value) : Option RawPointer := do
  let members ← model ["sha256", "object_key", "size_bytes", "captured_at"] v
  let sha256 ← required members "sha256" text
  let objectKey ← required members "object_key" text
  let sizeBytes ← required members "size_bytes" p.int
  let capturedAt ← required members "captured_at" (validateDatetime p)
  if long : sha256.toList.length = 64 then
    if 0 ≤ sizeBytes then some ⟨sha256, objectKey, sizeBytes.toNat, capturedAt, long⟩ else none
  else none

def validateProvenanceEntry (v : Value) : Option ProvenanceEntry := do
  let members ← model ["step", "actor", "at", "notes", "lossy_fields"] v
  let step ← required members "step" text
  let actor ← required members "actor" text
  let at_ ← required members "at" (validateDatetime p)
  let notes ← defaulted members "notes" none (nullable text)
  let lossyFields ← defaulted members "lossy_fields" [] (listOf text)
  return { step := step, actor := actor, at_ := at_, notes := notes, lossyFields := lossyFields }

/-- `dict[str, Any]`. -/
def validateAttributes : Value → Option Attributes
  | .obj members => some (members.foldl (fun d m => d.set m.1 m.2) .empty)
  | _ => none

def ctoFields : List String :=
  ["uid", "source_uid", "source_system", "source_protocol", "ingest_source", "received_at",
    "event_time", "valid_from", "valid_to", "classification", "object_class", "symbology",
    "geometry", "altitude", "kinematics", "callsign", "label", "remarks", "attributes",
    "raw_pointer", "provenance"]

/-- `CTO.model_validate`; none is the `ValidationError`. -/
def modelValidate (v : Value) : Option CTO := do
  let members ← model ctoFields v
  let uid ← required members "uid" p.uuid
  let sourceUid ← defaulted members "source_uid" none (nullable text)
  let sourceSystem ← required members "source_system" text
  let sourceProtocol ← required members "source_protocol"
    (oneOf SourceProtocol.value SourceProtocol.all)
  let ingestSource ← defaulted members "ingest_source" .stream
    (oneOf IngestSource.value IngestSource.all)
  let receivedAt ← required members "received_at" (validateDatetime p)
  let eventTime ← required members "event_time" (validateDatetime p)
  let validFrom ← defaulted members "valid_from" none (nullable (validateDatetime p))
  let validTo ← defaulted members "valid_to" none (nullable (validateDatetime p))
  let classification ← defaulted members "classification" .unclassified
    (oneOf Classification.value Classification.all)
  let objectClass ← defaulted members "object_class" .track
    (oneOf ObjectClass.value ObjectClass.all)
  let symbology ← defaulted members "symbology" {} validateSymbology
  let geometry ← required members "geometry" validateGeometry
  let altitude ← defaulted members "altitude" none (nullable (validateAltitude p))
  let kinematics ← defaulted members "kinematics" none (nullable (validateKinematics p))
  let callsign ← defaulted members "callsign" none (nullable text)
  let label ← defaulted members "label" none (nullable text)
  let remarks ← defaulted members "remarks" none (nullable text)
  let attributes ← defaulted members "attributes" .empty validateAttributes
  let rawPointer ← defaulted members "raw_pointer" none (nullable (validateRawPointer p))
  let provenance ← defaulted members "provenance" [] (listOf (validateProvenanceEntry p))
  return { uid := uid, sourceUid := sourceUid, sourceSystem := sourceSystem,
           sourceProtocol := sourceProtocol, ingestSource := ingestSource,
           receivedAt := receivedAt, eventTime := eventTime, validFrom := validFrom,
           validTo := validTo, classification := classification, objectClass := objectClass,
           symbology := symbology, geometry := geometry, altitude := altitude,
           kinematics := kinematics, callsign := callsign, label := label, remarks := remarks,
           attributes := attributes, rawPointer := rawPointer, provenance := provenance }

/-- The payload of `publish_cto`. -/
def modelDumpJson (c : CTO) : Text.Bytes := Text.encode (JsonGrammar.dumps p.numbers (c.dump p))

/-- What `_on_message` makes of the data of a message; none is any of the exceptions. -/
def readMessage (data : Text.Bytes) : Option CTO :=
  ((Text.decode data).bind (JsonGrammar.loads p.numbers)).bind (modelValidate p)

end Models

end TacticalGateway
