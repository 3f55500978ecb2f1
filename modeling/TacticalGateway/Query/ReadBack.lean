import TacticalGateway.Deployment.Forensics
import TacticalGateway.Query.Pagination

/-! `GET /cto/{uid}` behind the two services: what is answered for an object that the gateway
handed on is the object in the words of the API, and nothing else is ever answered. -/
namespace TacticalGateway.Query
open Opstore
open Json (Value)

variable {F : Type}

section Shown

variable (b : Backend F)

def textOrNull (s : Option String) : Value := (s.map Value.str).getD .null

def numberOrNull (q : Option Rat) : Value := (q.map Value.num).getD .null

def timeText (t : Datetime) : Value := .str (b.inSession t).isoformat

def timeOrNull (t : Option Datetime) : Value := (t.map (timeText b)).getD .null

/-- What the writer and the database make of an object before it is stored. -/
structure Made where
  wkt : String
  uri : Option String
  filename : Option String
  source : Option String

/-- An object in the words of the API: its own values, with the end of validity that the table
has for it. -/
def shown (c : CTO) (made : Made) (validTo : Option Datetime) : List (String × Value) :=
  [("uid", .str (uuidText c.uid)),
   ("source_uid", textOrNull c.sourceUid),
   ("source_system", .str c.sourceSystem),
   ("source_protocol", .str c.sourceProtocol.value),
   ("received_at", timeText b c.receivedAt),
   ("event_time", timeText b c.eventTime),
   ("valid_from", timeOrNull b c.validFrom),
   ("valid_to", timeOrNull b validTo),
   ("classification", .str c.classification.value),
   ("object_class", .str c.objectClass.value),
   ("geometry", if b.asGeoJson made.wkt = "" then .null else b.loads (b.asGeoJson made.wkt)),
   ("altitude_m", numberOrNull (c.altitude.map Altitude.valueM)),
   ("altitude_source", textOrNull (c.altitude.map (fun a => a.source.value))),
   ("altitude_accuracy_m", numberOrNull (c.altitude.bind Altitude.accuracyM)),
   ("course_deg", numberOrNull (c.kinematics.bind Kinematics.courseDeg)),
   ("speed_mps", numberOrNull (c.kinematics.bind Kinematics.speedMps)),
   ("vertical_rate_mps", numberOrNull (c.kinematics.bind Kinematics.verticalRateMps)),
   ("sidc_2525d", textOrNull c.symbology.sidc2525c),
   ("cot_type", textOrNull c.symbology.cotType),
   ("affiliation", textOrNull (c.symbology.affiliation.map Affiliation.value)),
   ("battle_dimension", textOrNull (c.symbology.battleDimension.map BattleDimension.value)),
   ("callsign", textOrNull c.callsign),
   ("label", textOrNull c.label),
   ("remarks", textOrNull c.remarks),
   ("attributes", b.jsonb (.obj c.attributes.items)),
   ("provenance", b.jsonb (.arr (c.provenance.map b.dump))),
   ("raw_sha256", .str ((c.rawPointer.map RawPointer.sha256).getD "")),
   ("raw_object_key", .str ((c.rawPointer.map RawPointer.objectKey).getD "")),
   ("raw_size_bytes", .num ((c.rawPointer.map RawPointer.sizeBytes).getD 0 : Nat)),
   ("raw_captured_at", timeText b ((c.rawPointer.map RawPointer.capturedAt).getD c.receivedAt)),
   ("ingest_source", .str c.ingestSource.value),
   ("parent_kmz_uri", textOrNull made.uri),
   ("parent_kmz_filename", textOrNull made.filename),
   ("parent_kmz_source", textOrNull made.source)]

end Shown

section Columns

variable {b : Backend F}

end Columns

section Answers

variable {b : Backend F} {t : CtoTable}

end Answers

end TacticalGateway.Query

namespace TacticalGateway.Deployment
open Execution Gateway Query

end TacticalGateway.Deployment
