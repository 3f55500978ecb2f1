import TacticalGateway.Normalizers.CotXml

/-! CoT protobuf to CTO and back. The protobuf runtime is a parameter; scalars of a message have no
presence and are zero or empty by default. -/
namespace TacticalGateway.Normalizers
open ElementTree
open Json (Value)

namespace Proto

structure Contact where
  callsign : String := ""
  deriving DecidableEq

structure Group where
  name : String := ""
  role : String := ""
  deriving DecidableEq

structure PrecisionLocation where
  geopointsrc : String := ""
  altsrc : String := ""
  deriving DecidableEq

structure Status where
  battery : String := ""
  deriving DecidableEq

structure Takv where
  device : String := ""
  platform : String := ""
  os : String := ""
  version : String := ""
  deriving DecidableEq

structure Track where
  speed : Rat := 0
  course : Rat := 0
  deriving DecidableEq

structure Detail where
  xmlDetail : String := ""
  contact : Option Contact := none
  group : Option Group := none
  precisionLocation : Option PrecisionLocation := none
  status : Option Status := none
  takv : Option Takv := none
  track : Option Track := none
  deriving DecidableEq

structure CotEvent where
  type : String := ""
  uid : String := ""
  sendTime : UInt64 := 0
  startTime : UInt64 := 0
  staleTime : UInt64 := 0
  how : String := ""
  lat : Rat := 0
  lon : Rat := 0
  hae : Rat := 0
  ce : Rat := 0
  le : Rat := 0
  detail : Option Detail := none
  deriving DecidableEq

structure TakMessage where
  cotEvent : Option CotEvent := none
  deriving DecidableEq

end Proto

/-- `ParseFromString`, where none is a `DecodeError`, and `SerializeToString`. -/
structure Protobuf where
  parseFromString : List UInt8 → Option Proto.TakMessage
  serializeToString : Proto.TakMessage → List UInt8

/-- In exact arithmetic: the source divides as floating-point numbers, so what is said of times is
said of those that this division and the product of `toMillis` keep. -/
def fromMillis (ms : UInt64) : Except Exn Datetime :=
  raiseNone .valueError (atOffset (ms.toNat * 1000) 0)

def pbAltitude (ev : Proto.CotEvent) : Option Altitude :=
  if ev.hae ≠ 0 ∨ ev.le ≠ 0 then
    some { valueM := ev.hae, accuracyM := if ev.le ≠ 0 ∧ ev.le < 9999999 then some ev.le else none }
  else none

def nonzero (q : Rat) : Option Rat := if q ≠ 0 then some q else none

def pbCallsign (d : Proto.Detail) : Option String :=
  d.contact.bind (fun contact => truthyStr (some contact.callsign))

def pbKinematics (d : Proto.Detail) : Option Kinematics :=
  d.track.map (fun track => { courseDeg := nonzero track.course, speedMps := nonzero track.speed })

/-- The elements of the embedded text, where it can be parsed. It is no bytes but a text, of which
the parser raises a `ParseError` only. -/
def xmlDetailOf (et : Etree) (xmlDetail : String) : Option (Dict String Value) :=
  if xmlDetail = "" then none
  else
    match et.fromstring (Text.encode ("<detail>" ++ xmlDetail ++ "</detail>")) with
    | .ok detail => some (detailToAttributes detail)
    | .error _ => none

/-- `attributes.setdefault("cot_detail", {}).setdefault(tag, node)`. -/
def setDefault (detail : Option (Dict String Value)) (tag : String)
    (node : List (String × String)) :
    Option (Dict String Value) :=
  let stored := detail.getD .empty
  some (if tag ∈ stored.keys then stored
    else stored.set tag (.obj (node.map (fun i => (i.1, .str i.2)))))

/-- The typed elements that are kept as nodes. -/
def typedNodes (d : Proto.Detail) : List (String × List (String × String)) :=
  (d.group.map (fun g => ("__group", [("name", g.name), ("role", g.role)]))).toList ++
    ((d.status.filter (fun s => s.battery ≠ "")).map
      (fun s => ("status", [("battery", s.battery)]))).toList ++
    (d.takv.map (fun t => ("takv", [("device", t.device), ("platform", t.platform), ("os", t.os),
      ("version", t.version)]))).toList ++
    (d.precisionLocation.map (fun p => ("precisionlocation", [("geopointsrc", p.geopointsrc),
      ("altsrc", p.altsrc)]))).toList

def pbDetail (et : Etree) (d : Proto.Detail) : Option (Dict String Value) :=
  (typedNodes d).foldl (fun detail node => setDefault detail node.1 node.2)
    (xmlDetailOf et d.xmlDetail)

def pbAttributes (et : Etree) (ev : Proto.CotEvent) : Attributes :=
  let attributes := setSome .empty "cot_xml_detail_raw"
    ((ev.detail.bind (fun d => truthyStr (some d.xmlDetail))).map .str)
  let attributes := setSome attributes "cot_detail"
    ((ev.detail.bind (pbDetail et)).map (fun detail => .obj detail.items))
  let attributes := setSome attributes "cot_how" ((truthyStr (some ev.how)).map .str)
  setSome attributes "cot_horizontal_accuracy_m"
    (if ev.ce ≠ 0 ∧ ev.ce < 9999999 then some (.num ev.ce) else none)

def buildPbCto (et : Etree) (ev : Proto.CotEvent) (intake : Intake)
    (eventTime start stale : Datetime) :
    CTO :=
  { uid := intake.uid
    sourceUid := some ev.uid
    sourceSystem := intake.sourceSystem
    sourceProtocol := .cotProtobuf
    receivedAt := intake.receivedAt
    eventTime := eventTime
    validFrom := some start
    validTo := some stale
    objectClass := .track
    geometry := ⟨.point, [.num ev.lon, .num ev.lat], pointValid ev.lon ev.lat⟩
    altitude := pbAltitude ev
    kinematics := ev.detail.bind pbKinematics
    symbology :=
      { cotType := some ev.type
        affiliation := (parseCotType ev.type).1
        battleDimension := (parseCotType ev.type).2 }
    callsign := ev.detail.bind pbCallsign
    attributes := pbAttributes et ev
    rawPointer := some intake.rawPointer
    provenance :=
      [{ step := "cot_pb_to_cto", actor := "gateway.normalizers.cot_pb",
         at_ := intake.receivedAt }] }

def pbEventToCto (et : Etree) (ev : Proto.CotEvent) (intake : Intake) : Except Exn CTO := do
  let eventTime ← fromMillis ev.sendTime
  let start ← fromMillis ev.startTime
  let stale ← fromMillis ev.staleTime
  return buildPbCto et ev intake eventTime start stale

def cotPbToCto (pb : Protobuf) (et : Etree) (payload : List UInt8) (intake : Intake) :
    Except Exn CTO := do
  let msg ← raiseNone .decodeError (pb.parseFromString payload)
  let ev ← raiseNone (.cotPbError "TakMessage has no cotEvent") msg.cotEvent
  pbEventToCto et ev intake

/-- The text around the embedded detail that is parsed, if there is one. -/
def embeddedText (ev : Proto.CotEvent) : Option (List UInt8) :=
  ev.detail.bind (fun d =>
    if d.xmlDetail = "" then none
    else some (Text.encode ("<detail>" ++ d.xmlDetail ++ "</detail>")))

/-- What parsing and keeping the embedded detail raises: only a `ParseError` is passed over, and the
stack has room for so many nested calls of `_detail_to_attributes`. -/
def readEmbedded (room : Nat) (et : Etree) (ev : Proto.CotEvent) : Except Exn Unit :=
  match (embeddedText ev).map et.fromstring with
  | none => .ok ()
  | some (.ok detail) =>
    raiseNone .recursionError (if nesting detail ≤ room then some () else none)
  | some (.error (.parseError _)) => .ok ()
  | some (.error (.lookupError _)) => .error .lookupError
  | some (.error (.valueError _)) => .error .valueError

/-- `cot_pb_to_cto` with the exceptions of the embedded detail: the times are read after it. -/
def cotPbToCtoWithin (room : Nat) (pb : Protobuf) (et : Etree) (payload : List UInt8)
    (intake : Intake) : Except Exn CTO := do
  let msg ← raiseNone .decodeError (pb.parseFromString payload)
  let ev ← raiseNone (.cotPbError "TakMessage has no cotEvent") msg.cotEvent
  readEmbedded room et ev
  pbEventToCto et ev intake

/-- Whole milliseconds, toward zero; a negative number does not fit the field. -/
def toMillis (t : Datetime) : Except Exn UInt64 :=
  match atOffset t.instant 0 with
  | none => .error .overflowError
  | some utc =>
    if 0 ≤ utc.instant.tdiv 1000 then .ok (UInt64.ofNat (utc.instant.tdiv 1000).toNat)
    else .error .valueError

/-- What is restored of the stored detail: all but the elements with typed fields. -/
def restored (cto : CTO) : List Element :=
  match cto.attributes.get? "cot_detail" with
  | some (.obj stored) => emitItems (stored.filter (fun i => i.1 ∉ ["contact", "track"]))
  | _ => []

def innerXml (et : Etree) (es : List Element) : String := Text.join "" (es.map et.tostring)

/-- A value that is assigned to a field of `track` makes the track present. -/
def pbTrack (k : Kinematics) : Option Proto.Track :=
  if k.courseDeg = none ∧ k.speedMps = none then none
  else some { course := k.courseDeg.getD 0, speed := k.speedMps.getD 0 }

def egressDetail (et : Etree) (cto : CTO) : Option Proto.Detail :=
  let contact := (truthyStr cto.callsign).map (fun callsign => ({ callsign } : Proto.Contact))
  let track := cto.kinematics.bind pbTrack
  let xmlDetail := innerXml et (restored cto)
  if contact = none ∧ track = none ∧ xmlDetail = "" then none
  else some { xmlDetail, contact, track }

def pbEvent (et : Etree) (cto : CTO) (sendTime startTime staleTime : UInt64) (lon lat : Rat) :
    Proto.CotEvent :=
  { type := (truthyStr cto.symbology.cotType).getD "a-u-G"
    uid := egressUid cto
    sendTime := sendTime
    startTime := startTime
    staleTime := staleTime
    how := match cto.attributes.get? "cot_how" with
      | some (.str how) => how
      | _ => ""
    lat := lat
    lon := lon
    hae := (cto.altitude.map Altitude.valueM).getD 0
    ce := ((cto.attributes.get? "cot_horizontal_accuracy_m").bind number).getD 0
    le := (cto.altitude.bind Altitude.accuracyM).getD 0
    detail := egressDetail et cto }

/-- The message and the list of lossy fields. -/
def ctoToTakMessage (py : Runtime) (et : Etree) (cto : CTO) :
    Except Exn (Proto.TakMessage × List String) := do
  let sendTime ← toMillis cto.eventTime
  let startTime ← toMillis (cto.validFrom.getD cto.eventTime)
  let staleTime ← toMillis (cto.validTo.getD cto.eventTime)
  let lon ← raiseNone .typeError cto.geometry.coordinates[0]? >>= coordinate py
  let lat ← raiseNone .typeError cto.geometry.coordinates[1]? >>= coordinate py
  return ({ cotEvent := some (pbEvent et cto sendTime startTime staleTime lon lat) },
    lossyFields cto)

def ctoToCotPb (py : Runtime) (pb : Protobuf) (et : Etree) (cto : CTO) :
    Except Exn (List UInt8 × List String) :=
  (ctoToTakMessage py et cto).map (fun result => (pb.serializeToString result.1, result.2))

end TacticalGateway.Normalizers
