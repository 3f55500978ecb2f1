import TacticalGateway.Lib.Decimal
import TacticalGateway.Normalizers.DetailTree
import TacticalGateway.Schema.Instant
import TacticalGateway.Schema.Uuid

/-! CoT XML to CTO and back. The parser and the writer of ElementTree, `float`, `fromisoformat`
and the zone of the process are parameters. -/
namespace TacticalGateway.Normalizers
open ElementTree
open Json (Value)

/-- Python as the normalizers use it; none is an exception. A rational stands for what `float`
returns, also for an infinity, a NaN or a negative zero. -/
structure Runtime where
  float : String → Option Rat
  /-- `f"{q:.2f}"` and its like. -/
  format : Nat → Rat → String
  fromisoformat : String → Option Timestamp
  /-- The UTC offset of the process's zone at an instant. -/
  localOffset : Int → Option Int
  float_empty : float "" = none
  float_format : ∀ digits q, 0 < digits → (float (format digits q)).isSome
  float_sentinel : float "9999999" = some 9999999
  fromisoformat_isoformat : ∀ t : Datetime, fromisoformat t.isoformat = some (.aware t)

/-- Numbers are short enough for their decimals to be exact. -/
structure Runtime.Exact (py : Runtime) : Prop where
  format : ∀ digits q, py.format digits q = Decimal.fixed digits q
  float : ∀ digits q, 0 < digits →
    py.float (Decimal.fixed digits q) = some (Decimal.rounded digits q)

/-- A number that is printed and read again. -/
def Runtime.reprinted (py : Runtime) (digits : Nat) (q : Rat) : Rat :=
  (py.float (py.format digits q)).getD q

/-- `ET.fromstring` and `ET.tostring`. -/
structure Etree where
  fromstring : List UInt8 → Except ParserExn Element
  tostring : Element → String

inductive Exn where
  | cotXmlParseError (message : String)
  | cotPbError (message : String)
  | lookupError
  | valueError
  | validationError
  | typeError
  | overflowError
  | decodeError
  | recursionError
  deriving DecidableEq

def affiliationMap : List (String × Affiliation) :=
  [("f", .friend), ("h", .hostile), ("n", .neutral), ("u", .unknown), ("p", .pending),
    ("s", .suspect), ("a", .assumedFriend), ("j", .friend), ("k", .hostile)]

def dimensionMap : List (String × BattleDimension) :=
  [("G", .land), ("A", .air), ("S", .seaSurface), ("U", .seaSubsurface), ("P", .space), ("F", .sof)]

/-- `str.lower` as far as its result can be a key of the map: the Kelvin sign is a k. -/
def lower (s : String) : String :=
  String.ofList (s.toList.map (fun c => if c = '\u212a' then 'k' else c.toLower))

/-- `str.upper` as far as its result can be a key of the map: the long s is an S. -/
def upper (s : String) : String :=
  String.ofList (s.toList.map (fun c => if c = '\u017f' then 'S' else c.toUpper))

def parseCotType (cotType : String) : Option Affiliation × Option BattleDimension :=
  match (cotType.toList.splitOn '-').map String.ofList with
  | "a" :: rest =>
    ((rest[0]?).bind (fun code => affiliationMap.lookup (lower code)),
      (rest[1]?).bind (fun code => dimensionMap.lookup (upper code)))
  | _ => (none, none)

def requireAttr (e : Element) (name : String) : Except Exn String :=
  match e.get name with
  | some value => .ok value
  | none => .error (.cotXmlParseError
      ("missing required attribute '" ++ name ++ "' on <" ++ e.tag ++ ">"))

/-- `s[:-len(old)] + new` where the string ends with the old suffix. -/
def replaceSuffix (old new s : String) : String :=
  if old.toList.isSuffixOf s.toList then
    String.ofList (s.toList.take (s.toList.length - old.toList.length)) ++ new
  else s

def raiseNone {A : Type} (e : Exn) : Option A → Except Exn A
  | some a => .ok a
  | none => .error e

def parseIso (py : Runtime) (value : String) : Except Exn Timestamp :=
  raiseNone .valueError (py.fromisoformat (replaceSuffix "Z" "+00:00" value))

/-- `must_be_timezone_aware`. -/
def mustBeAware : Timestamp → Except Exn Datetime
  | .aware t => .ok t
  | .naive _ => .error .validationError

/-- `float(value)` where the attribute is there and not empty; none outside is a `ValueError`. -/
def optionalFloat (py : Runtime) : Option String → Option (Option Rat)
  | none => some none
  | some value => if value = "" then some none else (py.float value).map some

/-- A vertical or a horizontal error, where it is not the sentinel for "no data". -/
def accuracy (q : Rat) : Option Rat := if q < 9999999 then some q else none

def altitudeOf (py : Runtime) (point : Element) : Option Altitude :=
  match point.get "hae" with
  | none => none
  | some hae =>
    match py.float hae, point.get "le" with
    | some value, none => some { valueM := value }
    | some value, some le => (py.float le).map
      (fun a => { valueM := value, accuracyM := accuracy a })
    | none, _ => none

def trackKinematics (py : Runtime) (track : Element) : Option Kinematics :=
  match optionalFloat py (track.get "course"), optionalFloat py (track.get "speed") with
  | some course, some speed => some { courseDeg := course, speedMps := speed }
  | _, _ => none

def kinematicsOf (py : Runtime) (detail : Element) : Option Kinematics :=
  (detail.find "track").bind (trackKinematics py)

def callsignOf (detail : Element) : Option String :=
  (detail.find "contact").bind (fun contact => contact.get "callsign")

def remarksOf (detail : Element) : Option String :=
  (detail.find "remarks").bind (fun rem =>
    match rem.text with
    | some s => if s = "" then none else some (strip s)
    | none => none)

def knownEventAttrs : List String := ["version", "uid", "type", "time", "start", "stale", "how"]

theorem distinct_extras (attrib : Dict String String) :
    ((attrib.items.filter (fun i => i.1 ∉ knownEventAttrs)).map Prod.fst).Nodup :=
  attrib.distinct.sublist (List.filter_sublist.map _)

def extrasOf (root : Element) : Dict String String :=
  ⟨root.attrib.items.filter (fun i => i.1 ∉ knownEventAttrs), distinct_extras root.attrib⟩

def horizontalAccuracy (py : Runtime) (point : Element) : Option Rat :=
  (point.get "ce").bind (fun ce => (py.float ce).bind accuracy)

def setSome (attributes : Attributes) (name : String) : Option Value → Attributes
  | some v => attributes.set name v
  | none => attributes

def attributesOf (py : Runtime) (root point : Element) : Attributes :=
  let attributes := setSome .empty "cot_detail"
    ((root.find "detail").map (fun detail => .obj (detailToAttributes detail).items))
  let attributes := setSome attributes "cot_event_extras"
    (if (extrasOf root).items = [] then none else some (.obj (strAttrib (extrasOf root)).items))
  let attributes := setSome attributes "cot_how" ((root.get "how").map .str)
  setSome attributes "cot_horizontal_accuracy_m" ((horizontalAccuracy py point).map .num)

theorem pointValid (lon lat : Rat) : validateCoordinates .point [.num lon, .num lat] = .ok () := by
  simp [validateCoordinates, isNumber]

structure Intake where
  uid : UUID
  sourceSystem : String
  receivedAt : Datetime
  rawPointer : RawPointer

structure Header where
  cotType : String
  sourceUid : String
  eventTime : Timestamp
  start : Timestamp
  stale : Timestamp
  point : Element
  lat : Rat
  lon : Rat

def readHeader (py : Runtime) (root : Element) : Except Exn Header := do
  let cotType ← requireAttr root "type"
  let sourceUid ← requireAttr root "uid"
  let eventTime ← requireAttr root "time" >>= parseIso py
  let start ← requireAttr root "start" >>= parseIso py
  let stale ← requireAttr root "stale" >>= parseIso py
  let point ← raiseNone (.cotXmlParseError "missing required <point> element") (root.find "point")
  let lat ← requireAttr point "lat" >>= fun s => raiseNone .valueError (py.float s)
  let lon ← requireAttr point "lon" >>= fun s => raiseNone .valueError (py.float s)
  return { cotType, sourceUid, eventTime, start, stale, point, lat, lon }

/-- The CTO of an event whose times are aware. -/
def buildCto (py : Runtime) (root : Element) (intake : Intake) (h : Header)
    (eventTime start stale : Datetime) : CTO :=
  let detail := root.find "detail"
  { uid := intake.uid
    sourceUid := some h.sourceUid
    sourceSystem := intake.sourceSystem
    sourceProtocol := .cotXml
    receivedAt := intake.receivedAt
    eventTime := eventTime
    validFrom := some start
    validTo := some stale
    objectClass := .track
    geometry := ⟨.point, [.num h.lon, .num h.lat], pointValid h.lon h.lat⟩
    altitude := altitudeOf py h.point
    kinematics := detail.bind (kinematicsOf py)
    symbology :=
      { cotType := some h.cotType
        affiliation := (parseCotType h.cotType).1
        battleDimension := (parseCotType h.cotType).2 }
    callsign := detail.bind callsignOf
    remarks := detail.bind remarksOf
    attributes := attributesOf py root h.point
    rawPointer := some intake.rawPointer
    provenance :=
      [{ step := "cot_xml_to_cto", actor := "gateway.normalizers.cot_xml",
         at_ := intake.receivedAt }] }

/-- The CTO of an event whose header has been read: its times have to be aware. -/
def headedCto (py : Runtime) (root : Element) (intake : Intake) (h : Header) : Except Exn CTO := do
  let eventTime ← mustBeAware h.eventTime
  let start ← mustBeAware h.start
  let stale ← mustBeAware h.stale
  return buildCto py root intake h eventTime start stale

def eventToCto (py : Runtime) (root : Element) (intake : Intake) : Except Exn CTO := do
  let h ← readHeader py root
  headedCto py root intake h

/-- A `ParseError` becomes the error of the normalizer, under words of its own; nothing else that
the parser raises is caught. -/
def reraise (words : String) : ParserExn → Exn
  | .parseError message => .cotXmlParseError (words ++ message)
  | .lookupError _ => .lookupError
  | .valueError _ => .valueError

def cotXmlToCto (py : Runtime) (et : Etree) (xml : List UInt8) (intake : Intake) : Except Exn CTO :=
  match et.fromstring xml with
  | .error e => .error (reraise "invalid XML: " e)
  | .ok root =>
    if root.tag ≠ "event" then
      .error (.cotXmlParseError ("expected <event> root, got <" ++ root.tag ++ ">"))
    else eventToCto py root intake

/-- The detail, if there is one, nests no deeper than the stack of the interpreter has room for
calls of `_detail_to_attributes`. -/
def fits (room : Nat) (detail : Option Element) : Bool := detail.all (fun e => nesting e ≤ room)

/-- `cot_xml_to_cto` under the recursion limit, which leaves room for so many nested calls: the
header has been read when they are made. -/
def cotXmlToCtoWithin (room : Nat) (py : Runtime) (et : Etree) (xml : List UInt8)
    (intake : Intake) : Except Exn CTO :=
  match et.fromstring xml with
  | .error e => .error (reraise "invalid XML: " e)
  | .ok root =>
    if root.tag ≠ "event" then
      .error (.cotXmlParseError ("expected <event> root, got <" ++ root.tag ++ ">"))
    else do
      let h ← readHeader py root
      raiseNone .recursionError (if fits room (root.find "detail") then some () else none)
      headedCto py root intake h

/-- `dt.astimezone()`, by way of UTC. -/
def astimezone (py : Runtime) (t : Datetime) : Option Datetime :=
  (atOffset t.instant 0).bind (fun _ => (py.localOffset t.instant).bind (atOffset t.instant))

/-- `isoformat` with the suffix of UTC as a Z. -/
def zulu (t : Datetime) : String := replaceSuffix "+00:00" "Z" t.isoformat

def formatIso (py : Runtime) (t : Datetime) : Except Exn String :=
  match astimezone py t with
  | some t => .ok (zulu t)
  | none => .error .overflowError

/-- The key of a map for a value, or the default. -/
def keyOf {A : Type} [DecidableEq A] (map : List (String × A)) (value : Option A)
    (default : String) :
    String :=
  ((map.find? (fun i => some i.2 = value)).map Prod.fst).getD default

/-- A string that is there and not empty. -/
def truthyStr (s : Option String) : Option String := s.filter (· ≠ "")

def egressType (cto : CTO) : String :=
  (truthyStr cto.symbology.cotType).getD
    ("a-" ++ keyOf affiliationMap cto.symbology.affiliation "u" ++ "-" ++
      keyOf dimensionMap cto.symbology.battleDimension "G")

def egressUid (cto : CTO) : String :=
  (truthyStr cto.sourceUid).getD (uuidText cto.uid)

/-- `float` of a coordinate, which is no `ValueError` but for a text. -/
def coordinate (py : Runtime) : Value → Except Exn Rat
  | .num q => .ok q
  | .bool b => .ok (if b then 1 else 0)
  | .str s => raiseNone .valueError (py.float s)
  | _ => .error .typeError

/-- Extra attributes go behind the ones that are there. -/
def addExtras (attrs : Dict String String) : List (String × Value) → Dict String String
  | [] => attrs
  | (key, .str s) :: rest => addExtras (if key ∈ attrs.keys then attrs else attrs.set key s) rest
  | _ :: rest => addExtras attrs rest

def eventAttrs (cto : CTO) (uid cotType time start stale : String) : Dict String String :=
  let attrs := ofList [("version", "2.0"), ("uid", uid), ("type", cotType), ("time", time),
    ("start", start), ("stale", stale)]
  let attrs :=
    match cto.attributes.get? "cot_how" with
    | some (.str how) => attrs.set "how" how
    | _ => attrs
  match cto.attributes.get? "cot_event_extras" with
  | some (.obj extras) => addExtras attrs extras
  | _ => attrs

def number : Value → Option Rat
  | .num q => some q
  | .bool b => some (if b then 1 else 0)
  | _ => none

def pointAttrs (py : Runtime) (cto : CTO) (lon lat : Rat) : Dict String String :=
  let hae := match cto.altitude with
    | some altitude => py.format 2 altitude.valueM
    | none => "9999999"
  let le := ((cto.altitude.bind Altitude.accuracyM).map (py.format 2)).getD "9999999"
  let ce := (((cto.attributes.get? "cot_horizontal_accuracy_m").bind number).map
    (py.format 2)).getD "9999999"
  ofList [("lat", py.format 7 lat), ("lon", py.format 7 lon), ("hae", hae), ("le", le),
    ("ce", ce)]

def contactElement (cto : CTO) : Option Element :=
  (truthyStr cto.callsign).map
    (fun callsign => .mk "contact" (ofList [("callsign", callsign)]) none [])

def trackAttrs (py : Runtime) (k : Kinematics) : List (String × String) :=
  (k.courseDeg.map (fun q => ("course", py.format 2 q))).toList ++
    (k.speedMps.map (fun q => ("speed", py.format 2 q))).toList

def trackElement (py : Runtime) (cto : CTO) : Option Element :=
  cto.kinematics.bind (fun k =>
    if trackAttrs py k = [] then none else some (.mk "track" (ofList (trackAttrs py k)) none []))

def remarksElement (cto : CTO) : Option Element :=
  (truthyStr cto.remarks).map (fun remarks => .mk "remarks" .empty (some remarks) [])

def typedElements (py : Runtime) (cto : CTO) : List Element :=
  (contactElement cto).toList ++ (trackElement py cto).toList ++ (remarksElement cto).toList

def detailElement (py : Runtime) (cto : CTO) : Element :=
  let typed := typedElements py cto
  let already := typed.map Element.tag
  let stored :=
    match cto.attributes.get? "cot_detail" with
    | some (.obj stored) => emitItems (stored.filter (fun i => i.1 ∉ already))
    | _ => []
  .mk "detail" .empty none (typed ++ stored)

def pointElement (py : Runtime) (cto : CTO) (lon lat : Rat) : Element :=
  .mk "point" (pointAttrs py cto lon lat) none []

def buildEvent (py : Runtime) (cto : CTO) (time start stale : String) (lon lat : Rat) : Element :=
  .mk "event" (eventAttrs cto (egressUid cto) (egressType cto) time start stale) none
    [pointElement py cto lon lat, detailElement py cto]

def lossyFields (cto : CTO) : List String :=
  (if truthyStr cto.symbology.cotType = none then ["cot_type_synthesized"] else []) ++
    (if cto.geometry.type = .point then [] else ["geometry_not_point"])

/-- The event element and the list of lossy fields. -/
def ctoToEvent (py : Runtime) (cto : CTO) : Except Exn (Element × List String) := do
  let time ← formatIso py cto.eventTime
  let start ← formatIso py (cto.validFrom.getD cto.eventTime)
  let stale ← formatIso py (cto.validTo.getD cto.eventTime)
  let lon ← raiseNone .typeError cto.geometry.coordinates[0]? >>= coordinate py
  let lat ← raiseNone .typeError cto.geometry.coordinates[1]? >>= coordinate py
  return (buildEvent py cto time start stale lon lat, lossyFields cto)

def ctoToCotXml (py : Runtime) (et : Etree) (cto : CTO) :
    Except Exn (List UInt8 × List String) :=
  (ctoToEvent py cto).map (fun result => (Text.encode (et.tostring result.1), result.2))

end TacticalGateway.Normalizers
