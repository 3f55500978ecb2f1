import TacticalGateway.Lib.Dict
import TacticalGateway.Lib.Json
import TacticalGateway.Schema.Datetime

/-! The Common Tactical Object. What the validators of the model enforce is part of the types:
datetimes are aware, a geometry has passed `validate_coordinates`, a digest has 64 characters. -/
namespace TacticalGateway
open Json (Value)

inductive SourceProtocol where
  | cotXml
  | cotProtobuf
  | kmz
  | ovl
  | othGold
  | usmtf
  | other
  deriving DecidableEq, Repr

def SourceProtocol.value : SourceProtocol → String
  | .cotXml => "cot_xml"
  | .cotProtobuf => "cot_protobuf"
  | .kmz => "kmz"
  | .ovl => "ovl"
  | .othGold => "oth_gold"
  | .usmtf => "usmtf"
  | .other => "other"

inductive IngestSource where
  | folder
  | upload
  | stream
  | other
  deriving DecidableEq, Repr

def IngestSource.value : IngestSource → String
  | .folder => "folder"
  | .upload => "upload"
  | .stream => "stream"
  | .other => "other"

inductive ObjectClass where
  | track
  | area
  | route
  | point
  | graphic
  deriving DecidableEq, Repr

def ObjectClass.value : ObjectClass → String
  | .track => "track"
  | .area => "area"
  | .route => "route"
  | .point => "point"
  | .graphic => "graphic"

inductive Affiliation where
  | friend
  | hostile
  | neutral
  | unknown
  | pending
  | suspect
  | assumedFriend
  deriving DecidableEq, Repr

def Affiliation.value : Affiliation → String
  | .friend => "friend"
  | .hostile => "hostile"
  | .neutral => "neutral"
  | .unknown => "unknown"
  | .pending => "pending"
  | .suspect => "suspect"
  | .assumedFriend => "assumed_friend"

inductive BattleDimension where
  | land
  | air
  | seaSurface
  | seaSubsurface
  | space
  | sof
  | unknown
  deriving DecidableEq, Repr

def BattleDimension.value : BattleDimension → String
  | .land => "land"
  | .air => "air"
  | .seaSurface => "sea_surface"
  | .seaSubsurface => "sea_subsurface"
  | .space => "space"
  | .sof => "sof"
  | .unknown => "unknown"

inductive AltitudeSource where
  | gps
  | barometric
  | derived
  | unknown
  deriving DecidableEq, Repr

def AltitudeSource.value : AltitudeSource → String
  | .gps => "gps"
  | .barometric => "barometric"
  | .derived => "derived"
  | .unknown => "unknown"

inductive Classification where
  | unclassified
  | cui
  | confidential
  | secret
  | topSecret
  deriving DecidableEq, Repr

def Classification.value : Classification → String
  | .unclassified => "unclassified"
  | .cui => "cui"
  | .confidential => "confidential"
  | .secret => "secret"
  | .topSecret => "top_secret"

inductive GeometryType where
  | point
  | lineString
  | polygon
  deriving DecidableEq, Repr

/-- `isinstance(c, (int, float))`; a Python bool is an int. -/
def isNumber : Value → Bool
  | .num _ => true
  | .bool _ => true
  | _ => false

def listLength : Value → Option Nat
  | .arr items => some items.length
  | _ => none

def validateCoordinates (gtype : GeometryType) (v : List Value) : Except String Unit :=
  match gtype with
  | .point =>
    if 2 ≤ v.length ∧ (v.take 2).all isNumber then .ok ()
    else .error "Point coordinates must be [lon, lat]"
  | .lineString =>
    if 2 ≤ v.length ∧ v.all (fun p => (listLength p).any (2 ≤ ·)) then .ok ()
    else .error "LineString coordinates must be a list of [lon, lat] pairs"
  | .polygon =>
    if 1 ≤ v.length ∧ v.all (fun ring => (listLength ring).isSome) then
      if v.all (fun ring => (listLength ring).any (4 ≤ ·)) then .ok ()
      else .error "Polygon ring must have >= 4 points (first == last)"
    else .error "Polygon coordinates must be a list of rings"

structure Geometry where
  type : GeometryType
  coordinates : List Value
  valid : validateCoordinates type coordinates = .ok ()

/-- `Geometry(type=…, coordinates=…)`; none is the `ValidationError`. -/
def Geometry.build (type : GeometryType) (coordinates : Value) : Option Geometry :=
  match coordinates with
  | .arr items =>
    if valid : validateCoordinates type items = .ok () then some ⟨type, items, valid⟩ else none
  | _ => none

structure Altitude where
  valueM : Rat
  source : AltitudeSource := .unknown
  accuracyM : Option Rat := none

structure Kinematics where
  courseDeg : Option Rat := none
  speedMps : Option Rat := none
  verticalRateMps : Option Rat := none

structure Symbology where
  cotType : Option String := none
  sidc2525c : Option String := none
  affiliation : Option Affiliation := none
  battleDimension : Option BattleDimension := none

structure RawPointer where
  sha256 : String
  objectKey : String
  sizeBytes : Nat
  capturedAt : Datetime
  sha256Length : sha256.toList.length = 64
  deriving DecidableEq

structure ProvenanceEntry where
  step : String
  actor : String
  at_ : Datetime
  notes : Option String := none
  lossyFields : List String := []

abbrev UUID := BitVec 128

abbrev Attributes := Dict String Value

structure CTO where
  uid : UUID
  sourceUid : Option String := none
  sourceSystem : String
  sourceProtocol : SourceProtocol
  ingestSource : IngestSource := .stream
  receivedAt : Datetime
  eventTime : Datetime
  validFrom : Option Datetime := none
  validTo : Option Datetime := none
  classification : Classification := .unclassified
  objectClass : ObjectClass := .track
  symbology : Symbology := {}
  geometry : Geometry
  altitude : Option Altitude := none
  kinematics : Option Kinematics := none
  callsign : Option String := none
  label : Option String := none
  remarks : Option String := none
  attributes : Attributes := .empty
  rawPointer : Option RawPointer := none
  provenance : List ProvenanceEntry := []

end TacticalGateway
