import TacticalGateway.Kmz.Recognize
import TacticalGateway.Ovl.Parser

/-! The KMZ parser: the primary document of an archive, the geometry of each placemark in it, and
the objects of the common schema that are built from these. -/
namespace TacticalGateway.Kmz
open ElementTree
open Json (Value quoted)
open Text (join)
open Normalizers (strip lower splitWords)
open Ovl (Position lonLat ringOf noneIfEmpty)

/-- An opened archive; reading a member is none where the zip library raises. -/
structure Archive where
  namelist : List String
  read : String → Option (List UInt8)

/-- Python as the parser uses it. An error of opening an archive is the text of `BadZipFile`. -/
structure Runtime extends Ovl.Runtime where
  tables : Tables
  env : Option String
  zipFile : List UInt8 → Except String Archive
  fromstring : List UInt8 → Except ParserExn Element

/-- What escapes the parser: its own error, the validation of the schema, an exception of the zip
library, those of the XML parser that are no `ParseError`, and what the recognizer and the
enumeration could raise. -/
inductive Exn where
  | kmzParseError (message : String)
  | validationError
  | zipError
  | recognizer (e : RecognizerError)
  | lookupError
  | valueError
  deriving DecidableEq

/-- `_strip_ns`. -/
def localName (tag : String) : String :=
  if '}' ∈ tag.toList then String.ofList ((tag.toList.dropWhile (· ≠ '}')).drop 1) else tag

mutual

/-- `elem.iter()`. -/
def iter : Element → List Element
  | .mk tag attrib text children => .mk tag attrib text children :: iterAll children

def iterAll : List Element → List Element
  | [] => []
  | e :: es => iter e ++ iterAll es

end

def findallNs (elem : Element) (name : String) : List Element :=
  (iter elem).filter (fun e => localName e.tag = name)

def findNs (elem : Element) (name : String) : Option Element :=
  (iter elem).find? (fun e => localName e.tag = name)

def directFindNs (elem : Element) (name : String) : Option Element :=
  elem.children.find? (fun e => localName e.tag = name)

/-- `_text_of`. -/
def textOf (elem : Option Element) : Option String :=
  (elem.bind Element.text).bind (fun text => noneIfEmpty (strip text))

structure Point where
  position : Position
  alt : Option Rat

section

variable (py : Runtime)

def parseValues (lon lat : String) (rest : List String) : Except String Point := do
  let lon ← py.float lon
  let lat ← py.float lat
  match rest with
  | [] => return ⟨⟨lat, lon⟩, none⟩
  | alt :: _ =>
    if alt = "" then return ⟨⟨lat, lon⟩, none⟩
    else
      let alt ← py.float alt
      return ⟨⟨lat, lon⟩, some alt⟩

def parseTuple (token : String) : Except String Point :=
  match (token.toList.splitOn ',').map String.ofList with
  | lon :: lat :: rest => (parseValues py lon lat rest).mapError
      (fun e => "invalid coordinate values in " ++ py.repr token ++ ": " ++ e)
  | _ => .error ("invalid coordinate tuple: " ++ py.repr token)

def rstripCommas (s : String) : String :=
  String.ofList ((s.toList.reverse.dropWhile (· = ',')).reverse)

def spaceLines (text : String) : String :=
  String.ofList (text.toList.map (fun c => if c = '\n' || c = '\t' then ' ' else c))

def tokens (text : String) : List String :=
  ((splitWords (spaceLines text)).map (fun token => rstripCommas (strip token))).filter (· ≠ "")

def parseCoordinates (text : String) : Except String (List Point) :=
  (tokens text).mapM (parseTuple py)

def coordinatesText (shape : Element) : Option String :=
  ((directFindNs shape "coordinates").bind Element.text).filter (· ≠ "")

/-- The positions of a shape, none where it is missing or has no coordinates. -/
def positionsIn (shape : Option Element) : Except Exn (List Position) :=
  match shape.bind coordinatesText with
  | none => .ok []
  | some text =>
    match parseCoordinates py text with
    | .error e => .error (.kmzParseError e)
    | .ok points => .ok (points.map Point.position)

/-- `Geometry(type=…, coordinates=…)`. -/
def geometryOf (type : GeometryType) (coordinates : Value) : Except Exn Geometry :=
  match Geometry.build type coordinates with
  | some geometry => .ok geometry
  | none => .error .validationError

def boundaries (polygon : Element) : List Element :=
  (findNs polygon "outerBoundaryIs").toList ++ findallNs polygon "innerBoundaryIs"

def boundariesOf (placemark : Element) : List Element :=
  ((directFindNs placemark "Polygon").map boundaries).getD []

def ringsOf (placemark : Element) : Except Exn (List (List Position)) := do
  let drawn ← (boundariesOf placemark).mapM (fun b => positionsIn py (findNs b "LinearRing"))
  return (drawn.filter (fun ps => 3 ≤ ps.length)).map (ringOf py.toRuntime)

def ringValue (ring : List Position) : Value := .arr (ring.map lonLat)

/-- The geometry of the direct children, tried in the order point, line, polygon. -/
def drawnGeometry (placemark : Element) : Except Exn (Option Geometry) := do
  let point ← positionsIn py (directFindNs placemark "Point")
  match point with
  | p :: _ => (geometryOf .point (lonLat p)).map some
  | [] =>
    let line ← positionsIn py (directFindNs placemark "LineString")
    if 2 ≤ line.length then (geometryOf .lineString (.arr (line.map lonLat))).map some
    else
      let rings ← ringsOf py placemark
      if rings = [] then return none
      else (geometryOf .polygon (.arr (rings.map ringValue))).map some

/-- The placemark made up for the first shape of a multi-geometry. -/
def madeUp (placemark : Element) : Option Element :=
  ((directFindNs placemark "MultiGeometry").bind (fun multi =>
    multi.children.find? (fun c => localName c.tag ∈ ["Point", "LineString", "Polygon"]))).map
      (fun child => .mk "Placemark" .empty none [child])

/-- A made-up placemark has no multi-geometry, so that the recursion ends with it. -/
def placemarkGeometry (placemark : Element) : Except Exn (Option Geometry) := do
  match ← drawnGeometry py placemark with
  | some geometry => return some geometry
  | none =>
    match madeUp placemark with
    | some made => drawnGeometry py made
    | none => return none

end

def addData (data : Dict String String) (item : Element) : Dict String String :=
  let name := (item.get "name").getD ""
  let value := ((directFindNs item "value").bind Element.text).getD ""
  if name ≠ "" && value ≠ "" then data.set name (strip value) else data

/-- `_placemark_extended_data`. -/
def extendedData (placemark : Element) : Dict String String :=
  match directFindNs placemark "ExtendedData" with
  | none => .empty
  | some ext => (findallNs ext "Data").foldl addData .empty

/-- `ext_data.get("sidc") or ext_data.get("SIDC")`. -/
def explicitSidcOf (data : Dict String String) : Option String :=
  match (data.get? "sidc").bind noneIfEmpty with
  | some sidc => some sidc
  | none => data.get? "SIDC"

def affiliationOf (value : String) : Option Affiliation :=
  [Affiliation.friend, .hostile, .neutral, .unknown, .pending, .suspect, .assumedFriend].find?
    (fun a => a.value = value)

structure Intake where
  draw : Nat
  filename : String
  sourceSystem : String
  receivedAt : Datetime
  rawPointer : RawPointer
  ingestSource : IngestSource

def effectiveAffiliation (explicit : Option String) (r : RecognitionResult) : String × String :=
  match (explicit.bind noneIfEmpty).bind affiliationFromExplicitSidc with
  | some affiliation => (affiliation, "explicit_sidc")
  | none => (r.affiliation, r.affiliationSource.value)

def Status.value : Status → String
  | .clean => "clean"
  | .bestEffort => "best_effort"

/-- `json.dumps` of a dictionary whose values are already written. -/
def jsonObject (members : List (String × String)) : String :=
  "\x7b" ++ join ", " (members.map (fun m => "\"" ++ quoted m.1 ++ ": " ++ m.2)) ++ "\x7d"

def jsonString (s : String) : String := "\"" ++ quoted s

def jsonBool (b : Bool) : String := if b then "true" else "false"

def recognitionNotes (r : RecognitionResult) (explicit : Option String) (source : String) :
    String :=
  jsonObject [("matched_layer", jsonString r.matchedLayer.value),
    ("status", jsonString r.status.value),
    ("doctrinal_kind", (r.doctrinalKind.map jsonString).getD "null"),
    ("suspected_modifier", jsonBool r.suspectedModifier),
    ("reasons", "[" ++ join ", " (r.reasons.map jsonString) ++ "]"),
    ("explicit_sidc_used", jsonBool explicit.isSome),
    ("affiliation_source", jsonString source)]

def setNonempty (attributes : Attributes) (name : String) (value : Option String) : Attributes :=
  match value.bind noneIfEmpty with
  | some text => attributes.set name (.str text)
  | none => attributes

def setExtended (attributes : Attributes) (data : Dict String String) : Attributes :=
  if data.items = [] then attributes
  else attributes.set "kmz_extended_data" (.obj (data.items.map (fun i => (i.1, .str i.2))))

def attributesOf (intake : Intake) (idx : Nat) (data : Dict String String)
    (kind description placemarkId : Option String) : Attributes :=
  let parents := (((Dict.empty.set "kmz_feature_index" (.num idx)).set "parent_kmz_uri"
    (.str intake.rawPointer.objectKey)).set "parent_kmz_filename" (.str intake.filename)).set
      "parent_kmz_source" (.str intake.ingestSource.value)
  setNonempty (setNonempty (setNonempty (setExtended parents data) "graphic_kind" kind)
    "kmz_description" description) "kmz_placemark_id" placemarkId

section

variable (py : Runtime)

def symbologyOf (explicit : Option String) (r : RecognitionResult) : Except Exn Symbology :=
  match affiliationOf (effectiveAffiliation explicit r).1 with
  | none => .error .valueError
  | some affiliation => .ok
    { sidc2525c := some ((explicit.bind noneIfEmpty).getD r.sidc)
      affiliation := some affiliation }

def provenanceOf (intake : Intake) (explicit : Option String) (r : RecognitionResult) :
    List ProvenanceEntry :=
  let source := (effectiveAffiliation explicit r).2
  [{ step := "kmz_to_cto", actor := "gateway.kmz_parser", at_ := intake.receivedAt },
    { step := "kmz_label_recognized"
      actor := "gateway.kmz_recognizer"
      at_ := intake.receivedAt
      notes := some (recognitionNotes r explicit source)
      lossyFields := (if (explicit.bind noneIfEmpty).isSome then [] else ["sidc_2525c"]) ++
        (if source = "explicit_sidc" then [] else ["affiliation"]) }]

/-- `_placemark_to_cto`; none where there is no geometry. -/
def placemarkToCto (intake : Intake) (idx : Nat) (placemark : Element) :
    Except Exn (Option CTO) := do
  let name := textOf (directFindNs placemark "name")
  let description := textOf (directFindNs placemark "description")
  match ← placemarkGeometry py placemark with
  | none => return none
  | some geometry =>
    let data := extendedData placemark
    let explicit := explicitSidcOf data
    let recognition ← (recognize py.tables py.env name description geometry.type).mapError
      .recognizer
    let symbology ← symbologyOf explicit recognition
    return some
      { uid := py.uuid7 intake.draw idx
        sourceUid := placemark.get "id"
        sourceSystem := intake.sourceSystem
        sourceProtocol := .kmz
        ingestSource := intake.ingestSource
        receivedAt := intake.receivedAt
        eventTime := intake.receivedAt
        objectClass := .graphic
        geometry := geometry
        symbology := symbology
        label := name
        remarks := description
        attributes := attributesOf intake idx data recognition.doctrinalKind description
          (placemark.get "id")
        rawPointer := some intake.rawPointer
        provenance := provenanceOf intake explicit recognition }

def primaryName (names : List String) : Option String :=
  if "doc.kml" ∈ names then some "doc.kml"
  else names.find? (fun name => ".kml".toList.isSuffixOf (lower name).toList)

def readPrimaryKml (kmzBytes : List UInt8) : Except Exn (List UInt8) :=
  match py.zipFile kmzBytes with
  | .error e => .error (.kmzParseError ("invalid KMZ (not a zip): " ++ e))
  | .ok zf =>
    match primaryName zf.namelist with
    | none => .error (.kmzParseError "KMZ contains no .kml file")
    | some name =>
      match zf.read name with
      | some kml => .ok kml
      | none => .error .zipError

/-- `_iter_placemarks`. -/
def placemarks (root : Element) : List Element := findallNs root "Placemark"

def ctosFrom (intake : Intake) : Nat → List Element → Except Exn (List CTO)
  | _, [] => .ok []
  | idx, placemark :: rest => do
    let cto ← placemarkToCto py intake idx placemark
    let ctos ← ctosFrom intake (idx + 1) rest
    return cto.toList ++ ctos

/-- What of the XML parser's exceptions leaves `kmz_to_ctos`. -/
def invalidKml : ParserExn → Exn
  | .parseError message => .kmzParseError ("invalid KML inside KMZ: " ++ message)
  | .lookupError _ => .lookupError
  | .valueError _ => .valueError

def kmzToCtos (kmzBytes : List UInt8) (intake : Intake) : Except Exn (List CTO) := do
  let kml ← readPrimaryKml py kmzBytes
  match py.fromstring kml with
  | .error e => .error (invalidKml e)
  | .ok root => ctosFrom py intake 0 (placemarks root)

end

end TacticalGateway.Kmz
