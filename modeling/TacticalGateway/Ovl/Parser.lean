import TacticalGateway.Ovl.Sidc

/-! The OVL parser: the overlay model of an XML document, the dictionary of each of its objects,
and the objects of the common schema that are built from these. -/
namespace TacticalGateway.Ovl
open ElementTree
open Json (Value)
open Normalizers (Etree strip splitWords lower)

/-- Python as the parser uses it; an error is the text of the exception. A rational stands for
what `float` returns, also for an infinity or a NaN; a NaN equals nothing. `uuid7 draw i` is the
identifier of object number `i`, by what is drawn of the clock and the random source. -/
structure Runtime where
  float : String → Except String Rat
  nan : Rat → Bool
  isdigit : String → Bool
  int : String → Except String Int
  repr : String → String
  uuid7 : Nat → Nat → UUID

structure Position where
  lat : Rat
  lon : Rat
  deriving DecidableEq

structure Modifier where
  value : String := ""
  vis : Bool := false
  deriving DecidableEq

structure MilbObject where
  milId : String
  name : String := ""
  visibility : Bool := true
  modifiers : Dict String Modifier := .empty
  labelPosition : Option Position := none
  lineColor : Option String := none
  fillColor : Option String := none
  size : Option String := none
  positions : List Position := []

structure OvlModel where
  name : String := ""
  createTime : Option Int := none
  modifiedTime : Option Int := none
  objects : List MilbObject := []

def modifierKeys : List String := ["T", "T1", "N", "W", "W1", "H", "Q", "Y"]

def Position.parse (py : Runtime) (text : String) : Except String Position :=
  match splitWords (strip text) with
  | [lat, lon] => do
    let lat ← py.float lat
    let lon ← py.float lon
    return ⟨lat, lon⟩
  | _ => .error ("POSITION must be 'lat lon', got: " ++ py.repr text)

/-- `_text`. -/
def textOf (el : Option Element) : String :=
  match el with
  | some e => strip (e.text.getD "")
  | none => ""

/-- `_bool`. -/
def boolOf (text : String) : Bool := lower (strip text) = "true"

/-- `_text(…) or None`. -/
def textOrNone (el : Option Element) : Option String :=
  if textOf el = "" then none else some (textOf el)

def addModifier (el : Element) (modifiers : Dict String Modifier) (key : String) :
    Dict String Modifier :=
  let value := el.find key
  let vis := el.find (key ++ "_VIS")
  if value.isSome || vis.isSome then
    modifiers.set key { value := textOf value, vis := boolOf (textOf vis) }
  else modifiers

def parseMilbobject (py : Runtime) (el : Element) : Except String MilbObject := do
  let labelText := textOf (el.find "LABEL_POSITION")
  let labelPosition ← if labelText = "" then .ok none
    else (Position.parse py labelText).map some
  let texts := (el.children.filter (fun c => c.tag = "POSITION")).map (fun c => textOf (some c))
  let positions ← (texts.filter (· ≠ "")).mapM (Position.parse py)
  return {
    milId := textOf (el.find "MIL_ID")
    name := textOf (el.find "NAME")
    visibility := if (el.find "VISIBILITY").isSome then boolOf (textOf (el.find "VISIBILITY"))
      else true
    modifiers := modifierKeys.foldl (addModifier el) .empty
    labelPosition := labelPosition
    lineColor := textOrNone (el.find "LINE_COLOR")
    fillColor := textOrNone (el.find "FILL_COLOR")
    size := textOrNone (el.find "SIZE")
    positions := positions }

/-- `_int_or_none`. -/
def intOrNone (py : Runtime) (text : String) : Except String (Option Int) :=
  if py.isdigit text then (py.int text).map some else .ok none

def parseOvlBytes (py : Runtime) (et : Etree) (data : List UInt8) : Except String OvlModel := do
  let root ← (et.fromstring data).mapError ParserExn.message
  if root.tag ≠ "MODEL" then .error ("expected <MODEL> root, got <" ++ root.tag ++ ">")
  else
    let objects ← (root.children.filter (fun c => c.tag = "milbobject")).mapM (parseMilbobject py)
    let createTime ← intOrNone py (textOf (root.find "CREATE_TIME"))
    let modifiedTime ← intOrNone py (textOf (root.find "MODIFIED_TIME"))
    return {
      name := textOf (root.find "NAME")
      createTime := createTime
      modifiedTime := modifiedTime
      objects := objects }

section

variable (py : Runtime)

/-- Float equality, of both coordinates. -/
def samePoint (p q : Position) : Bool :=
  decide (p = q) && !py.nan p.lat && !py.nan p.lon

/-- The last position repeats the first one. -/
def closed (positions : List Position) : Bool :=
  match positions.head?, positions.getLast? with
  | some first, some last => samePoint py first last
  | _, _ => false

def inferActualGeometry (positions : List Position) (sidc : String) : GeometryType :=
  if positions.length ≤ 1 then .point
  else if positions.length = 2 then .lineString
  else if classifyGeometry sidc = some .area || closed py positions then .polygon
  else .lineString

def actualClass : GeometryType → GeometryClass
  | .point => .point
  | .lineString => .linear
  | .polygon => .area

/-- The geometry type, the geometry class of the code, and whether the two disagree. -/
def resolveGeometry (positions : List Position) (sidc : String) :
    GeometryType × Option String × Bool :=
  let actual := inferActualGeometry py positions sidc
  let sidcClass := classifyGeometry sidc
  (actual, sidcClass.map GeometryClass.value,
    sidcClass.isSome && sidcClass ≠ some (actualClass actual))

def lonLat (p : Position) : Value := .arr [.num p.lon, .num p.lat]

/-- The vertices of the ring, with the first one again behind an open line. -/
def ringOf (positions : List Position) : List Position :=
  if closed py positions then positions else positions ++ positions.head?.toList

def coordinatesOf (type : GeometryType) (positions : List Position) : Value :=
  match type with
  | .point => ((positions.map lonLat).head?).getD .null
  | .lineString => .arr (positions.map lonLat)
  | .polygon => .arr [.arr ((ringOf py positions).map lonLat)]

def modifierValue (m : Modifier) : Value := .obj [("value", .str m.value), ("vis", .bool m.vis)]

def modifiersValue (modifiers : Dict String Modifier) : Value :=
  .obj (modifiers.items.map (fun i => (i.1, modifierValue i.2)))

/-- The entries that are there for every object. -/
def baseAttributes (obj : MilbObject) : List (String × Value) :=
  let (_, sidcClass, conflict) := resolveGeometry py obj.positions obj.milId
  [("sidc", .str obj.milId),
    ("affiliation", .str (classifyAffiliation obj.milId).value),
    ("function_code", .str (functionCode obj.milId)),
    ("sidc_geometry_class", (sidcClass.map Value.str).getD .null),
    ("geometry_conflict", .bool conflict),
    ("sidc_known", .bool (isKnown obj.milId)),
    ("visibility", .bool obj.visibility),
    ("modifiers", modifiersValue obj.modifiers)]

/-- The entries that are there where the object has them. -/
def optionalAttributes (obj : MilbObject) (parentOvlUri : String) : List (String × Value) :=
  (obj.labelPosition.map (fun p => ("label_position", lonLat p))).toList ++
    (obj.lineColor.map (fun color => ("line_color", .str color))).toList ++
    (obj.fillColor.map (fun color => ("fill_color", .str color))).toList ++
    (obj.size.map (fun size => ("size", .str size))).toList ++
    (if parentOvlUri = "" then [] else [("parent_ovl_uri", .str parentOvlUri)])

def attributeNames : List String :=
  ["sidc", "affiliation", "function_code", "sidc_geometry_class", "geometry_conflict", "sidc_known",
    "visibility", "modifiers", "label_position", "line_color", "fill_color", "size",
    "parent_ovl_uri"]

theorem optional_name {A : Type} (name : String) (f : A → Value) (a : Option A) :
    ((a.map (fun x => (name, f x))).toList.map Prod.fst).Sublist [name] := by
  cases a with
  | none => exact List.nil_sublist _
  | some x => exact List.Sublist.refl _

theorem attribute_names (obj : MilbObject) (parentOvlUri : String) :
    ((baseAttributes py obj ++ optionalAttributes obj parentOvlUri).map Prod.fst).Sublist
      attributeNames := by
  have uri : ((if parentOvlUri = "" then [] else
      [("parent_ovl_uri", Value.str parentOvlUri)]).map Prod.fst).Sublist ["parent_ovl_uri"] := by
    split
    · exact List.nil_sublist _
    · exact List.Sublist.refl _
  simp only [optionalAttributes, List.map_append]
  exact (List.Sublist.refl
    ["sidc", "affiliation", "function_code", "sidc_geometry_class", "geometry_conflict",
      "sidc_known", "visibility", "modifiers"]).append
    ((((optional_name "label_position" lonLat obj.labelPosition).append
      (optional_name "line_color" Value.str obj.lineColor)).append
      (optional_name "fill_color" Value.str obj.fillColor)).append
      (optional_name "size" Value.str obj.size) |>.append uri)

def attributesOf (obj : MilbObject) (parentOvlUri : String) : Dict String Value where
  items := baseAttributes py obj ++ optionalAttributes obj parentOvlUri
  distinct := List.Nodup.sublist (attribute_names py obj parentOvlUri) (by decide)

/-- What `milbobject_to_cto_dict` returns; its `object_class` is "graphic". -/
structure CtoDict where
  name : String
  type : GeometryType
  coordinates : Value
  attributes : Dict String Value

def milbobjectToCtoDict (obj : MilbObject) (parentOvlUri : String) : CtoDict :=
  let (type, _, _) := resolveGeometry py obj.positions obj.milId
  { name := obj.name
    type := type
    coordinates := coordinatesOf py type obj.positions
    attributes := attributesOf py obj parentOvlUri }

end

inductive Exn where
  | ovlParseError (message : String)
  | validationError
  deriving DecidableEq

/-- `_to_cto_affiliation`. -/
def toCtoAffiliation : Affiliation → TacticalGateway.Affiliation
  | .friend => .friend
  | .hostile => .hostile
  | .neutral => .neutral
  | .unknown => .unknown

structure Intake where
  draw : Nat
  filename : String
  sourceSystem : String
  receivedAt : Datetime
  rawPointer : RawPointer
  ingestSource : IngestSource

def noneIfEmpty (s : String) : Option String := if s = "" then none else some s

theorem noneIfEmpty_eq_some {s t : String} : noneIfEmpty s = some t ↔ s ≠ "" ∧ s = t := by
  unfold noneIfEmpty
  split
  · rename_i empty
    simp [empty]
  · rename_i full
    simp [full]

theorem noneIfEmpty_eq_none {s : String} : noneIfEmpty s = none ↔ s = "" := by
  unfold noneIfEmpty
  split
  · rename_i empty
    simp [empty]
  · rename_i full
    simp [full]

def ctoOf (py : Runtime) (model : OvlModel) (intake : Intake) (idx : Nat) (obj : MilbObject) :
    Except Exn CTO :=
  let d := milbobjectToCtoDict py obj intake.rawPointer.objectKey
  match Geometry.build d.type d.coordinates with
  | none => .error .validationError
  | some geometry => .ok
    { uid := py.uuid7 intake.draw idx
      sourceUid := noneIfEmpty obj.name
      sourceSystem := intake.sourceSystem
      sourceProtocol := .ovl
      ingestSource := intake.ingestSource
      receivedAt := intake.receivedAt
      eventTime := intake.receivedAt
      objectClass := .graphic
      geometry := geometry
      symbology :=
        { sidc2525c := noneIfEmpty obj.milId
          affiliation := some (toCtoAffiliation (classifyAffiliation obj.milId)) }
      label := noneIfEmpty obj.name
      attributes := ((d.attributes.set "overlay_name" (.str model.name)).set
        "source_filename" (.str intake.filename)).set "ovl_object_index" (.num idx)
      rawPointer := some intake.rawPointer
      provenance :=
        [{ step := "ovl_to_cto", actor := "gateway.ovl_parser", at_ := intake.receivedAt }] }

def ctosFrom (py : Runtime) (model : OvlModel) (intake : Intake) :
    Nat → List MilbObject → Except Exn (List CTO)
  | _, [] => .ok []
  | idx, obj :: objs => do
    let cto ← ctoOf py model intake idx obj
    let ctos ← ctosFrom py model intake (idx + 1) objs
    return cto :: ctos

def ovlToCtos (py : Runtime) (et : Etree) (ovlBytes : List UInt8) (intake : Intake) :
    Except Exn (List CTO) :=
  match parseOvlBytes py et ovlBytes with
  | .error e => .error (.ovlParseError e)
  | .ok model => ctosFrom py model intake 0 model.objects

/-- Decimal numbers, and ASCII digits and text without quotes. -/
def plainRuntime : Runtime where
  float := fun s =>
    match Decimal.readDecimal s with
    | some q => .ok q
    | none => .error ("could not convert string to float: '" ++ s ++ "'")
  nan := fun _ => false
  isdigit := fun s => s ≠ "" && s.toList.all Char.isDigit
  int := fun s => .ok (Nat.ofDigitChars 10 s.toList 0)
  repr := fun s => "'" ++ s ++ "'"
  uuid7 := fun draw i => BitVec.ofNat 128 (2 ^ 64 * draw + i)

end TacticalGateway.Ovl
