import TacticalGateway.Gateway.Ingest
import TacticalGateway.Kmz.Contract

/-! The two ways of a KMZ file into the gateway: the upload endpoint and the folder watcher, which
call one ingestor by keywords. -/
namespace TacticalGateway.Kmz
open ElementTree (Element)
open Gateway (IngestArguments IngestCall KmzIngestResult Parsed Parsers Publishing kmzIngest
  publishLoop)
open Json (Value)
open Normalizers (lower)

inductive Argument where
  | bytes (b : List UInt8)
  | text (s : String)
  | source (s : IngestSource)

abbrev Keywords := List (String × Argument)

def ingestParameters : List String := ["data", "filename", "ingest_source", "source_label"]

/-- How Python binds the keywords of a call to these parameters; none is its TypeError for an
unexpected or a missing argument. -/
def bindIngest (keywords : Keywords) : Option IngestArguments :=
  if keywords.all (fun k => k.1 ∈ ingestParameters) then
    match keywords.lookup "data", keywords.lookup "filename", keywords.lookup "ingest_source",
      keywords.lookup "source_label" with
    | some (.bytes data), some (.text filename), some (.source ingestSource), some (.text label) =>
      some ⟨data, filename, ingestSource, label⟩
    | _, _, _, _ => none
  else none

/-- What the clock, the random source, the capture writer and the bus answer during a call. -/
structure World where
  receivedAt : Datetime
  draw : Nat
  capture : Except String RawPointer
  publish : Nat → Bool

/-- An awaited call of the ingestor: the runs of its body, and how it ends. -/
structure Ingesting where
  calls : List IngestArguments
  result : Option KmzIngestResult
  publishing : Publishing

def parsed : Except Exn (List CTO) → Parsed
  | .ok ctos => .ctos ctos
  | .error (.kmzParseError message) => .parseError message
  | .error _ => .raised

section

variable (py : Runtime)

/-- The ingestors with this parser for KMZ files. -/
def installed (parsers : Parsers) : Parsers :=
  { parsers with
    kmzToCtos := fun draw data filename sourceSystem receivedAt rawPointer ingestSource =>
      parsed (kmzToCtos py data
        ⟨draw, filename, sourceSystem, receivedAt, rawPointer, ingestSource⟩) }

variable (parsers : Parsers) (world : World)

def callOf (args : IngestArguments) : IngestCall :=
  ⟨args, world.receivedAt, world.draw, world.capture, world.publish⟩

/-- `await kmz_ingestor.ingest(**keywords)`. -/
def ingest (keywords : Keywords) : Ingesting :=
  match bindIngest keywords with
  | none => ⟨[], none, .none⟩
  | some args =>
    let (result, publishing) := kmzIngest (installed py parsers) (callOf world args)
    ⟨[args], result, publishing⟩

structure Existing where
  featureCount : Nat
  ingestedAt : Option Datetime
  objectUri : Option String

structure UploadRequest where
  filename : Option String
  content : List UInt8
  clientHost : Option String
  force : Bool

inductive Response where
  | badRequest (detail : String)
  | filenameExists (filename : String) (existing : Existing)
  | ingestFailed (message : Option String) (filename : String) (sha256 : Option String)
  | created (filename : String) (sha256 objectUri : Option String) (featuresExtracted : Nat)
      (replaced : Bool)
  | internalServerError

def uploadKeywords (filename : String) (u : UploadRequest) : Keywords :=
  [("kmz_bytes", .bytes u.content), ("filename", .text filename),
    ("ingest_source", .source .upload),
    ("source_label", .text ("kmz-upload:" ++ u.clientHost.getD "unknown"))]

def responseOf (filename : String) (force : Bool) : Option KmzIngestResult → Response
  | none => .internalServerError
  | some result =>
    if result.ok then
      .created filename result.sha256 result.objectKey result.featuresExtracted force
    else .ingestFailed result.error filename result.sha256

/-- `POST /ingest/kmz`. -/
def ingestKmz (existing : String → Existing) (u : UploadRequest) : Response × Ingesting :=
  let filename := ((u.filename).bind Ovl.noneIfEmpty).getD "uploaded.kmz"
  if !".kmz".toList.isSuffixOf (lower filename).toList then
    (.badRequest "filename must end with .kmz", ⟨[], none, .none⟩)
  else if !u.force && decide (0 < (existing filename).featureCount) then
    (.filenameExists filename (existing filename), ⟨[], none, .none⟩)
  else
    let ingesting := ingest py parsers world (uploadKeywords filename u)
    (responseOf filename u.force ingesting.result, ingesting)

def folderKeywords (args : IngestArguments) : Keywords :=
  [("data", .bytes args.data), ("filename", .text args.filename),
    ("ingest_source", .source args.ingestSource), ("source_label", .text args.sourceLabel)]

def pickup (inboxPath name : String) (data : List UInt8) : Ingesting :=
  ingest py parsers world (folderKeywords ⟨data, name, .folder, "folder:" ++ inboxPath⟩)

end

def Ingesting.parseFailed (i : Ingesting) : Bool :=
  (i.result.bind KmzIngestResult.error).any (fun e => "parse failed: ".toList.isPrefixOf e.toList)

def commonPointer (p : RawPointer) : String × Nat := (p.sha256, p.sizeBytes)

/-- An object without its identifier, timestamps and raw pointer key, and without what tells where
it comes from. -/
def common (cto : CTO) : CTO × Option (String × Nat) :=
  ({ cto with
      uid := 0
      sourceSystem := ""
      ingestSource := .stream
      receivedAt := newYear
      eventTime := newYear
      attributes := (cto.attributes.erase "parent_kmz_uri").erase "parent_kmz_source"
      rawPointer := none
      provenance := cto.provenance.map (fun e => { e with at_ := newYear }) },
    cto.rawPointer.map commonPointer)

/-- Both paths run the ingest of the same file once, publish the same objects, and fail to parse
the file together. -/
structure PathsAgree (upload folder : Ingesting) : Prop where
  ran : ∃ args args', upload.calls = [args] ∧ folder.calls = [args'] ∧ args.data = args'.data ∧
    args.filename = args'.filename
  published : upload.publishing.published.map common = folder.publishing.published.map common
  parse_failed : upload.parseFailed = folder.parseFailed

theorem PathsAgree.called {upload folder : Ingesting} (agree : PathsAgree upload folder) :
    upload.calls ≠ [] := by
  obtain ⟨args, _, ran, _⟩ := agree.ran
  rw [ran]
  exact List.cons_ne_nil _ _

variable {py : Runtime} {parsers : Parsers} {world : World}

theorem bindIngest_unexpected {keywords : Keywords} {k : String × Argument}
    (passed : k ∈ keywords) (unexpected : k.1 ∉ ingestParameters) : bindIngest keywords = none := by
  have not_all : ¬ keywords.all (fun k => k.1 ∈ ingestParameters) = true := by
    rw [List.all_eq_true]
    intro all
    exact unexpected (by simpa using all k passed)
  rw [bindIngest, if_neg not_all]

theorem bindIngest_upload (filename : String) (u : UploadRequest) :
    bindIngest (uploadKeywords filename u) = none :=
  bindIngest_unexpected List.mem_cons_self (by simp [ingestParameters])

theorem bindIngest_folder (args : IngestArguments) :
    bindIngest (folderKeywords args) = some args := by
  have expected : (folderKeywords args).all (fun k => k.1 ∈ ingestParameters) = true := by
    simp [folderKeywords, ingestParameters]
  rw [bindIngest, if_pos expected]
  rfl

theorem upload_calls (existing : String → Existing) (u : UploadRequest) :
    (ingestKmz py parsers world existing u).2.calls = [] := by
  unfold ingestKmz
  simp only
  split
  · rfl
  · split
    · rfl
    · rw [ingest, bindIngest_upload]

/-- The two paths agree on no file: every upload passes a keyword that the ingestor does not know,
so that its ingest is never run. -/
theorem paths_never_agree (py : Runtime) (parsers : Parsers) (world world' : World)
    (existing : String → Existing) (u : UploadRequest) (inboxPath name : String) :
    ¬ PathsAgree (ingestKmz py parsers world existing u).2
      (pickup py parsers world' inboxPath name u.content) := by
  intro agree
  exact agree.called (upload_calls existing u)

section Common

variable {intake intake' : Intake}

/-- The arguments of one parse for the same file, captured under the same hash. -/
structure SameFile (intake intake' : Intake) : Prop where
  filename : intake.filename = intake'.filename
  pointer : commonPointer intake.rawPointer = commonPointer intake'.rawPointer

theorem erase_setNonempty {name other : String} (different : other ≠ name)
    (attributes : Attributes) (value : Option String) :
    (setNonempty attributes name value).erase other =
      setNonempty (attributes.erase other) name value := by
  unfold setNonempty
  split
  · exact Dict.erase_set_ne _ _ different
  · rfl

theorem erase_setExtended {other : String} (different : other ≠ "kmz_extended_data")
    (attributes : Attributes) (data : Dict String String) :
    (setExtended attributes data).erase other = setExtended (attributes.erase other) data := by
  unfold setExtended
  split
  · rfl
  · exact Dict.erase_set_ne _ _ different

theorem attributesOf_common (same : SameFile intake intake') (idx : Nat)
    (data : Dict String String) (kind description placemarkId : Option String) :
    ((attributesOf intake idx data kind description placemarkId).erase "parent_kmz_uri").erase
        "parent_kmz_source" =
      ((attributesOf intake' idx data kind description placemarkId).erase "parent_kmz_uri").erase
        "parent_kmz_source" := by
  have parents (i : Intake) : ((attributesOf i idx data kind description placemarkId).erase
      "parent_kmz_uri").erase "parent_kmz_source" =
      setNonempty (setNonempty (setNonempty (setExtended (((((Dict.empty.set "kmz_feature_index"
        (.num idx)).erase "parent_kmz_uri").set "parent_kmz_filename" (.str i.filename)).erase
          "parent_kmz_source")) data) "graphic_kind" kind) "kmz_description" description)
        "kmz_placemark_id" placemarkId := by
    unfold attributesOf
    simp only [erase_setNonempty (show "parent_kmz_uri" ≠ "kmz_placemark_id" by decide),
      erase_setNonempty (show "parent_kmz_uri" ≠ "kmz_description" by decide),
      erase_setNonempty (show "parent_kmz_uri" ≠ "graphic_kind" by decide),
      erase_setNonempty (show "parent_kmz_source" ≠ "kmz_placemark_id" by decide),
      erase_setNonempty (show "parent_kmz_source" ≠ "kmz_description" by decide),
      erase_setNonempty (show "parent_kmz_source" ≠ "graphic_kind" by decide),
      erase_setExtended (show "parent_kmz_uri" ≠ "kmz_extended_data" by decide),
      erase_setExtended (show "parent_kmz_source" ≠ "kmz_extended_data" by decide),
      Dict.erase_set_ne _ _ (show "parent_kmz_uri" ≠ "parent_kmz_source" by decide),
      Dict.erase_set_ne _ _ (show "parent_kmz_uri" ≠ "parent_kmz_filename" by decide),
      Dict.erase_set_self]
  rw [parents, parents, same.filename]

theorem placemarkToCto_common (same : SameFile intake intake') (idx : Nat) (placemark : Element) :
    (placemarkToCto py intake idx placemark).map (Option.map common) =
      (placemarkToCto py intake' idx placemark).map (Option.map common) := by
  unfold placemarkToCto
  simp only [bind, Except.bind]
  cases placemarkGeometry py placemark with
  | error e => rfl
  | ok geometry =>
    cases geometry with
    | none => rfl
    | some geometry =>
      simp only
      cases (recognize py.tables py.env (textOf (directFindNs placemark "name"))
          (textOf (directFindNs placemark "description")) geometry.type).mapError
            Exn.recognizer with
      | error e => rfl
      | ok r =>
        simp only
        cases symbologyOf (explicitSidcOf (extendedData placemark)) r with
        | error e => rfl
        | ok symbology =>
          simp only [pure, Except.pure, Except.map, Option.map, common,
            attributesOf_common same, provenanceOf, List.map_cons, List.map_nil, same.pointer]

theorem ctosFrom_map {B : Type*} (f : CTO → B) (intake : Intake) (idx : Nat) (placemark : Element)
    (ps : List Element) :
    (ctosFrom py intake idx (placemark :: ps)).map (List.map f) = (do
      let first ← (placemarkToCto py intake idx placemark).map (Option.map f)
      let rest ← (ctosFrom py intake (idx + 1) ps).map (List.map f)
      return first.toList ++ rest) := by
  rw [ctosFrom]
  cases placemarkToCto py intake idx placemark with
  | error e => rfl
  | ok cto =>
    cases ctosFrom py intake (idx + 1) ps with
    | error e => rfl
    | ok ctos => cases cto <;> rfl

theorem ctosFrom_common (same : SameFile intake intake') (idx : Nat) (ps : List Element) :
    (ctosFrom py intake idx ps).map (List.map common) =
      (ctosFrom py intake' idx ps).map (List.map common) := by
  induction ps generalizing idx with
  | nil => rfl
  | cons placemark ps ih =>
    rw [ctosFrom_map, ctosFrom_map, placemarkToCto_common same, ih]

theorem kmzToCtos_common (py : Runtime) (same : SameFile intake intake') (data : List UInt8) :
    (kmzToCtos py data intake).map (List.map common) =
      (kmzToCtos py data intake').map (List.map common) := by
  unfold kmzToCtos
  cases readPrimaryKml py data with
  | error e => rfl
  | ok kml =>
    simp only [bind, Except.bind]
    cases py.fromstring kml with
    | error e => rfl
    | ok root => exact ctosFrom_common same 0 (placemarks root)

end Common

structure Succeeds (world : World) (rawPointer : RawPointer) : Prop where
  captured : world.capture = .ok rawPointer
  published : ∀ i, world.publish i = true

theorem published_all {world : World} {rawPointer : RawPointer} (ok : Succeeds world rawPointer)
    (p : Publishing) (ctos : List CTO) :
    (publishLoop world.publish p ctos).published = p.published ++ ctos := by
  induction ctos generalizing p with
  | nil => simp [publishLoop]
  | cons cto ctos ih =>
    rw [publishLoop, ih]
    simp [ok.published]

theorem ingest_folder {rawPointer : RawPointer} (ok : Succeeds world rawPointer)
    (args : IngestArguments) :
    ingest py parsers world (folderKeywords args) =
      if Gateway.kmz.refuses args.data then
        ⟨[args], some ⟨false, args.filename, none, none, 0, some Gateway.kmz.refusal⟩, .none⟩
      else
        let sha := some (sha256 args.data)
        match kmzToCtos py args.data ⟨world.draw, args.filename, args.sourceLabel, world.receivedAt,
            rawPointer, args.ingestSource⟩ with
        | .ok ctos =>
          ⟨[args], some ⟨true, args.filename, sha, some rawPointer.objectKey, ctos.length,
            none⟩, publishLoop world.publish .none ctos⟩
        | .error (.kmzParseError e) => ⟨[args], some ⟨false, args.filename, sha,
            some rawPointer.objectKey, 0, some ("parse failed: " ++ e)⟩, .none⟩
        | .error _ => ⟨[args], none, .none⟩ := by
  rw [ingest, bindIngest_folder]
  simp only
  unfold kmzIngest Gateway.ingestFile
  have data : (callOf world args).data = args.data := rfl
  rw [data]
  by_cases refused : Gateway.kmz.refuses args.data = true
  · rw [if_pos refused, if_pos refused]
    rfl
  · rw [if_neg refused, if_neg refused]
    simp only [callOf, ok.captured, Parsers.kmz, installed]
    cases kmzToCtos py args.data ⟨world.draw, args.filename, args.sourceLabel, world.receivedAt,
        rawPointer, args.ingestSource⟩ with
    | ok ctos => rfl
    | error e => cases e <;> rfl

theorem common_ok_iff {intake intake' : Intake} {data : List UInt8}
    (same : SameFile intake intake') {ctos : List CTO}
    (made : kmzToCtos py data intake = .ok ctos) :
    ∃ ctos', kmzToCtos py data intake' = .ok ctos' ∧ ctos.map common = ctos'.map common := by
  have related := kmzToCtos_common py same data
  rw [made] at related
  cases made' : kmzToCtos py data intake' with
  | error e =>
    rw [made'] at related
    cases related
  | ok ctos' =>
    rw [made'] at related
    exact ⟨ctos', rfl, Except.ok.inj related⟩

theorem common_error {intake intake' : Intake} {data : List UInt8}
    (same : SameFile intake intake') {e : Exn} (raised : kmzToCtos py data intake = .error e) :
    kmzToCtos py data intake' = .error e := by
  have related := kmzToCtos_common py same data
  rw [raised] at related
  cases made' : kmzToCtos py data intake' with
  | error e' =>
    rw [made'] at related
    cases related
    rfl
  | ok ctos' =>
    rw [made'] at related
    cases related

/-- With the keywords of the ingestor the two paths would agree on every file. -/
theorem paths_agree_by_data {world' : World} {rawPointer rawPointer' : RawPointer}
    (ok : Succeeds world rawPointer) (ok' : Succeeds world' rawPointer')
    (captured : commonPointer rawPointer = commonPointer rawPointer') (data : List UInt8)
    (name label inboxPath : String) :
    PathsAgree (ingest py parsers world (folderKeywords ⟨data, name, .upload, label⟩))
      (pickup py parsers world' inboxPath name data) := by
  have same : SameFile ⟨world.draw, name, label, world.receivedAt, rawPointer, .upload⟩
      ⟨world'.draw, name, "folder:" ++ inboxPath, world'.receivedAt, rawPointer', .folder⟩ :=
    ⟨rfl, captured⟩
  rw [pickup, ingest_folder ok, ingest_folder ok']
  simp only
  split
  · exact ⟨⟨_, _, rfl, rfl, rfl, rfl⟩, rfl, rfl⟩
  · cases made : kmzToCtos py data
        ⟨world.draw, name, label, world.receivedAt, rawPointer, .upload⟩ with
    | ok ctos =>
      obtain ⟨ctos', made', related⟩ := common_ok_iff same made
      rw [made']
      refine ⟨⟨_, _, rfl, rfl, rfl, rfl⟩, ?_, rfl⟩
      simp only [published_all ok, published_all ok', Publishing.none, List.nil_append]
      exact related
    | error e =>
      rw [common_error same made]
      cases e with
      | kmzParseError message => exact ⟨⟨_, _, rfl, rfl, rfl, rfl⟩, rfl, rfl⟩
      | validationError => exact ⟨⟨_, _, rfl, rfl, rfl, rfl⟩, rfl, rfl⟩
      | zipError => exact ⟨⟨_, _, rfl, rfl, rfl, rfl⟩, rfl, rfl⟩
      | recognizer e => exact ⟨⟨_, _, rfl, rfl, rfl, rfl⟩, rfl, rfl⟩
      | lookupError => exact ⟨⟨_, _, rfl, rfl, rfl, rfl⟩, rfl, rfl⟩
      | valueError => exact ⟨⟨_, _, rfl, rfl, rfl, rfl⟩, rfl, rfl⟩

def calm : World := ⟨newYear, 0, .ok Gateway.onePointPointer, fun _ => true⟩

def signature : List UInt8 := [0x50, 0x4B, 0x03, 0x04]

theorem signature_fails (intake : Intake) : kmzToCtos plainKmz signature intake =
    .error (.kmzParseError "invalid KMZ (not a zip): File is not a zip file") := by
  have other : signature ≠ shortRingKmz := by decide
  unfold kmzToCtos readPrimaryKml plainKmz knows
  simp only [if_neg other]
  rfl

/-- The watcher reports that these bytes cannot be parsed; their upload is answered with status
500. -/
theorem upload_raises_type_error :
    (ingestKmz plainKmz Gateway.onePoint calm (fun _ => ⟨0, none, none⟩)
        ⟨some "a.kmz", signature, none, true⟩).1 = .internalServerError ∧
      (pickup plainKmz Gateway.onePoint calm "/inbox" "a.kmz" signature).parseFailed = true ∧
      ¬ PathsAgree
        (ingestKmz plainKmz Gateway.onePoint calm (fun _ => ⟨0, none, none⟩)
          ⟨some "a.kmz", signature, none, true⟩).2
        (pickup plainKmz Gateway.onePoint calm "/inbox" "a.kmz" signature) := by
  refine ⟨?_, ?_, ?_⟩
  · have name : ((some "a.kmz").bind Ovl.noneIfEmpty).getD "uploaded.kmz" = "a.kmz" := by
      simp [Ovl.noneIfEmpty]
    have ending : (!".kmz".toList.isSuffixOf (lower "a.kmz").toList) = false := by decide
    simp only [ingestKmz, name, ending, ingest, bindIngest_upload]
    rfl
  · have accepted : Gateway.kmz.refuses signature = false := by decide
    rw [pickup, ingest_folder ⟨rfl, fun _ => rfl⟩]
    simp only [accepted, signature_fails]
    rw [if_neg Bool.false_ne_true]
    simp only [Ingesting.parseFailed, Option.bind_some, Option.any_some]
    decide
  · intro agree
    exact agree.called (upload_calls _ _)

end TacticalGateway.Kmz
