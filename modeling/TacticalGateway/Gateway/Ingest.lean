import TacticalGateway.Capture.Writer

/-! File ingest: the checks before capture, what is captured, parsed and published, the result
that is reported, and where the folder watcher then puts the file. -/
namespace TacticalGateway.Gateway
open Text
open Json (Value)

/-- How a parser ends: with objects, with its own error, or with any other exception. -/
inductive Parsed where
  | ctos (ctos : List CTO)
  | parseError (message : String)
  | raised

/-- The four parsers. `draw` is what `uuid7` reads of the clock and the random source. -/
structure Parsers where
  cotXmlToCto : Nat → Bytes → (sourceSystem : String) → (receivedAt : Datetime) →
    (rawPointer : RawPointer) → Parsed
  cotPbToCto : Nat → Bytes → (sourceSystem : String) → (receivedAt : Datetime) →
    (rawPointer : RawPointer) → Parsed
  kmzToCtos : Nat → Bytes → (filename sourceSystem : String) → (receivedAt : Datetime) →
    (rawPointer : RawPointer) → IngestSource → Parsed
  ovlToCtos : Nat → Bytes → (filename sourceSystem : String) → (receivedAt : Datetime) →
    (rawPointer : RawPointer) → IngestSource → Parsed

/-- What differs between the two file formats before their parsers run. -/
structure Format where
  refuses : Bytes → Bool
  refusal : String
  protocol : String

def kmz : Format :=
  { refuses := fun data => data.length < 4 || data.take 2 != [0x50, 0x4B]
    refusal := "not a zip file (KMZ must begin with PK signature)"
    protocol := "kmz" }

def ovl : Format :=
  { refuses := fun data => data.length < 16 || (lstrip (data.take 64)).head? != some 0x3C
    refusal := "not an XML OVL (expected '<' at start of document)"
    protocol := "ovl" }

structure KmzIngestResult where
  ok : Bool
  filename : String
  sha256 : Option String
  objectKey : Option String
  featuresExtracted : Nat
  error : Option String := none

structure OvlIngestResult where
  ok : Bool
  filename : String
  sha256 : Option String
  objectKey : Option String
  objectsIngested : Nat
  conflictCount : Nat := 0
  error : Option String := none

/-- The objects given to `publish_cto` during one ingest, and those for which it did not raise. -/
structure Publishing where
  handed : List CTO
  published : List CTO

def Publishing.none : Publishing := ⟨[], []⟩

/-- The publish loop; `publish i` tells whether call number `i` succeeds. A failed call is
logged and the loop goes on. -/
def publishLoop (publish : Nat → Bool) (p : Publishing) : List CTO → Publishing
  | [] => p
  | cto :: ctos =>
    publishLoop publish
      { handed := p.handed ++ [cto]
        published := if publish p.handed.length then p.published ++ [cto] else p.published } ctos

structure Ingested where
  ok : Bool
  sha256 : Option String
  objectKey : Option String
  ctos : List CTO
  error : Option String

/-- The body that both ingestors share; no result where an exception escapes. -/
def ingestFile (format : Format) (data : Bytes) (capture : Except String RawPointer)
    (parse : RawPointer → Parsed) (publish : Nat → Bool) : Option Ingested × Publishing :=
  if format.refuses data then
    (some ⟨false, none, none, [], some format.refusal⟩, .none)
  else
    let sha := TacticalGateway.sha256 data
    match capture with
    | .error e => (some ⟨false, some sha, none, [], some ("capture failed: " ++ e)⟩, .none)
    | .ok rawPointer =>
      match parse rawPointer with
      | .parseError e =>
        (some ⟨false, some sha, some rawPointer.objectKey, [], some ("parse failed: " ++ e)⟩, .none)
      | .raised => (none, .none)
      | .ctos ctos =>
        (some ⟨true, some sha, some rawPointer.objectKey, ctos, none⟩,
          publishLoop publish .none ctos)

structure IngestArguments where
  data : Bytes
  filename : String
  ingestSource : IngestSource
  sourceLabel : String

/-- One call of an ingestor, with what the clock, the capture writer and the bus answer to it. -/
structure IngestCall extends IngestArguments where
  receivedAt : Datetime
  draw : Nat
  capture : Except String RawPointer
  publish : Nat → Bool

def Parsers.kmz (parsers : Parsers) (c : IngestCall) (rawPointer : RawPointer) : Parsed :=
  parsers.kmzToCtos c.draw c.data c.filename c.sourceLabel c.receivedAt rawPointer c.ingestSource

def Parsers.ovl (parsers : Parsers) (c : IngestCall) (rawPointer : RawPointer) : Parsed :=
  parsers.ovlToCtos c.draw c.data c.filename c.sourceLabel c.receivedAt rawPointer c.ingestSource

def kmzIngest (parsers : Parsers) (c : IngestCall) : Option KmzIngestResult × Publishing :=
  let (ended, publishing) := ingestFile kmz c.data c.capture (parsers.kmz c) c.publish
  (ended.map (fun i =>
    { ok := i.ok
      filename := c.filename
      sha256 := i.sha256
      objectKey := i.objectKey
      featuresExtracted := i.ctos.length
      error := i.error }), publishing)

def geometryConflict (cto : CTO) : Bool :=
  ((cto.attributes.get? "geometry_conflict").map Value.truthy).getD false

def ovlIngest (parsers : Parsers) (c : IngestCall) : Option OvlIngestResult × Publishing :=
  let (ended, publishing) := ingestFile ovl c.data c.capture (parsers.ovl c) c.publish
  (ended.map (fun i =>
    { ok := i.ok
      filename := c.filename
      sha256 := i.sha256
      objectKey := i.objectKey
      objectsIngested := i.ctos.length
      conflictCount := i.ctos.countP geometryConflict
      error := i.error }), publishing)

structure Verdict where
  ok : Bool
  error : Option String

def kmzHandler (parsers : Parsers) (c : IngestCall) : Option Verdict × Publishing :=
  let (result, publishing) := kmzIngest parsers c
  (result.map (fun r => ⟨r.ok, r.error⟩), publishing)

def ovlHandler (parsers : Parsers) (c : IngestCall) : Option Verdict × Publishing :=
  let (result, publishing) := ovlIngest parsers c
  (result.map (fun r => ⟨r.ok, r.error⟩), publishing)

/-- The inbox as `_process` finds it: whether `stat`, the move and the `.err` file work. -/
structure Disk where
  stat : Bool
  content : Option Bytes
  moves : Bool
  writes : Bool

/-- Where a picked-up file ends; a move or a write that fails leaves the rest as it is. -/
inductive Placement where
  | inbox
  | processed (name : String)
  | failed (name : String) (err : Option String)
  deriving DecidableEq

/-- `FolderWatcher._process`; the flag tells whether an exception escapes it. -/
def processFile (disk : Disk) (inboxPath name ts : String)
    (ingest : IngestArguments → Option Verdict × Publishing) : Placement × Bool × Publishing :=
  if !disk.stat then (.inbox, true, .none)
  else
    match disk.content with
    | none => (.inbox, false, .none)
    | some data =>
      match ingest ⟨data, name, .folder, "folder:" ++ inboxPath⟩ with
      | (none, publishing) => (.inbox, true, publishing)
      | (some result, publishing) =>
        let dest := ts ++ "_" ++ name
        if !disk.moves then (.inbox, false, publishing)
        else if result.ok then (.processed dest, false, publishing)
        else
          let text := match result.error with
            | some "" | none => "unknown error"
            | some error => error
          (.failed dest (if disk.writes then some text else none), false, publishing)

theorem publishLoop_handed (publish : Nat → Bool) (p : Publishing) (ctos : List CTO) :
    (publishLoop publish p ctos).handed = p.handed ++ ctos := by
  induction ctos generalizing p with
  | nil => simp [publishLoop]
  | cons cto ctos ih => simp [publishLoop, ih]

theorem publishLoop_published (publish : Nat → Bool) (p : Publishing) (ctos : List CTO) :
    (publishLoop publish p ctos).published.length + (List.range' p.handed.length ctos.length).countP
      (fun i => !publish i) = p.published.length + ctos.length := by
  induction ctos generalizing p with
  | nil => simp [publishLoop]
  | cons cto ctos ih =>
    have rest := ih
      { handed := p.handed ++ [cto]
        published := if publish p.handed.length then p.published ++ [cto] else p.published }
    simp only [List.length_append, List.length_singleton] at rest
    rw [publishLoop, List.length_cons, List.range'_succ, List.countP_cons]
    cases done : publish p.handed.length with
    | true =>
      simp only [done, if_true, List.length_append, List.length_singleton] at rest
      simp only [if_true, Bool.not_true, Bool.false_eq_true, if_false]
      omega
    | false =>
      simp only [done, Bool.false_eq_true, if_false] at rest
      simp only [Bool.false_eq_true, if_false, Bool.not_false, if_true]
      omega

theorem publishLoop_all (publish : Nat → Bool) (ctos : List CTO) :
    (publishLoop publish .none ctos).published.length = ctos.length ↔
      ∀ i < ctos.length, publish i = true := by
  have count := publishLoop_published publish .none ctos
  simp only [Publishing.none, List.length_nil, Nat.zero_add] at count
  rw [← List.range_eq_range'] at count
  constructor
  · intro all i less
    have none_raised : (List.range ctos.length).countP (fun i => !publish i) = 0 := by
      change (publishLoop publish ⟨[], []⟩ ctos).published.length = ctos.length at all
      omega
    simpa using List.countP_eq_zero.mp none_raised i (List.mem_range.mpr less)
  · intro all
    have none_raised : (List.range ctos.length).countP (fun i => !publish i) = 0 := by
      rw [List.countP_eq_zero]
      intro i member
      simp [all i (List.mem_range.mp member)]
    rw [none_raised] at count
    exact count

/-- What a file ingest that reports success has done: the file is captured and parsed, every
object was given to the publisher once and in order, whether or not the calls raised. -/
structure HandedOver (c : IngestCall) (parse : RawPointer → Parsed) (p : Publishing) (count : Nat) :
    Prop where
  parsed : ∃ rawPointer, c.capture = .ok rawPointer ∧ parse rawPointer = .ctos p.handed
  counted : count = p.handed.length
  published : p.published.length = count ↔ ∀ i < count, c.publish i = true

theorem ingestFile_ok {format : Format} {c : IngestCall} {parse : RawPointer → Parsed}
    {i : Ingested} {p : Publishing}
    (ended : ingestFile format c.data c.capture parse c.publish = (some i, p)) (ok : i.ok = true) :
    HandedOver c parse p i.ctos.length := by
  unfold ingestFile at ended
  split at ended
  · cases ended
    cases ok
  · cases captured : c.capture with
    | error e =>
      rw [captured] at ended
      cases ended
      cases ok
    | ok rawPointer =>
      rw [captured] at ended
      cases parsed : parse rawPointer with
      | parseError e =>
        simp only [parsed] at ended
        cases ended
        cases ok
      | raised =>
        simp only [parsed] at ended
        cases ended
      | ctos ctos =>
        simp only [parsed] at ended
        cases ended
        have handed : (publishLoop c.publish .none ctos).handed = ctos := by
          rw [publishLoop_handed]
          rfl
        exact ⟨⟨rawPointer, captured, by rw [parsed, handed]⟩, by rw [handed], publishLoop_all _ _⟩

theorem kmzIngest_ok {parsers : Parsers} {c : IngestCall} {r : KmzIngestResult} {p : Publishing}
    (ended : kmzIngest parsers c = (some r, p)) (ok : r.ok = true) :
    HandedOver c (parsers.kmz c) p r.featuresExtracted := by
  unfold kmzIngest at ended
  cases file : ingestFile kmz c.data c.capture (parsers.kmz c) c.publish with
  | mk i q =>
    rw [file] at ended
    cases i with
    | none => cases ended
    | some i =>
      cases ended
      exact ingestFile_ok file ok

theorem ovlIngest_ok {parsers : Parsers} {c : IngestCall} {r : OvlIngestResult} {p : Publishing}
    (ended : ovlIngest parsers c = (some r, p)) (ok : r.ok = true) :
    HandedOver c (parsers.ovl c) p r.objectsIngested := by
  unfold ovlIngest at ended
  cases file : ingestFile ovl c.data c.capture (parsers.ovl c) c.publish with
  | mk i q =>
    rw [file] at ended
    cases i with
    | none => cases ended
    | some i =>
      cases ended
      exact ingestFile_ok file ok

theorem processFile_processed {disk : Disk} {inboxPath name ts dest : String} {raised : Bool}
    {p : Publishing} {ingest : IngestArguments → Option Verdict × Publishing}
    (ended : processFile disk inboxPath name ts ingest = (.processed dest, raised, p)) :
    ∃ data result, disk.content = some data ∧
      ingest ⟨data, name, .folder, "folder:" ++ inboxPath⟩ = (some result, p) ∧
      result.ok = true := by
  unfold processFile at ended
  split at ended
  · cases ended
  · cases content : disk.content with
    | none =>
      rw [content] at ended
      cases ended
    | some data =>
      simp only [content] at ended
      cases handled : ingest ⟨data, name, .folder, "folder:" ++ inboxPath⟩ with
      | mk result q =>
        rw [handled] at ended
        cases result with
        | none => cases ended
        | some result =>
          simp only at ended
          split at ended
          · cases ended
          · split at ended
            · rename_i ok
              cases ended
              exact ⟨data, result, rfl, handled, ok⟩
            · cases ended

theorem kmzHandler_ok {parsers : Parsers} {c : IngestCall} {v : Verdict} {p : Publishing}
    (ended : kmzHandler parsers c = (some v, p)) (ok : v.ok = true) :
    ∃ count, HandedOver c (parsers.kmz c) p count := by
  unfold kmzHandler at ended
  cases file : kmzIngest parsers c with
  | mk r q =>
    rw [file] at ended
    cases r with
    | none => cases ended
    | some r =>
      cases ended
      exact ⟨_, kmzIngest_ok file ok⟩

theorem ovlHandler_ok {parsers : Parsers} {c : IngestCall} {v : Verdict} {p : Publishing}
    (ended : ovlHandler parsers c = (some v, p)) (ok : v.ok = true) :
    ∃ count, HandedOver c (parsers.ovl c) p count := by
  unfold ovlHandler at ended
  cases file : ovlIngest parsers c with
  | mk r q =>
    rw [file] at ended
    cases r with
    | none => cases ended
    | some r =>
      cases ended
      exact ⟨_, ovlIngest_ok file ok⟩

/-- Success means handed over: for both formats, and for a file the watcher archives. -/
theorem successful_ingest_handed_over (parsers : Parsers) :
    (∀ c r p, kmzIngest parsers c = (some r, p) → r.ok = true →
      HandedOver c (parsers.kmz c) p r.featuresExtracted) ∧
    (∀ c r p, ovlIngest parsers c = (some r, p) → r.ok = true →
      HandedOver c (parsers.ovl c) p r.objectsIngested) ∧
    ∀ disk inboxPath name ts dest raised p (c : IngestCall),
      (processFile disk inboxPath name ts
        (fun args => kmzHandler parsers { c with toIngestArguments := args }) =
          (.processed dest, raised, p) →
        ∃ data count, disk.content = some data ∧
          HandedOver c (parsers.kmz { c with
            toIngestArguments := ⟨data, name, .folder, "folder:" ++ inboxPath⟩ }) p count) ∧
      (processFile disk inboxPath name ts
        (fun args => ovlHandler parsers { c with toIngestArguments := args }) =
          (.processed dest, raised, p) →
        ∃ data count, disk.content = some data ∧
          HandedOver c (parsers.ovl { c with
            toIngestArguments := ⟨data, name, .folder, "folder:" ++ inboxPath⟩ }) p count) := by
  refine ⟨fun c r p => kmzIngest_ok, fun c r p => ovlIngest_ok, ?_⟩
  intro disk inboxPath name ts dest raised p c
  constructor
  · intro ended
    obtain ⟨data, verdict, content, handled, ok⟩ := processFile_processed ended
    obtain ⟨count, told⟩ := kmzHandler_ok handled ok
    exact ⟨data, count, content, told.parsed, told.counted, told.published⟩
  · intro ended
    obtain ⟨data, verdict, content, handled, ok⟩ := processFile_processed ended
    obtain ⟨count, told⟩ := ovlHandler_ok handled ok
    exact ⟨data, count, content, told.parsed, told.counted, told.published⟩

def originPoint (rawPointer : RawPointer) : CTO :=
  { uid := 0
    sourceSystem := "folder:/inbox"
    sourceProtocol := .kmz
    receivedAt := newYear
    eventTime := newYear
    geometry := ⟨.point, [.num 0, .num 0], by simp [validateCoordinates, isNumber]⟩
    rawPointer := some rawPointer }

def onePoint : Parsers :=
  { cotXmlToCto := fun _ _ _ _ rawPointer => .ctos [originPoint rawPointer]
    cotPbToCto := fun _ _ _ _ rawPointer => .ctos [originPoint rawPointer]
    kmzToCtos := fun _ _ _ _ _ rawPointer _ => .ctos [originPoint rawPointer]
    ovlToCtos := fun _ _ _ _ _ rawPointer _ => .ctos [originPoint rawPointer] }

def onePointPointer : RawPointer :=
  ⟨genesisPrevHash, "raw/2024/01/01/kmz/00/" ++ genesisPrevHash, 4, newYear, genesisPrevHash_length⟩

def onePointCall (publish : Nat → Bool) : IngestCall :=
  { data := [0x50, 0x4B, 0x03, 0x04]
    filename := "a.kmz"
    ingestSource := .folder
    sourceLabel := "folder:/inbox"
    receivedAt := newYear
    draw := 0
    capture := .ok onePointPointer
    publish := publish }

theorem successful_ingest_handed_over_onePoint :
    ∃ r p, kmzIngest onePoint (onePointCall fun _ => true) = (some r, p) ∧ r.ok = true ∧
      HandedOver (onePointCall fun _ => true) (onePoint.kmz (onePointCall fun _ => true)) p
        r.featuresExtracted :=
  ⟨_, _, rfl, rfl, (successful_ingest_handed_over onePoint).1 _ _ _ rfl rfl⟩

/-- The bus refuses the only object; success and one feature are reported all the same, and
the watcher archives the file. -/
theorem unpublished_ingest_reports_ok :
    ∃ r p, kmzIngest onePoint (onePointCall fun _ => false) = (some r, p) ∧ r.ok = true ∧
      r.featuresExtracted = 1 ∧ p.published = [] ∧
      processFile ⟨true, some [0x50, 0x4B, 0x03, 0x04], true, true⟩ "/inbox" "a.kmz"
        "20240101T000000"
        (fun args => kmzHandler onePoint
          { onePointCall (fun _ => false) with toIngestArguments := args }) =
        (.processed "20240101T000000_a.kmz", false, p) :=
  ⟨_, _, rfl, rfl, rfl, rfl, rfl⟩

end TacticalGateway.Gateway
