import TacticalGateway.Kmz.Coverage
import TacticalGateway.Kmz.Delivery
import TacticalGateway.Ovl.Contract

/-! The checks that an ingestor makes before the capture, against the parsers behind them: which
files are refused uncaptured that could have been parsed. -/
namespace TacticalGateway.Gateway
open ElementTree (Element ParserExn)
open Normalizers (Etree)
open Text

/-- The white space that XML allows in front of a document. -/
def xmlSpaces : Bytes := [0x20, 0x09, 0x0D, 0x0A]

def byteOrderMarks : List Bytes := [[0xEF, 0xBB, 0xBF], [0xFE, 0xFF], [0xFF, 0xFE]]

/-- The document begins with a byte order mark, in UTF-8 or in UTF-16. -/
def Marked (data : Bytes) : Prop := ∃ mark ∈ byteOrderMarks, mark <+: data

/-- There is a NUL among the first two bytes, as in UTF-16 without a byte order mark. -/
def Wide (data : Bytes) : Prop := 0 ∈ data.take 2

instance (data : Bytes) : Decidable (Marked data) := inferInstanceAs (Decidable (∃ _ ∈ _, _))

instance (data : Bytes) : Decidable (Wide data) := inferInstanceAs (Decidable (_ ∈ _))

/-- How the documents begin that the XML parser accepts: the encoding is told by a byte order
mark or by a NUL, and else only white space can stand in front of the first '<'. -/
def XmlOpening (fromstring : Bytes → Except ParserExn Element) : Prop :=
  ∀ data root, fromstring data = .ok root → Marked data ∨ Wide data ∨
    (data.dropWhile (fun c => c ∈ xmlSpaces)).head? = some 0x3C

/-- Where the archives begin that the zip library opens, behind `lead data` bytes of other data:
each record begins with the letters PK, and the one that ends the archive has 22 bytes. -/
def ZipOpening (zipFile : Bytes → Except String Kmz.Archive) (lead : Bytes → Nat) : Prop :=
  ∀ data archive, zipFile data = .ok archive →
    (data.drop (lead data)).take 2 = [0x50, 0x4B] ∧ lead data + 22 ≤ data.length

/-- The result of a file that is refused before its capture: the refusal, and no hash. -/
def OvlRefused (result : Option OvlIngestResult) : Prop :=
  ∃ r, result = some r ∧ r.ok = false ∧ r.sha256 = none ∧ r.objectKey = none ∧
    r.error = some ovl.refusal

def KmzRefused (result : Option KmzIngestResult) : Prop :=
  ∃ r, result = some r ∧ r.ok = false ∧ r.sha256 = none ∧ r.objectKey = none ∧
    r.error = some kmz.refusal

/-- The result has no hash exactly where the check refuses the data. -/
theorem ingestFile_sha256 {format : Format} {data : Bytes} {capture : Except String RawPointer}
    {parse : RawPointer → Parsed} {publish : Nat → Bool} {i : Ingested}
    (ended : (ingestFile format data capture parse publish).1 = some i) :
    i.sha256 = none ↔ format.refuses data = true := by
  unfold ingestFile at ended
  split at ended
  · rename_i refuses
    cases ended
    simp [refuses]
  · rename_i accepts
    cases capture with
    | error e =>
      cases ended
      simp [accepts]
    | ok rawPointer =>
      cases parsed : parse rawPointer with
      | ctos ctos =>
        simp only [parsed] at ended
        cases ended
        simp [accepts]
      | parseError e =>
        simp only [parsed] at ended
        cases ended
        simp [accepts]
      | raised =>
        simp only [parsed] at ended
        cases ended

theorem ingestFile_refuses {format : Format} {data : Bytes} (refuses : format.refuses data = true)
    (capture : Except String RawPointer) (parse : RawPointer → Parsed) (publish : Nat → Bool) :
    ingestFile format data capture parse publish =
      (some ⟨false, none, none, [], some format.refusal⟩, .none) := by
  unfold ingestFile
  rw [if_pos refuses]

theorem reported_refused_iff {Result : Type} {report : Ingested → Result}
    {IsRefusal : Result → Prop} {format : Format} {data : Bytes}
    {capture : Except String RawPointer} {parse : RawPointer → Parsed} {publish : Nat → Bool}
    (unhashed : ∀ i, IsRefusal (report i) → i.sha256 = none)
    (refusal : IsRefusal (report ⟨false, none, none, [], some format.refusal⟩)) :
    (∃ r, (ingestFile format data capture parse publish).1.map report = some r ∧ IsRefusal r) ↔
      format.refuses data = true := by
  constructor
  · rintro ⟨r, ended, refused⟩
    obtain ⟨i, found, rfl⟩ := Option.map_eq_some_iff.mp ended
    exact (ingestFile_sha256 found).mp (unhashed i refused)
  · intro refuses
    rw [ingestFile_refuses refuses]
    exact ⟨_, rfl, refusal⟩

theorem ovlRefused_iff (parsers : Parsers) (c : IngestCall) :
    OvlRefused (ovlIngest parsers c).1 ↔ ovl.refuses c.data = true :=
  reported_refused_iff (fun _ refused => refused.2.1) ⟨rfl, rfl, rfl, rfl⟩

theorem kmzRefused_iff (parsers : Parsers) (c : IngestCall) :
    KmzRefused (kmzIngest parsers c).1 ↔ kmz.refuses c.data = true :=
  reported_refused_iff (fun _ refused => refused.2.1) ⟨rfl, rfl, rfl, rfl⟩

theorem ovl_refuses_iff (data : Bytes) :
    ovl.refuses data = true ↔
      data.length < 16 ∨ 64 ≤ (blanks data).length ∨ (lstrip data).head? ≠ some 0x3C := by
  have window := head_lstrip_take (b := data) (c := 0x3C) (n := 64)
  simp only [ovl, Bool.or_eq_true, decide_eq_true_eq, bne_iff_ne, ne_eq, window, not_and_or, not_lt]
  exact or_congr_right Or.comm

theorem wide_head {data : Bytes} (wide : Wide data) :
    (lstrip data).head? = some 0x3C ↔ data.head? = some 0x3C := by
  cases data with
  | nil => simp [lstrip]
  | cons a rest =>
    by_cases blank : a ∈ whitespace
    · -- A NUL follows the blank, and is neither white space nor '<'.
      have nonzero : (0 : UInt8) ≠ a := by
        rintro rfl
        revert blank
        decide
      have bracket : a ≠ 0x3C := by
        rintro rfl
        revert blank
        decide
      cases rest with
      | nil => simp [Wide, nonzero] at wide
      | cons b rest =>
        have nul : b = 0 := by simpa [Wide, nonzero, eq_comm] using wide
        subst nul
        have other : (0 : UInt8) ∉ whitespace := by decide
        simp [lstrip, blank, other, bracket]
    · simp [lstrip, blank]

theorem ovl_refuses_opening {data : Bytes}
    (opening : Wide data ∨ (data.dropWhile (fun c => c ∈ xmlSpaces)).head? = some 0x3C) :
    ovl.refuses data = true ↔ data.length < 16 ∨ 64 ≤ (blanks data).length ∨
      (Wide data ∧ data.head? ≠ some 0x3C) := by
  rw [ovl_refuses_iff]
  by_cases wide : Wide data
  · simp only [wide, true_and, ne_eq, wide_head wide]
  · have part : ∀ d ∈ xmlSpaces, d ∈ whitespace := by simp [xmlSpaces, whitespace]
    have bracket := opening.resolve_left wide
    have seen := (lstrip_of_spaces part (by decide) bracket).1
    simp [wide, seen]

theorem parseOvlBytes_root {py : Ovl.Runtime} {et : Etree} {data : Bytes} {model : Ovl.OvlModel}
    (read : Ovl.parseOvlBytes py et data = .ok model) : ∃ root, et.fromstring data = .ok root := by
  cases parsed : et.fromstring data with
  | ok root => exact ⟨root, rfl⟩
  | error e =>
    rw [Ovl.parseOvlBytes, parsed] at read
    cases read

theorem kmzToCtos_opened {py : Kmz.Runtime} {data : Bytes} {intake : Kmz.Intake} {ctos : List CTO}
    (made : Kmz.kmzToCtos py data intake = .ok ctos) :
    ∃ archive, py.zipFile data = .ok archive := by
  obtain ⟨kml, root, read, _, _⟩ := Kmz.kmzToCtos_ok made
  cases opened : py.zipFile data with
  | ok archive => exact ⟨archive, rfl⟩
  | error e =>
    rw [Kmz.readPrimaryKml, opened] at read
    cases read

theorem kmz_refuses_opening {zipFile : Bytes → Except String Kmz.Archive} {lead : Bytes → Nat}
    (zip : ZipOpening zipFile lead) {data : Bytes} {archive : Kmz.Archive}
    (opened : zipFile data = .ok archive) :
    kmz.refuses data = true ↔ 0 < lead data ∧ data.take 2 ≠ [0x50, 0x4B] := by
  obtain ⟨signature, length⟩ := zip data archive opened
  have long : ¬ data.length < 4 := by omega
  simp only [kmz, Bool.or_eq_true, decide_eq_true_eq, bne_iff_ne, ne_eq, long, false_or]
  constructor
  · intro unsigned
    refine ⟨?_, unsigned⟩
    by_contra none_led
    have start : lead data = 0 := by omega
    rw [start] at signature
    exact unsigned signature
  · intro led
    exact led.2

/-- What the checks refuse of the files that can be parsed. -/
theorem prechecks_iff {et : Etree} {py : Kmz.Runtime} {lead : Bytes → Nat}
    (xml : XmlOpening et.fromstring) (zip : ZipOpening py.zipFile lead) (parsers : Parsers) :
    (∀ (c : IngestCall) (model : Ovl.OvlModel),
      Ovl.parseOvlBytes py.toRuntime et c.data = .ok model → ¬ Marked c.data →
        (OvlRefused (ovlIngest (Ovl.installed py.toRuntime et parsers) c).1 ↔
          c.data.length < 16 ∨ 64 ≤ (blanks c.data).length ∨
            (Wide c.data ∧ c.data.head? ≠ some 0x3C))) ∧
    ∀ (c : IngestCall) (intake : Kmz.Intake) (ctos : List CTO),
      Kmz.kmzToCtos py c.data intake = .ok ctos →
        (KmzRefused (kmzIngest (Kmz.installed py parsers) c).1 ↔
          0 < lead c.data ∧ c.data.take 2 ≠ [0x50, 0x4B]) := by
  constructor
  · intro c model read unmarked
    obtain ⟨root, parsed⟩ := parseOvlBytes_root read
    rw [ovlRefused_iff]
    exact ovl_refuses_opening ((xml c.data root parsed).resolve_left unmarked)
  · intro c intake ctos made
    obtain ⟨archive, opened⟩ := kmzToCtos_opened made
    rw [kmzRefused_iff]
    exact kmz_refuses_opening zip opened

/-- `<MODEL/>`. -/
def emptyOverlay : Bytes := [0x3C, 0x4D, 0x4F, 0x44, 0x45, 0x4C, 0x2F, 0x3E]

/-- The same with line feeds behind it, just long enough. -/
def paddedOverlay : Bytes := emptyOverlay ++ List.replicate 8 0x0A

/-- The empty overlay as it is, far behind blanks, in UTF-16, and with a byte order mark. -/
def otherOverlays : List Bytes :=
  [emptyOverlay, List.replicate 64 0x20 ++ emptyOverlay, emptyOverlay.flatMap (fun c => [0, c]),
    [0xEF, 0xBB, 0xBF] ++ paddedOverlay]

def overlayParser : Etree where
  fromstring := fun data =>
    if data ∈ paddedOverlay :: otherOverlays then .ok (.mk "MODEL" .empty none [])
    else .error (.parseError "not well-formed (invalid token)")
  tostring := Normalizers.writeElement

theorem overlayParser_opening : XmlOpening overlayParser.fromstring := by
  have all : ∀ data ∈ paddedOverlay :: otherOverlays, Marked data ∨ Wide data ∨
      (data.dropWhile (fun c => c ∈ xmlSpaces)).head? = some 0x3C := by decide +kernel
  intro data root parsed
  simp only [overlayParser] at parsed
  split at parsed
  · rename_i known
    exact all data known
  · cases parsed

theorem overlay_read {data : Bytes} (known : data ∈ paddedOverlay :: otherOverlays) :
    Ovl.parseOvlBytes Ovl.plainRuntime overlayParser data = .ok {} := by
  rw [Ovl.parseOvlBytes, overlayParser]
  simp only [if_pos known]
  rfl

def ledKmz : Bytes := 0x0A :: Kmz.multiKmz

def ledRuntime : Kmz.Runtime where
  toRuntime := Ovl.plainRuntime
  tables := Kmz.multiRuntime.tables
  env := none
  zipFile := fun bytes =>
    if bytes = Kmz.multiKmz ∨ bytes = ledKmz then .ok (Kmz.archiveOf Kmz.multiKml)
    else .error "File is not a zip file"
  fromstring := Kmz.multiRuntime.fromstring

def ledBy (bytes : Bytes) : Nat := if bytes = ledKmz then 1 else 0

theorem length_multiKmz : 22 ≤ Kmz.multiKmz.length := by
  simp only [Kmz.multiKmz, List.length_append, List.length_cons]
  omega

theorem ledRuntime_opening : ZipOpening ledRuntime.zipFile ledBy := by
  intro data archive opened
  have length := length_multiKmz
  simp only [ledRuntime] at opened
  split at opened
  · rename_i known
    rcases known with rfl | rfl
    · have unled : ledBy Kmz.multiKmz = 0 := if_neg (fun same => List.cons_ne_self _ _ same.symm)
      rw [unled]
      exact ⟨rfl, by omega⟩
    · have led : ledBy ledKmz = 1 := if_pos rfl
      rw [led]
      refine ⟨rfl, ?_⟩
      rw [ledKmz, List.length_cons]
      omega
  · cases opened

theorem led_made {data : Bytes} (known : data = Kmz.multiKmz ∨ data = ledKmz) :
    Kmz.kmzToCtos ledRuntime data Kmz.inboxIntake = .ok [] := by
  have read : Kmz.readPrimaryKml ledRuntime data =
      .ok (encode (Normalizers.writeElement Kmz.multiKml)) := by
    unfold Kmz.readPrimaryKml ledRuntime
    simp only [if_pos known]
    rfl
  have parser : ledRuntime.fromstring =
      (Kmz.knows Kmz.multiKmz Kmz.multiKml).fromstring := rfl
  unfold Kmz.kmzToCtos
  rw [read, parser]
  simp only [bind, Except.bind, Kmz.knows_parsed]
  rfl

def inboxCall (data : Bytes) : IngestCall := { onePointCall (fun _ => true) with data := data }

theorem prechecks_iff_padded :
    ¬ OvlRefused
        (ovlIngest (Ovl.installed ledRuntime.toRuntime overlayParser onePoint)
          (inboxCall paddedOverlay)).1 ∧
      ¬ KmzRefused (kmzIngest (Kmz.installed ledRuntime onePoint) (inboxCall Kmz.multiKmz)).1 := by
  obtain ⟨overlays, archives⟩ := prechecks_iff overlayParser_opening ledRuntime_opening onePoint
  constructor
  · rw [overlays (inboxCall paddedOverlay) {} (overlay_read List.mem_cons_self) (by decide)]
    decide
  · rw [archives (inboxCall Kmz.multiKmz) Kmz.inboxIntake [] (led_made (.inl rfl))]
    exact fun refused => refused.2 rfl

/-- All of these are parsed without an error, and refused by the ingestors. -/
theorem prechecks_refuse_parsed :
    (∀ data ∈ otherOverlays,
      Ovl.parseOvlBytes ledRuntime.toRuntime overlayParser data = .ok {} ∧
        OvlRefused (ovlIngest (Ovl.installed ledRuntime.toRuntime overlayParser onePoint)
          (inboxCall data)).1) ∧
      Kmz.kmzToCtos ledRuntime ledKmz Kmz.inboxIntake = .ok [] ∧
      KmzRefused (kmzIngest (Kmz.installed ledRuntime onePoint) (inboxCall ledKmz)).1 := by
  have refused : ∀ data ∈ otherOverlays, ovl.refuses data = true := by decide +kernel
  refine ⟨?_, led_made (.inr rfl), ?_⟩
  · intro data among
    refine ⟨overlay_read (List.mem_cons_of_mem _ among), ?_⟩
    rw [ovlRefused_iff]
    exact refused data among
  · have unsigned : ledKmz.take 2 = [0x0A, 0x50] := rfl
    rw [kmzRefused_iff]
    simp only [kmz, inboxCall, unsigned]
    simp

end TacticalGateway.Gateway
