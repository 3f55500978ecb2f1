import TacticalGateway.Lib.Json
import TacticalGateway.Schema.HashChain

/-! The manifest text: one JSON object a line, each line an entry of the chain. The
standard-library readers enter as a parameter with the two laws that the format relies on. -/
namespace TacticalGateway
open Text

/-- The dict that `to_jsonl` dumps and `from_jsonl` looks its keys up in. -/
structure EntryFields where
  sha256 : String
  prevHash : String
  entryHash : String
  capturedAt : String
  objectKey : String
  sizeBytes : Nat
  protocol : String
  deriving DecidableEq

/-- `json.dumps(fields, separators=(",", ":"))`, keys in the order of the dict literal. -/
def jsonDumps (d : EntryFields) : String :=
  "\x7b\"sha256\":\"" ++ Json.quoted d.sha256 ++ ",\"prev_hash\":\"" ++ Json.quoted d.prevHash ++
    ",\"entry_hash\":\"" ++ Json.quoted d.entryHash ++
    ",\"captured_at\":\"" ++ Json.quoted d.capturedAt ++
    ",\"object_key\":\"" ++ Json.quoted d.objectKey ++
    ",\"size_bytes\":" ++ decimal d.sizeBytes ++
    ",\"protocol\":\"" ++ Json.quoted d.protocol ++ "\x7d"

def ChainEntry.fields (e : ChainEntry) : EntryFields :=
  { sha256 := e.sha256
    prevHash := e.prevHash
    entryHash := e.entryHash
    capturedAt := e.capturedAt.isoformat
    objectKey := e.objectKey
    sizeBytes := e.sizeBytes
    protocol := e.protocol }

def ChainEntry.toJsonl (e : ChainEntry) : String := jsonDumps e.fields

/-- `json.loads` with the seven lookups, and `datetime.fromisoformat`; none is any exception
they raise. On what the gateway itself writes they undo the writers. -/
structure Codec where
  loads : String → Option EntryFields
  fromisoformat : String → Option Datetime
  loads_dumps : ∀ d, loads (jsonDumps d) = some d
  fromisoformat_isoformat : ∀ t : Datetime, fromisoformat t.isoformat = some t

def Codec.fromJsonl (codec : Codec) (line : String) : Option ChainEntry :=
  match codec.loads line with
  | none => none
  | some d =>
    match codec.fromisoformat d.capturedAt with
    | none => none
    | some capturedAt => some
        { sha256 := d.sha256
          prevHash := d.prevHash
          entryHash := d.entryHash
          capturedAt := capturedAt
          objectKey := d.objectKey
          sizeBytes := d.sizeBytes
          protocol := d.protocol }

theorem fromJsonl_toJsonl (codec : Codec) (e : ChainEntry) :
    codec.fromJsonl e.toJsonl = some e := by
  simp [Codec.fromJsonl, ChainEntry.toJsonl, codec.loads_dumps, ChainEntry.fields,
    codec.fromisoformat_isoformat]

theorem printable_isDigit {c : Char} (digit : c.isDigit = true) : Json.printable c = true := by
  simp only [Char.isDigit, Bool.and_eq_true, decide_eq_true_eq] at digit
  have low := UInt32.le_iff_toNat_le.mp digit.1
  have high := UInt32.le_iff_toNat_le.mp digit.2
  simp only [Json.printable, Bool.and_eq_true, decide_eq_true_eq]
  change 48 ≤ c.toNat at low
  change c.toNat ≤ 57 at high
  omega

theorem printable_toJsonl (e : ChainEntry) : ∀ c ∈ e.toJsonl.toList, Json.printable c = true := by
  have number : ∀ c ∈ (decimal e.sizeBytes).toList, Json.printable c = true :=
    fun c hc => printable_isDigit (decimal_isDigit hc)
  unfold ChainEntry.toJsonl jsonDumps
  simp only [String.toList_append, List.forall_mem_append, and_assoc]
  refine ⟨?_, Json.printable_quoted _, ?_, Json.printable_quoted _, ?_, Json.printable_quoted _, ?_,
    Json.printable_quoted _, ?_, Json.printable_quoted _, ?_, number, ?_,
    Json.printable_quoted _, ?_⟩
  all_goals simp [Json.printable]

theorem singleLine_toJsonl (e : ChainEntry) : SingleLine e.toJsonl :=
  Json.singleLine_of_printable (printable_toJsonl e)

def renderManifest (entries : List ChainEntry) : Bytes :=
  encode (unlines (entries.map ChainEntry.toJsonl))

def Codec.fromLines (codec : Codec) : List String → Option (List ChainEntry)
  | [] => some []
  | line :: lines =>
    match codec.fromJsonl line, codec.fromLines lines with
    | some e, some es => some (e :: es)
    | _, _ => none

def Codec.readManifest (codec : Codec) (body : Bytes) : Option (List ChainEntry) :=
  match decode body with
  | none => none
  | some text => codec.fromLines (splitlines text)

theorem fromLines_toJsonl (codec : Codec) (entries : List ChainEntry) :
    codec.fromLines (entries.map ChainEntry.toJsonl) = some entries := by
  induction entries with
  | nil => rfl
  | cons e es ih => simp [Codec.fromLines, fromJsonl_toJsonl, ih]

theorem splitlines_render {entries : List ChainEntry} (nonempty : entries ≠ []) :
    splitlines (unlines (entries.map ChainEntry.toJsonl)) = entries.map ChainEntry.toJsonl := by
  apply splitlines_unlines
  · simpa using nonempty
  · intro line member
    obtain ⟨e, _, rfl⟩ := List.mem_map.mp member
    exact singleLine_toJsonl e

theorem decode_render (entries : List ChainEntry) :
    decode (renderManifest entries) = some (unlines (entries.map ChainEntry.toJsonl)) :=
  decode_encode _

theorem read_render (codec : Codec) {entries : List ChainEntry} (nonempty : entries ≠ []) :
    codec.readManifest (renderManifest entries) = some entries := by
  simp [Codec.readManifest, decode_render, splitlines_render nonempty, fromLines_toJsonl]

end TacticalGateway
