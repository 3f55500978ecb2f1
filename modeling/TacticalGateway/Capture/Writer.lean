import TacticalGateway.Schema.Manifest
import TacticalGateway.Schema.Models

/-! The capture writer. `capture` is cut at its awaits: what runs between two of them is one
function, and a suspended call is the storage request it waits for. -/
namespace TacticalGateway.Capture
open Text

def dayFolder (d : Date) : String :=
  "raw/" ++ zeroPad 4 d.year ++ "/" ++ zeroPad 2 d.month ++ "/" ++ zeroPad 2 d.day ++ "/"

def objectKeyFor (capturedAt : Datetime) (protocol sha256 : String) : String :=
  dayFolder capturedAt.date ++ protocol ++ "/" ++ prefixOf 2 sha256 ++ "/" ++ sha256

def manifestKey (d : Date) : String := dayFolder d ++ "manifest.jsonl"

def manifestKeyFor (capturedAt : Datetime) : String := manifestKey capturedAt.date

def dayKey (d : Date) : String :=
  zeroPad 4 d.year ++ "-" ++ zeroPad 2 d.month ++ "-" ++ zeroPad 2 d.day

structure CaptureWriter where
  chainDay : Option String
  chainTip : String
  chainManifestLines : List String
  deriving DecidableEq

def CaptureWriter.new : CaptureWriter := ⟨none, genesisPrevHash, []⟩

structure Request where
  rawBytes : Bytes
  protocol : String
  capturedAt : Datetime
  deriving DecidableEq

def Request.date (r : Request) : Date := r.capturedAt.date

/-- The storage request that a suspended call waits for. -/
inductive Position where
  | reading
  | writingObject (entry : ChainEntry)
  | writingManifest (entry : ChainEntry) (body : Bytes)
  deriving DecidableEq

/-- How the storage answers: `got none` is NoSuchKey, `failed` any exception. -/
inductive Reply where
  | got (existing : Option Bytes)
  | stored
  | failed
  deriving DecidableEq

/-- Where the call stands, with the writer's fields as they are then. -/
inductive Outcome where
  | suspended (w : CaptureWriter) (position : Position)
  | returned (w : CaptureWriter) (pointer : RawPointer) (entry : ChainEntry)
  | raised (w : CaptureWriter)
  deriving DecidableEq

def CaptureWriter.entryFor (w : CaptureWriter) (r : Request) : ChainEntry :=
  let entry := makeEntry w.chainTip r.rawBytes r.capturedAt "PLACEHOLDER" r.protocol
  { entry with objectKey := objectKeyFor r.capturedAt r.protocol entry.sha256 }

def start (w : CaptureWriter) (r : Request) : Outcome :=
  if w.chainDay = some (dayKey r.date) then .suspended w (.writingObject (w.entryFor r))
  else .suspended w .reading

/-- The rest of `_roll_chain_if_needed` after the read. The flag is false where it raises;
the fields assigned before that stay assigned. -/
def rollChain (codec : Codec) (w : CaptureWriter) (day : String) (existing : Option Bytes) :
    CaptureWriter × Bool :=
  match existing with
  | none => ({ chainDay := some day, chainTip := genesisPrevHash, chainManifestLines := [] }, true)
  | some body =>
    match decode body with
    | none => (w, false)
    | some text =>
      let lines := splitlines text
      match lines.getLast? with
      | none =>
        ({ chainDay := some day, chainTip := genesisPrevHash, chainManifestLines := lines }, true)
      | some last =>
        match codec.fromJsonl last with
        -- the lines are already the new day's, tip and day still the old ones
        | none => ({ w with chainManifestLines := lines }, false)
        | some e =>
          ({ chainDay := some day, chainTip := e.entryHash, chainManifestLines := lines }, true)

def afterRead (codec : Codec) (r : Request) (w : CaptureWriter) (existing : Option Bytes) :
    Outcome :=
  match rollChain codec w (dayKey r.date) existing with
  | (w, true) => .suspended w (.writingObject (w.entryFor r))
  | (w, false) => .raised w

def afterObject (w : CaptureWriter) (entry : ChainEntry) : Outcome :=
  let w := { w with chainManifestLines := w.chainManifestLines ++ [entry.toJsonl] }
  .suspended w (.writingManifest entry (encode (unlines w.chainManifestLines)))

/-- The tip moves and the pointer is built; its model wants a digest of 64 characters. -/
def afterManifest (r : Request) (w : CaptureWriter) (entry : ChainEntry) : Outcome :=
  let w := { w with chainTip := entry.entryHash }
  if h : entry.sha256.toList.length = 64 then
    .returned w ⟨entry.sha256, entry.objectKey, entry.sizeBytes, r.capturedAt, h⟩ entry
  else .raised w

/-- Resume a suspended call with the answer of the storage; none where the answer does not
fit the request. -/
def resume (codec : Codec) (r : Request) (w : CaptureWriter) : Position → Reply → Option Outcome
  | .reading, .got existing => some (afterRead codec r w existing)
  | .writingObject entry, .stored => some (afterObject w entry)
  | .writingManifest entry _, .stored => some (afterManifest r w entry)
  | _, .failed => some (.raised w)
  | _, _ => none

/-- A whole call, alone under the lock, on the answers it gets. -/
def proceed (codec : Codec) (r : Request) : Outcome → List Reply → Option Outcome
  | o, [] => some o
  | .suspended w position, reply :: replies =>
    match resume codec r w position reply with
    | some o => proceed codec r o replies
    | none => none
  | _, _ :: _ => none

def capture (codec : Codec) (w : CaptureWriter) (r : Request) (replies : List Reply) :
    Option Outcome :=
  proceed codec r (start w r) replies

theorem dayFolder_toList (d : Date) (s : String) :
    (dayFolder d ++ s).toList =
      ['r', 'a', 'w', '/'] ++ ((zeroPad 4 d.year).toList ++ '/' :: ((zeroPad 2 d.month).toList ++
        '/' :: ((zeroPad 2 d.day).toList ++ '/' :: s.toList))) := by
  simp [dayFolder, String.toList_append]

theorem slash_not_mem_zeroPad (width n : Nat) : '/' ∉ (zeroPad width n).toList :=
  fun member => absurd (zeroPad_isDigit member) (by decide)

theorem dayFolder_unique {d d' : Date} {s s' : String}
    (same : dayFolder d ++ s = dayFolder d' ++ s') :
    d = d' ∧ s = s' := by
  have chars := congrArg String.toList same
  rw [dayFolder_toList, dayFolder_toList] at chars
  obtain ⟨years, chars⟩ := cut_unique (slash_not_mem_zeroPad _ _) (slash_not_mem_zeroPad _ _)
    (List.append_cancel_left chars)
  obtain ⟨months, chars⟩ := cut_unique (slash_not_mem_zeroPad _ _) (slash_not_mem_zeroPad _ _) chars
  obtain ⟨days, rest⟩ := cut_unique (slash_not_mem_zeroPad _ _) (slash_not_mem_zeroPad _ _) chars
  have year := zeroPad_injective (String.toList_inj.mp years)
  have month := zeroPad_injective (String.toList_inj.mp months)
  have day := zeroPad_injective (String.toList_inj.mp days)
  cases d
  cases d'
  exact ⟨by simp_all, String.toList_inj.mp rest⟩

theorem manifestKey_injective {d d' : Date} (same : manifestKey d = manifestKey d') : d = d' :=
  (dayFolder_unique same).1

theorem dayKey_injective {d d' : Date} (same : dayKey d = dayKey d') : d = d' := by
  have dash (width n : Nat) : '-' ∉ (zeroPad width n).toList :=
    fun member => absurd (zeroPad_isDigit member) (by decide)
  have chars : (zeroPad 4 d.year).toList ++ '-' :: ((zeroPad 2 d.month).toList ++ '-' ::
        (zeroPad 2 d.day).toList) =
      (zeroPad 4 d'.year).toList ++ '-' :: ((zeroPad 2 d'.month).toList ++ '-' ::
        (zeroPad 2 d'.day).toList) := by
    simpa [dayKey, String.toList_append] using congrArg String.toList same
  obtain ⟨years, chars⟩ := cut_unique (dash _ _) (dash _ _) chars
  obtain ⟨months, days⟩ := cut_unique (dash _ _) (dash _ _) chars
  have year := zeroPad_injective (String.toList_inj.mp years)
  have month := zeroPad_injective (String.toList_inj.mp months)
  have day := zeroPad_injective (String.toList_inj.mp days)
  cases d
  cases d'
  simp_all

theorem objectKey_ne_manifestKey (t : Datetime) (protocol : String) (data : Bytes) (d : Date) :
    objectKeyFor t protocol (sha256 data) ≠ manifestKey d := by
  intro same
  have last_digest (folder s : String) (c : Char) (h : s.toList.getLast? = some c) :
      (folder ++ s).toList.getLast? = some c := by
    rw [String.toList_append, List.getLast?_append, h, Option.some_or]
  have letter : (manifestKey d).toList.getLast? = some 'l' := last_digest _ _ _ (by simp)
  have len := sha256_length data
  cases h : (sha256 data).toList.getLast? with
  | none =>
    rw [List.getLast?_eq_none_iff] at h
    rw [h] at len
    cases len
  | some c =>
    have digit := Sha256.hexdigest_digits data c (List.mem_of_getLast? h)
    rw [← same, objectKeyFor, last_digest _ _ c h] at letter
    cases letter
    exact absurd digit (by decide)

theorem append_digest_inj {s s' digest digest' : String} (len : digest.toList.length = 64)
    (len' : digest'.toList.length = 64) (same : s ++ digest = s' ++ digest') :
    s = s' ∧ digest = digest' := by
  have chars := congrArg String.toList same
  rw [String.toList_append, String.toList_append] at chars
  obtain ⟨heads, digests⟩ := List.append_inj' chars (len.trans len'.symm)
  exact ⟨String.toList_inj.mp heads, String.toList_inj.mp digests⟩

theorem append_shard_inj {s s' digest : String} (same : s ++ digest = s' ++ digest) : s = s' := by
  have chars := congrArg String.toList same
  rw [String.toList_append, String.toList_append] at chars
  exact String.toList_inj.mp (List.append_cancel_right chars)

theorem objectKeyFor_injective {t t' : Datetime} {protocol protocol' digest digest' : String}
    (len : digest.toList.length = 64) (len' : digest'.toList.length = 64)
    (same : objectKeyFor t protocol digest = objectKeyFor t' protocol' digest') :
    t.date = t'.date ∧ protocol = protocol' ∧ digest = digest' := by
  obtain ⟨heads, rfl⟩ := append_digest_inj len len' same
  have folders := append_shard_inj (append_shard_inj (append_shard_inj heads))
  obtain ⟨dates, protocols⟩ := dayFolder_unique folders
  exact ⟨dates, protocols, rfl⟩

/-- The entry of a call says what was captured, when, and where it is stored. -/
structure Describes (r : Request) (e : ChainEntry) : Prop where
  sha256 : e.sha256 = sha256 r.rawBytes
  entryHash : e.entryHash = computeEntryHash e.prevHash e.sha256 e.capturedAt
  capturedAt : e.capturedAt = r.capturedAt
  objectKey : e.objectKey = objectKeyFor r.capturedAt r.protocol e.sha256
  sizeBytes : e.sizeBytes = r.rawBytes.length
  protocol : e.protocol = r.protocol

theorem describes_entryFor (w : CaptureWriter) (r : Request) : Describes r (w.entryFor r) :=
  ⟨rfl, rfl, rfl, rfl, rfl, rfl⟩

theorem Describes.length {r : Request} {e : ChainEntry} (h : Describes r e) :
    e.sha256.toList.length = 64 := by
  rw [h.sha256, sha256_length]

/-- What a manifest object holds for a list of entries; no entry, no object. -/
def storedForm (entries : List ChainEntry) : Option Bytes :=
  match entries with
  | [] => none
  | e :: es => some (renderManifest (e :: es))

theorem storedForm_of_ne {entries : List ChainEntry} (nonempty : entries ≠ []) :
    storedForm entries = some (renderManifest entries) := by
  cases entries with
  | nil => exact absurd rfl nonempty
  | cons e es => rfl

theorem rollChain_storedForm (codec : Codec) (w : CaptureWriter) (day : String)
    (entries : List ChainEntry) :
    rollChain codec w day (storedForm entries) =
      (⟨some day, chainTip entries, entries.map ChainEntry.toJsonl⟩, true) := by
  induction entries using List.reverseRecOn with
  | nil => rfl
  | append_singleton es e _ =>
    have nonempty : es ++ [e] ≠ [] := by simp
    have last : ((es ++ [e]).map ChainEntry.toJsonl).getLast? = some e.toJsonl := by simp
    simp only [storedForm_of_ne nonempty, rollChain, decode_render,
      splitlines_render nonempty, last,
      fromJsonl_toJsonl, chainTip_concat]

end TacticalGateway.Capture
