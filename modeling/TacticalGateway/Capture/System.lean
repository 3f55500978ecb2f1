import TacticalGateway.Capture.Writer
import TacticalGateway.Lib.Execution

/-! The process around the writer: callers that wait for the lock, the call that holds it, the
bucket, storage requests that take effect or fail, and a crash at any of the awaits. -/
namespace TacticalGateway.Capture
open Text

structure Call where
  id : Nat
  request : Request
  deriving DecidableEq

/-- The call under the lock. A put is `written` once it has taken effect on the bucket. -/
structure Holder where
  call : Call
  position : Position
  written : Bool

structure Logged where
  call : Call
  entry : ChainEntry

structure Return extends Logged where
  pointer : RawPointer

/-- The last four fields are history: the code never reads them. -/
structure System where
  bucket : String → Option Bytes
  writer : CaptureWriter
  waiting : List Call
  holder : Option Holder
  calls : Nat
  granted : List Call
  returned : List Return
  crashes : List (Option Logged)

inductive Event where
  | call (r : Request)
  | grant (id : Nat)
  | effect
  | resume
  | fail
  | crash
  deriving DecidableEq

def System.on (bucket : String → Option Bytes) : System :=
  { bucket := bucket, writer := .new, waiting := [], holder := none, calls := 0, granted := [],
    returned := [], crashes := [] }

def System.init : System := .on (fun _ => none)

def Holder.put (h : Holder) : Option (String × Bytes) :=
  match h.position with
  | .reading => none
  | .writingObject entry => some (entry.objectKey, h.call.request.rawBytes)
  | .writingManifest _ body => some (manifestKeyFor h.call.request.capturedAt, body)

def System.answer (s : System) (h : Holder) : Option Reply :=
  match h.position with
  | .reading => some (.got (s.bucket (manifestKeyFor h.call.request.capturedAt)))
  | .writingObject _ | .writingManifest _ _ => if h.written then some .stored else none

/-- The lock is kept by a suspended call and released by one that has ended. -/
def System.settle (s : System) (call : Call) : Outcome → System
  | .suspended w position => { s with writer := w, holder := some ⟨call, position, false⟩ }
  | .returned w pointer entry =>
    { s with writer := w, holder := none, returned := s.returned ++ [⟨⟨call, entry⟩, pointer⟩] }
  | .raised w => { s with writer := w, holder := none }

def Holder.left (h : Holder) : Option Logged :=
  match h.position, h.written with
  | .writingManifest entry _, true => some ⟨h.call, entry⟩
  | _, _ => none

def step (codec : Codec) (s : System) : Event → Option System
  | .call r => some { s with waiting := s.waiting ++ [⟨s.calls, r⟩], calls := s.calls + 1 }
  | .grant id =>
    match s.holder, s.waiting.find? (fun c => c.id = id) with
    | none, some call =>
      some (({ s with waiting := s.waiting.erase call, granted := s.granted ++ [call] }).settle call
        (start s.writer call.request))
    | _, _ => none
  | .effect =>
    match s.holder with
    | none => none
    | some h =>
      match h.put, h.written with
      | some (key, data), false =>
        some { s with
          bucket := Function.update s.bucket key (some data)
          holder := some { h with written := true } }
      | _, _ => none
  | .resume =>
    match s.holder with
    | none => none
    | some h =>
      match s.answer h with
      | none => none
      | some reply => (resume codec h.call.request s.writer h.position reply).map (s.settle h.call)
  | .fail =>
    match s.holder with
    | none => none
    | some h => (resume codec h.call.request s.writer h.position .failed).map (s.settle h.call)
  | .crash =>
    some { s with
      writer := .new
      waiting := []
      holder := none
      crashes := s.crashes ++ [s.holder.bind Holder.left] }

/-- What the writer is for: a log for each day, one of them open in memory with the entries
that its next put will store. -/
structure Journal where
  stored : Date → List Logged
  day : Option Date
  memory : List Logged

namespace Journal

def empty : Journal := ⟨fun _ => [], none, []⟩

def openDay (j : Journal) (d : Date) : Journal := { j with day := some d, memory := j.stored d }

def append (j : Journal) (l : Logged) : Journal := { j with memory := j.memory ++ [l] }

def commit (j : Journal) (d : Date) : Journal :=
  { j with stored := Function.update j.stored d j.memory }

def close (j : Journal) : Journal := { j with day := none, memory := [] }

@[simp] theorem openDay_stored (j : Journal) (d : Date) : (j.openDay d).stored = j.stored := rfl
@[simp] theorem openDay_day (j : Journal) (d : Date) : (j.openDay d).day = some d := rfl
@[simp] theorem openDay_memory (j : Journal) (d : Date) : (j.openDay d).memory = j.stored d := rfl
@[simp] theorem append_stored (j : Journal) (l : Logged) : (j.append l).stored = j.stored := rfl
@[simp] theorem append_day (j : Journal) (l : Logged) : (j.append l).day = j.day := rfl
@[simp] theorem append_memory (j : Journal) (l : Logged) :
    (j.append l).memory = j.memory ++ [l] := rfl
@[simp] theorem commit_day (j : Journal) (d : Date) : (j.commit d).day = j.day := rfl
@[simp] theorem commit_memory (j : Journal) (d : Date) : (j.commit d).memory = j.memory := rfl
@[simp] theorem close_stored (j : Journal) : j.close.stored = j.stored := rfl
@[simp] theorem close_day (j : Journal) : j.close.day = none := rfl

theorem commit_stored (j : Journal) (d d' : Date) :
    (j.commit d).stored d' = if d' = d then j.memory else j.stored d' := by
  simp [commit, Function.update_apply]

end Journal

/-- Everything a step of the process can do, with what it does to the journal. -/
inductive Step (codec : Codec) (s : System) (j : Journal) : Event → System → Journal → Prop where
  | call (r : Request) :
    Step codec s j (.call r)
      { s with waiting := s.waiting ++ [⟨s.calls, r⟩], calls := s.calls + 1 } j
  | grantOpen (call : Call) (free : s.holder = none) (member : call ∈ s.waiting)
      (same : s.writer.chainDay = some (dayKey call.request.date)) :
    Step codec s j (.grant call.id)
      { s with
        waiting := s.waiting.erase call
        granted := s.granted ++ [call]
        holder := some ⟨call, .writingObject (s.writer.entryFor call.request), false⟩ } j
  | grantRoll (call : Call) (free : s.holder = none) (member : call ∈ s.waiting)
      (other : s.writer.chainDay ≠ some (dayKey call.request.date)) :
    Step codec s j (.grant call.id)
      { s with
        waiting := s.waiting.erase call
        granted := s.granted ++ [call]
        holder := some ⟨call, .reading, false⟩ } j
  | loaded (call : Call) (written : Bool) (w : CaptureWriter)
      (held : s.holder = some ⟨call, .reading, written⟩)
      (roll : rollChain codec s.writer (dayKey call.request.date)
        (s.bucket (manifestKey call.request.date)) = (w, true)) :
    Step codec s j .resume
      { s with
        writer := w
        holder := some ⟨call, .writingObject (w.entryFor call.request), false⟩ }
      (j.openDay call.request.date)
  | unloaded (call : Call) (written : Bool) (w : CaptureWriter)
      (held : s.holder = some ⟨call, .reading, written⟩)
      (roll : rollChain codec s.writer (dayKey call.request.date)
        (s.bucket (manifestKey call.request.date)) = (w, false)) :
    Step codec s j .resume { s with writer := w, holder := none } j
  | putObject (call : Call) (entry : ChainEntry)
      (held : s.holder = some ⟨call, .writingObject entry, false⟩) :
    Step codec s j .effect
      { s with
        bucket := Function.update s.bucket entry.objectKey (some call.request.rawBytes)
        holder := some ⟨call, .writingObject entry, true⟩ } j
  | appended (call : Call) (entry : ChainEntry)
      (held : s.holder = some ⟨call, .writingObject entry, true⟩) :
    Step codec s j .resume
      { s with
        writer := { s.writer with
          chainManifestLines := s.writer.chainManifestLines ++ [entry.toJsonl] }
        holder := some ⟨call, .writingManifest entry
          (encode (unlines (s.writer.chainManifestLines ++ [entry.toJsonl]))), false⟩ }
      (j.append ⟨call, entry⟩)
  | putManifest (call : Call) (entry : ChainEntry) (body : Bytes)
      (held : s.holder = some ⟨call, .writingManifest entry body, false⟩) :
    Step codec s j .effect
      { s with
        bucket := Function.update s.bucket (manifestKey call.request.date) (some body)
        holder := some ⟨call, .writingManifest entry body, true⟩ }
      (j.commit call.request.date)
  | finished (call : Call) (entry : ChainEntry) (body : Bytes) (pointer : RawPointer)
      (held : s.holder = some ⟨call, .writingManifest entry body, true⟩)
      (built : pointer.sha256 = entry.sha256 ∧ pointer.objectKey = entry.objectKey ∧
        pointer.sizeBytes = entry.sizeBytes ∧ pointer.capturedAt = call.request.capturedAt) :
    Step codec s j .resume
      { s with
        writer := { s.writer with chainTip := entry.entryHash }
        holder := none
        returned := s.returned ++ [⟨⟨call, entry⟩, pointer⟩] } j
  | refused (call : Call) (entry : ChainEntry) (body : Bytes)
      (held : s.holder = some ⟨call, .writingManifest entry body, true⟩)
      (length : entry.sha256.toList.length ≠ 64) :
    Step codec s j .resume
      { s with writer := { s.writer with chainTip := entry.entryHash }, holder := none } j
  | failed (h : Holder) (held : s.holder = some h) :
    Step codec s j .fail { s with holder := none } j
  | crash :
    Step codec s j .crash
      { s with
        writer := .new
        waiting := []
        holder := none
        crashes := s.crashes ++ [s.holder.bind Holder.left] } j.close

theorem step_grant {codec : Codec} {s u : System} {id : Nat} (h : step codec s (.grant id) = some u)
    (j : Journal) : Step codec s j (.grant id) u j := by
  simp only [step] at h
  split at h
  · rename_i call free found
    have member := List.mem_of_find?_eq_some found
    obtain rfl : call.id = id := by simpa using List.find?_some found
    unfold start at h
    split at h
    · rename_i same
      cases h
      exact .grantOpen call free member same
    · rename_i other
      cases h
      exact .grantRoll call free member other
  · cases h

theorem step_effect {codec : Codec} {s u : System} (h : step codec s .effect = some u)
    (j : Journal) : ∃ j', Step codec s j .effect u j' := by
  cases held : s.holder with
  | none => simp [step, held] at h
  | some holder =>
    obtain ⟨call, position, written⟩ := holder
    simp only [step, held] at h
    cases position with
    | reading => cases h
    | writingObject entry =>
      cases written with
      | true => cases h
      | false =>
        cases h
        exact ⟨_, .putObject call entry held⟩
    | writingManifest entry body =>
      cases written with
      | true => cases h
      | false =>
        cases h
        exact ⟨_, .putManifest call entry body held⟩

theorem step_resume {codec : Codec} {s u : System} (h : step codec s .resume = some u)
    (j : Journal) : ∃ j', Step codec s j .resume u j' := by
  cases held : s.holder with
  | none => simp [step, held] at h
  | some holder =>
    obtain ⟨call, position, written⟩ := holder
    simp only [step, held] at h
    cases position with
    | reading =>
      simp only [System.answer, resume, afterRead] at h
      cases roll : rollChain codec s.writer (dayKey call.request.date)
          (s.bucket (manifestKeyFor call.request.capturedAt)) with
      | mk w loaded =>
        rw [roll] at h
        cases loaded with
        | true =>
          cases h
          exact ⟨_, .loaded call written w held roll⟩
        | false =>
          cases h
          exact ⟨_, .unloaded call written w held roll⟩
    | writingObject entry =>
      cases written with
      | false => cases h
      | true =>
        cases h
        exact ⟨_, .appended call entry held⟩
    | writingManifest entry body =>
      cases written with
      | false => cases h
      | true =>
        simp only [System.answer, if_true, resume, afterManifest] at h
        split at h
        · cases h
          exact ⟨_, .finished call entry body _ held ⟨rfl, rfl, rfl, rfl⟩⟩
        · rename_i length
          cases h
          exact ⟨_, .refused call entry body held length⟩

theorem step_fail {codec : Codec} {s u : System} (h : step codec s .fail = some u)
    (j : Journal) : Step codec s j .fail u j := by
  cases held : s.holder with
  | none => simp [step, held] at h
  | some holder =>
    have raised : resume codec holder.call.request s.writer holder.position .failed =
        some (.raised s.writer) := by
      cases holder.position <;> rfl
    simp only [step, held, raised] at h
    cases h
    exact .failed holder held

/-- The inversion every invariant is derived from. -/
theorem step_cases {codec : Codec} {s u : System} {e : Event} (h : step codec s e = some u)
    (j : Journal) : ∃ j', Step codec s j e u j' := by
  cases e with
  | call r =>
    cases h
    exact ⟨_, .call r⟩
  | grant id => exact ⟨_, step_grant h j⟩
  | effect => exact step_effect h j
  | resume => exact step_resume h j
  | fail => exact ⟨_, step_fail h j⟩
  | crash =>
    cases h
    exact ⟨_, .crash⟩

end TacticalGateway.Capture
