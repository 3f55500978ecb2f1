import TacticalGateway.Capture.System

/-! What the bucket and the writer's fields have to do with the journal, in every run: with
failing requests, crashes and days in any order. -/
namespace TacticalGateway.Capture
open Text

def entries (log : List Logged) : List ChainEntry := log.map Logged.entry

@[simp] theorem entries_nil : entries [] = [] := rfl

@[simp] theorem entries_append (log log' : List Logged) :
    entries (log ++ log') = entries log ++ entries log' := List.map_append

@[simp] theorem entries_singleton (l : Logged) : entries [l] = [l.entry] := rfl

structure Logged.On (l : Logged) (d : Date) : Prop where
  describes : Describes l.call.request l.entry
  date : l.call.request.date = d

def Undecodable (object : Option Bytes) : Prop :=
  ∃ body, object = some body ∧ decode body = none

/-- A bucket to start on: a manifest is the text of an accepted chain, or no text at all. -/
structure Found (bucket : String → Option Bytes) (base : Date → List ChainEntry) : Prop where
  manifest : ∀ d, bucket (manifestKey d) = storedForm (base d) ∨
    Undecodable (bucket (manifestKey d))
  accepted : ∀ d, ChainAccepted (base d)

theorem found_empty : Found (fun _ => none) (fun _ => []) :=
  ⟨fun _ => .inl rfl, fun _ => trivial⟩

section
variable (start : String → Option Bytes) (base : Date → List ChainEntry)

def Journal.chain (j : Journal) (d : Date) : List ChainEntry := base d ++ entries (j.stored d)

/-- The open day in memory: what is stored of it, and possibly more. -/
structure Open (s : System) (j : Journal) (d : Date) : Prop where
  lines : s.writer.chainManifestLines = (base d ++ entries j.memory).map ChainEntry.toJsonl
  extends_stored : j.stored d <+: j.memory
  logged : ∀ l ∈ j.memory, l.On d

/-- What is known of the call under the lock, at each of its awaits. -/
def Sound (j : Journal) (h : Holder) : Prop :=
  match h.position with
  | .reading => True
  | .writingObject entry =>
    Describes h.call.request entry ∧ j.day = some h.call.request.date
  | .writingManifest entry body =>
    Describes h.call.request entry ∧ j.day = some h.call.request.date ∧
      body = renderManifest (base h.call.request.date ++ entries j.memory) ∧
      ⟨h.call, entry⟩ ∈ j.memory ∧
      (h.written = true → j.stored h.call.request.date = j.memory)

structure Files (s : System) (j : Journal) : Prop where
  manifest : ∀ d, s.bucket (manifestKey d) = storedForm (j.chain base d) ∨
    (Undecodable (s.bucket (manifestKey d)) ∧ s.bucket (manifestKey d) = start (manifestKey d) ∧
      j.stored d = [] ∧ j.day ≠ some d)
  stored : ∀ d, ∀ l ∈ j.stored d, l.On d
  day : s.writer.chainDay = j.day.map dayKey
  opened : ∀ d, j.day = some d → Open base s j d
  holder : ∀ h, s.holder = some h → Sound base j h

end

variable {start : String → Option Bytes} {base : Date → List ChainEntry}

theorem files_start (found : Found start base) : Files start base (.on start) .empty where
  manifest d := by
    rcases found.manifest d with text | broken
    · exact .inl (by simpa [Journal.chain, Journal.empty, System.on] using text)
    · exact .inr ⟨broken, rfl, rfl, by simp [Journal.empty]⟩
  stored d l member := by cases member
  day := rfl
  opened d same := by cases same
  holder h held := by cases held

theorem rollChain_undecodable {codec : Codec} {w : CaptureWriter} {day : String}
    {object : Option Bytes} (broken : Undecodable object) :
    rollChain codec w day object = (w, false) := by
  obtain ⟨body, rfl, no_text⟩ := broken
  simp [rollChain, no_text]

section
variable {codec : Codec} {s u : System} {j j' : Journal}

theorem Files.loaded (inv : Files start base s j) {d : Date} {w : CaptureWriter}
    (roll : rollChain codec s.writer (dayKey d) (s.bucket (manifestKey d)) = (w, true)) :
    s.bucket (manifestKey d) = storedForm (j.chain base d) ∧
      w =
        ⟨some (dayKey d), chainTip (j.chain base d), (j.chain base d).map ChainEntry.toJsonl⟩ := by
  rcases inv.manifest d with text | ⟨broken, _⟩
  · rw [text, rollChain_storedForm] at roll
    exact ⟨text, ((Prod.mk.inj roll).1).symm⟩
  · rw [rollChain_undecodable broken] at roll
    cases roll

theorem Files.unloaded (inv : Files start base s j) {d : Date} {w : CaptureWriter}
    (roll : rollChain codec s.writer (dayKey d) (s.bucket (manifestKey d)) = (w, false)) :
    w = s.writer := by
  rcases inv.manifest d with text | ⟨broken, _⟩
  · rw [text, rollChain_storedForm] at roll
    cases roll
  · rw [rollChain_undecodable broken] at roll
    exact (Prod.mk.inj roll).1.symm

theorem Files.sameDay (inv : Files start base s j) {d : Date}
    (same : s.writer.chainDay = some (dayKey d)) : j.day = some d := by
  rw [inv.day, Option.map_eq_some_iff] at same
  obtain ⟨d', opened, keys⟩ := same
  rw [opened, dayKey_injective keys]

theorem Files.hold (inv : Files start base s j) (bucket : u.bucket = s.bucket)
    (chainDay : u.writer.chainDay = s.writer.chainDay)
    (lines : u.writer.chainManifestLines = s.writer.chainManifestLines)
    (holder : ∀ h, u.holder = some h → Sound base j h) : Files start base u j where
  manifest := by
    rw [bucket]
    exact inv.manifest
  stored := inv.stored
  day := chainDay.trans inv.day
  opened d same := ⟨lines.trans (inv.opened d same).lines, (inv.opened d same).extends_stored,
    (inv.opened d same).logged⟩
  holder := holder

theorem Files.openDay (inv : Files start base s j) {call : Call} {w : CaptureWriter}
    (roll : rollChain codec s.writer (dayKey call.request.date)
      (s.bucket (manifestKey call.request.date)) = (w, true)) :
    Files start base
      { s with
        writer := w
        holder := some ⟨call, .writingObject (w.entryFor call.request), false⟩ }
      (j.openDay call.request.date) := by
  obtain ⟨text, rfl⟩ := inv.loaded roll
  constructor
  case manifest =>
    intro d
    rcases inv.manifest d with same | ⟨broken, untouched, no_entry, _⟩
    · exact .inl same
    · refine .inr ⟨broken, untouched, no_entry, ?_⟩
      intro same
      cases same
      rw [text] at roll
      obtain ⟨body, found, no_text⟩ := broken
      rw [text] at found
      cases chain : j.chain base call.request.date with
      | nil =>
        rw [chain] at found
        cases found
      | cons e es =>
        rw [chain] at found
        cases found
        rw [decode_render] at no_text
        cases no_text
  case stored => exact inv.stored
  case day => rfl
  case opened =>
    intro d same
    cases same
    exact ⟨rfl, List.prefix_rfl, inv.stored _⟩
  case holder =>
    intro h held
    cases held
    exact ⟨describes_entryFor _ _, rfl⟩

theorem Files.putObject (inv : Files start base s j) {call : Call} {entry : ChainEntry}
    (held : s.holder = some ⟨call, .writingObject entry, false⟩) :
    Files start base
      { s with
        bucket := Function.update s.bucket entry.objectKey (some call.request.rawBytes)
        holder := some ⟨call, .writingObject entry, true⟩ } j := by
  obtain ⟨describes, today⟩ := inv.holder _ held
  have untouched (d : Date) : Function.update s.bucket entry.objectKey
      (some call.request.rawBytes) (manifestKey d) = s.bucket (manifestKey d) := by
    rw [Function.update_of_ne]
    rw [describes.objectKey, describes.sha256]
    exact (objectKey_ne_manifestKey _ _ _ _).symm
  constructor
  case manifest =>
    intro d
    simp only [untouched]
    exact inv.manifest d
  case stored => exact inv.stored
  case day => exact inv.day
  case opened => exact fun d same => ⟨(inv.opened d same).lines, (inv.opened d same).extends_stored,
    (inv.opened d same).logged⟩
  case holder =>
    intro h held
    cases held
    exact ⟨describes, today⟩

theorem Files.append (inv : Files start base s j) {call : Call} {entry : ChainEntry}
    (held : s.holder = some ⟨call, .writingObject entry, true⟩) :
    Files start base
      { s with
        writer := { s.writer with
          chainManifestLines := s.writer.chainManifestLines ++ [entry.toJsonl] }
        holder := some ⟨call, .writingManifest entry
          (encode (unlines (s.writer.chainManifestLines ++ [entry.toJsonl]))), false⟩ }
      (j.append ⟨call, entry⟩) := by
  obtain ⟨describes, today⟩ := inv.holder _ held
  have lines : s.writer.chainManifestLines ++ [entry.toJsonl] =
      (base call.request.date ++ entries (j.memory ++ [⟨call, entry⟩])).map ChainEntry.toJsonl := by
    rw [(inv.opened _ today).lines]
    simp
  constructor
  case manifest => exact inv.manifest
  case stored => exact inv.stored
  case day => exact inv.day
  case opened =>
    intro d same
    cases today.symm.trans same
    refine ⟨lines, (inv.opened _ today).extends_stored.trans (List.prefix_append _ _), ?_⟩
    intro l member
    rcases List.mem_append.mp member with before | last
    · exact (inv.opened _ today).logged l before
    · cases List.mem_singleton.mp last
      exact ⟨describes, rfl⟩
  case holder =>
    intro h held
    cases held
    refine ⟨describes, today, ?_, List.mem_append_right _ (List.mem_singleton.mpr rfl), nofun⟩
    rw [lines]
    rfl

theorem Files.putManifest (inv : Files start base s j) {call : Call} {entry : ChainEntry}
    {body : Bytes} (held : s.holder = some ⟨call, .writingManifest entry body, false⟩) :
    Files start base
      { s with
        bucket := Function.update s.bucket (manifestKey call.request.date) (some body)
        holder := some ⟨call, .writingManifest entry body, true⟩ }
      (j.commit call.request.date) := by
  obtain ⟨describes, today, text, member, _⟩ := inv.holder _ held
  have own : (j.commit call.request.date).stored call.request.date = j.memory := by
    simp [Journal.commit_stored]
  have other {d : Date} (different : d ≠ call.request.date) :
      (j.commit call.request.date).stored d = j.stored d := by
    simp [Journal.commit_stored, different]
  constructor
  case manifest =>
    intro d
    by_cases same : d = call.request.date
    · subst same
      refine .inl ?_
      have nonempty : base call.request.date ++ entries j.memory ≠ [] := by
        simp [entries, List.ne_nil_of_mem member]
      rw [Journal.chain, own, storedForm_of_ne nonempty, ← text]
      dsimp only
      rw [Function.update_self]
    · have key : manifestKey d ≠ manifestKey call.request.date :=
        fun keys => same (manifestKey_injective keys)
      have kept : Function.update s.bucket (manifestKey call.request.date) (some body)
          (manifestKey d) = s.bucket (manifestKey d) := Function.update_of_ne key _ _
      simp only [Journal.chain, other same, kept]
      exact inv.manifest d
  case stored =>
    intro d
    by_cases same : d = call.request.date
    · rw [same, own]
      exact (inv.opened _ today).logged
    · rw [other same]
      exact inv.stored d
  case day => exact inv.day
  case opened =>
    intro d same
    cases today.symm.trans same
    exact ⟨(inv.opened _ today).lines, own ▸ List.prefix_rfl, (inv.opened _ today).logged⟩
  case holder =>
    intro h held
    cases held
    exact ⟨describes, today, text, member, fun _ => own⟩

theorem Files.crash (inv : Files start base s j) :
    Files start base
      { s with
        writer := .new
        waiting := []
        holder := none
        crashes := s.crashes ++ [s.holder.bind Holder.left] } j.close where
  manifest d := by
    rcases inv.manifest d with text | ⟨broken, untouched, no_entry, _⟩
    · exact .inl text
    · exact .inr ⟨broken, untouched, no_entry, by simp⟩
  stored := inv.stored
  day := rfl
  opened d same := by cases same
  holder h held := by cases held

theorem files_step {e : Event} (inv : Files start base s j) (st : Step codec s j e u j') :
    Files start base u j' := by
  cases st with
  | call r => exact inv.hold rfl rfl rfl inv.holder
  | grantOpen call free member same =>
    refine inv.hold rfl rfl rfl ?_
    intro h held
    cases held
    exact ⟨describes_entryFor _ _, inv.sameDay same⟩
  | grantRoll call free member other =>
    refine inv.hold rfl rfl rfl ?_
    intro h held
    cases held
    trivial
  | loaded call written w held roll => exact inv.openDay roll
  | unloaded call written w held roll =>
    cases inv.unloaded roll
    exact inv.hold rfl rfl rfl nofun
  | putObject call entry held => exact inv.putObject held
  | appended call entry held => exact inv.append held
  | putManifest call entry body held => exact inv.putManifest held
  | finished call entry body pointer held built => exact inv.hold rfl rfl rfl nofun
  | refused call entry body held length => exact inv.hold rfl rfl rfl nofun
  | failed h held => exact inv.hold rfl rfl rfl nofun
  | crash => exact inv.crash

theorem stored_grows {e : Event} (inv : Files start base s j) (st : Step codec s j e u j')
    (d : Date) :
    j.stored d <+: j'.stored d := by
  cases st with
  | putManifest call entry body held =>
    rw [Journal.commit_stored]
    split
    · rename_i same
      subst same
      exact (inv.opened _ (inv.holder _ held).2.1).extends_stored
    · exact List.prefix_rfl
  | _ => exact List.prefix_rfl

structure Return.Filed (x : Return) (j : Journal) : Prop where
  stored : x.toLogged ∈ j.stored x.call.request.date
  sha256 : x.pointer.sha256 = x.entry.sha256
  objectKey : x.pointer.objectKey = x.entry.objectKey
  sizeBytes : x.pointer.sizeBytes = x.entry.sizeBytes
  capturedAt : x.pointer.capturedAt = x.call.request.capturedAt

theorem Return.Filed.grow {x : Return} (filed : x.Filed j)
    (grows : ∀ d, j.stored d <+: j'.stored d) : x.Filed j' :=
  { filed with stored := (grows _).subset filed.stored }

def Returned (s : System) (j : Journal) : Prop := ∀ x ∈ s.returned, x.Filed j

theorem returned_start (start : String → Option Bytes) : Returned (.on start) .empty :=
  fun _ member => absurd member List.not_mem_nil

theorem returned_step {e : Event} (files : Files start base s j) (inv : Returned s j)
    (st : Step codec s j e u j') : Returned u j' := by
  have old (x : Return) (member : x ∈ s.returned) : x.Filed j' :=
    (inv x member).grow (stored_grows files st)
  cases st with
  | finished call entry body pointer held built =>
    intro x member
    rcases List.mem_append.mp member with before | last
    · exact old x before
    · cases List.mem_singleton.mp last
      obtain ⟨_, _, _, in_memory, written⟩ := files.holder _ held
      exact ⟨written rfl ▸ in_memory, built.1, built.2.1, built.2.2.1, built.2.2.2⟩
  | _ => exact old

end

end TacticalGateway.Capture
