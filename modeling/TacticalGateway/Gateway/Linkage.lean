import TacticalGateway.Capture.Objects
import TacticalGateway.Capture.Soundness
import TacticalGateway.Gateway.Ingest

/-! All ingest paths on one capture writer: messages and files that wait for their capture, are
normalized from the bytes that were captured, and whose objects are handed on one by one. -/
namespace TacticalGateway.Gateway
open Text Execution Capture

inductive Source where
  | cotXmlTcp (sourceSystem : String)
  | cotXmlUdp (sourceSystem : String)
  | cotPbTcp (sourceSystem : String)
  | kmzFile (filename sourceLabel : String) (ingestSource : IngestSource)
  | ovlFile (filename sourceLabel : String) (ingestSource : IngestSource)

structure Message where
  data : Bytes
  receivedAt : Datetime
  source : Source

def Message.protocol (m : Message) : String :=
  match m.source with
  | .cotXmlTcp _ | .cotXmlUdp _ => "cot_xml"
  | .cotPbTcp _ => "cot_pb"
  | .kmzFile _ _ _ => kmz.protocol
  | .ovlFile _ _ _ => ovl.protocol

/-- Only the file ingests look at the bytes before they capture them. -/
def Message.refused (m : Message) : Bool :=
  match m.source with
  | .cotXmlTcp _ | .cotXmlUdp _ | .cotPbTcp _ => false
  | .kmzFile _ _ _ => kmz.refuses m.data
  | .ovlFile _ _ _ => ovl.refuses m.data

def Message.request (m : Message) : Request := ⟨m.data, m.protocol, m.receivedAt⟩

def Parsers.normalize (parsers : Parsers) (draw : Nat) (m : Message)
    (rawPointer : RawPointer) : Parsed :=
  match m.source with
  | .cotXmlTcp sourceSystem | .cotXmlUdp sourceSystem =>
    parsers.cotXmlToCto draw m.data sourceSystem m.receivedAt rawPointer
  | .cotPbTcp sourceSystem => parsers.cotPbToCto draw m.data sourceSystem m.receivedAt rawPointer
  | .kmzFile filename sourceLabel ingestSource =>
    parsers.kmzToCtos draw m.data filename sourceLabel m.receivedAt rawPointer ingestSource
  | .ovlFile filename sourceLabel ingestSource =>
    parsers.ovlToCtos draw m.data filename sourceLabel m.receivedAt rawPointer ingestSource

/-- Every object that a parser makes carries the pointer it was given. -/
def Parsers.KeepPointer (parsers : Parsers) : Prop :=
  ∀ draw m rawPointer ctos, parsers.normalize draw m rawPointer = .ctos ctos →
    ∀ cto ∈ ctos, cto.rawPointer = some rawPointer

/-- A message under way: its capture call, and the objects to hand on once it is parsed. -/
structure Task where
  id : Nat
  message : Message
  todo : Option (List CTO)

structure Handed where
  cto : CTO
  data : Bytes

structure Process where
  capture : System
  tasks : List Task
  handed : List Handed

inductive ProcessEvent where
  | receive (m : Message)
  | capture (e : Capture.Event)
  | normalize (id draw : Nat)
  | hand (id : Nat)

def Process.init : Process := ⟨.init, [], []⟩

def Process.update (g : Process) (t : Task) (todo : Option (List CTO)) : List Task :=
  g.tasks.map (fun t' => if t'.id = t.id then { t with todo := todo } else t')

def processStep (codec : Codec) (parsers : Parsers) (g : Process) : ProcessEvent → Option Process
  | .receive m =>
    if m.refused then some g
    else (step codec g.capture (.call m.request)).map (fun s =>
      { g with capture := s, tasks := g.tasks ++ [⟨g.capture.calls, m, none⟩] })
  | .capture (.call _) => none
  | .capture .crash =>
    (step codec g.capture .crash).map (fun s => { g with capture := s, tasks := [] })
  | .capture e => (step codec g.capture e).map (fun s => { g with capture := s })
  | .normalize id draw =>
    match g.tasks.find? (fun t => t.id = id),
      g.capture.returned.find? (fun x => x.call.id = id) with
    | some t, some x =>
      match t.todo, parsers.normalize draw t.message x.pointer with
      | none, .ctos ctos => some { g with tasks := g.update t (some ctos) }
      -- a parse error is logged or reported, any other exception ends the task as well
      | none, _ => some { g with tasks := g.update t (some []) }
      | some _, _ => none
    | _, _ => none
  | .hand id =>
    match g.tasks.find? (fun t => t.id = id) with
    | some t =>
      match t.todo with
      | some (cto :: rest) =>
        some { g with
          tasks := g.update t (some rest)
          handed := g.handed ++ [⟨cto, t.message.data⟩] }
      | _ => none
    | none => none

def Traced (s : System) (cto : CTO) (data : Bytes) : Prop :=
  ∃ x ∈ s.returned, cto.rawPointer = some x.pointer ∧ x.call.request.rawBytes = data

structure Tracked (g : Process) (t : Task) : Prop where
  own : ∀ c ∈ g.capture.granted ++ g.capture.waiting, c.id = t.id → c.request = t.message.request
  numbered : t.id < g.capture.calls
  traced : ∀ ctos, t.todo = some ctos → ∀ cto ∈ ctos, Traced g.capture cto t.message.data

structure ProcessInv (g : Process) : Prop where
  linked : ∃ j, Linked g.capture j
  tasks : ∀ t ∈ g.tasks, Tracked g t
  handed : ∀ h ∈ g.handed, Traced g.capture h.cto h.data

section
variable {codec : Codec} {parsers : Parsers}

theorem Traced.grow {s u : System} {cto : CTO} {data : Bytes} (traced : Traced s cto data)
    (grows : s.returned ⊆ u.returned) : Traced u cto data := by
  obtain ⟨x, member, pointer, bytes⟩ := traced
  exact ⟨x, grows member, pointer, bytes⟩

theorem returned_grows {s u : System} {e : Capture.Event} (h : step codec s e = some u) :
    s.returned ⊆ u.returned := by
  obtain ⟨_, st⟩ := step_cases h .empty
  cases st with
  | finished call entry body pointer held built => exact List.subset_append_left _ _
  | _ => exact List.Subset.refl _

theorem callers_same {s u : System} {e : Capture.Event} (h : step codec s e = some u)
    (no_call : ∀ r, e ≠ .call r) :
    u.calls = s.calls ∧ ∀ c ∈ u.granted ++ u.waiting, c ∈ s.granted ++ s.waiting := by
  have moved {call : Call} (member : call ∈ s.waiting) :
      ∀ c ∈ s.granted ++ [call] ++ s.waiting.erase call, c ∈ s.granted ++ s.waiting := by
    intro c among
    rcases List.mem_append.mp among with granted | waiting
    · rcases List.mem_append.mp granted with before | last
      · exact List.mem_append_left _ before
      · cases List.mem_singleton.mp last
        exact List.mem_append_right _ member
    · exact List.mem_append_right _ (List.mem_of_mem_erase waiting)
  obtain ⟨_, st⟩ := step_cases h .empty
  cases st with
  | call r => exact absurd rfl (no_call r)
  | grantOpen call free member same => exact ⟨rfl, moved member⟩
  | grantRoll call free member other => exact ⟨rfl, moved member⟩
  | crash => exact ⟨rfl, fun c among => List.mem_append_left _ (by simpa using among)⟩
  | _ => exact ⟨rfl, fun c among => among⟩

theorem Tracked.capture {g : Process} {u : System} {e : Capture.Event} {t : Task}
    (tracked : Tracked g t) (h : step codec g.capture e = some u) (no_call : ∀ r, e ≠ .call r)
    (tasks : List Task) : Tracked ⟨u, tasks, g.handed⟩ t := by
  obtain ⟨calls, callers⟩ := callers_same h no_call
  constructor
  · exact fun c among => tracked.own c (callers c among)
  · exact calls ▸ tracked.numbered
  · exact fun ctos todo cto member => (tracked.traced ctos todo cto member).grow (returned_grows h)

theorem inv_capture {g : Process} {u : System} {e : Capture.Event} (inv : ProcessInv g)
    (h : step codec g.capture e = some u) (no_call : ∀ r, e ≠ .call r) {tasks : List Task}
    (subset : tasks ⊆ g.tasks) : ProcessInv ⟨u, tasks, g.handed⟩ := by
  obtain ⟨j, linked⟩ := inv.linked
  constructor
  · exact linked_step linked h
  · exact fun t member => (inv.tasks t (subset member)).capture h no_call tasks
  · exact fun x member => (inv.handed x member).grow (returned_grows h)

theorem inv_receive {g : Process} {u : System} {m : Message} (inv : ProcessInv g)
    (h : step codec g.capture (.call m.request) = some u) :
    ProcessInv { g with capture := u, tasks := g.tasks ++ [⟨g.capture.calls, m, none⟩] } := by
  obtain ⟨j, linked⟩ := inv.linked
  have next := linked_step linked h
  cases h
  constructor
  · exact next
  · intro t member
    rcases List.mem_append.mp member with before | last
    · have tracked := inv.tasks t before
      refine ⟨?_, Nat.lt_succ_of_lt tracked.numbered, tracked.traced⟩
      intro c among same
      rw [← List.append_assoc, List.mem_append, List.mem_singleton] at among
      rcases among with old | rfl
      · exact tracked.own c old same
      · have less := tracked.numbered
        rw [← same] at less
        exact absurd less (Nat.lt_irrefl _)
    · cases List.mem_singleton.mp last
      refine ⟨?_, Nat.lt_succ_self _, nofun⟩
      intro c among same
      rw [← List.append_assoc, List.mem_append, List.mem_singleton] at among
      rcases among with old | rfl
      · have less := linked.ordered.fresh c old
        rw [same] at less
        exact absurd less (Nat.lt_irrefl _)
      · rfl
  · exact inv.handed

theorem Tracked.todo {g : Process} {t : Task} (tracked : Tracked g t) {todo : Option (List CTO)}
    (traced : ∀ ctos, todo = some ctos → ∀ cto ∈ ctos, Traced g.capture cto t.message.data) :
    Tracked g { t with todo := todo } :=
  ⟨tracked.own, tracked.numbered, traced⟩

theorem inv_update {g : Process} {t : Task} {todo : Option (List CTO)} {handed : List Handed}
    (inv : ProcessInv g) (member : t ∈ g.tasks)
    (traced : ∀ ctos, todo = some ctos → ∀ cto ∈ ctos, Traced g.capture cto t.message.data)
    (new : ∀ h ∈ handed, Traced g.capture h.cto h.data) :
    ProcessInv ⟨g.capture, g.update t todo, handed⟩ := by
  constructor
  · exact inv.linked
  · intro t' among
    obtain ⟨old, was, rfl⟩ := List.mem_map.mp among
    split
    · have tracked := (inv.tasks t member).todo traced
      exact ⟨tracked.own, tracked.numbered, tracked.traced⟩
    · have tracked := inv.tasks old was
      exact ⟨tracked.own, tracked.numbered, tracked.traced⟩
  · exact new

theorem returned_to_task {g : Process} (inv : ProcessInv g) {t : Task} (member : t ∈ g.tasks)
    {x : Return} (returned : x ∈ g.capture.returned) (same : x.call.id = t.id) :
    x.call.request.rawBytes = t.message.data := by
  obtain ⟨j, linked⟩ := inv.linked
  have request := (inv.tasks t member).own x.call
    (List.mem_append_left _ (linked.granted returned)) same
  rw [request]
  rfl

theorem inv_start : ProcessInv .init where
  linked := ⟨.empty, linked_start⟩
  tasks t member := by cases member
  handed h member := by cases member

theorem capture_event {g g' : Process} {e : Capture.Event}
    (h : processStep codec parsers g (.capture e) = some g') :
    ∃ u tasks, step codec g.capture e = some u ∧ (∀ r, e ≠ .call r) ∧ tasks ⊆ g.tasks ∧
      g' = ⟨u, tasks, g.handed⟩ := by
  cases e with
  | call r => cases h
  | crash =>
    simp only [processStep, Option.map_eq_some_iff] at h
    obtain ⟨u, stepped, rfl⟩ := h
    exact ⟨u, [], stepped, nofun, List.nil_subset _, rfl⟩
  | grant _ | effect | resume | fail =>
    simp only [processStep, Option.map_eq_some_iff] at h
    obtain ⟨u, stepped, rfl⟩ := h
    exact ⟨u, g.tasks, stepped, nofun, List.Subset.refl _, rfl⟩

theorem inv_step (keep : parsers.KeepPointer) {g g' : Process} {e : ProcessEvent}
    (inv : ProcessInv g) (h : processStep codec parsers g e = some g') : ProcessInv g' := by
  cases e with
  | receive m =>
    simp only [processStep] at h
    split at h
    · cases h
      exact inv
    · rw [Option.map_eq_some_iff] at h
      obtain ⟨u, called, rfl⟩ := h
      exact inv_receive inv called
  | capture e =>
    obtain ⟨u, tasks, stepped, no_call, subset, rfl⟩ := capture_event h
    exact inv_capture inv stepped no_call subset
  | normalize id draw =>
    simp only [processStep] at h
    split at h
    · rename_i t x found returned
      have member := List.mem_of_find?_eq_some found
      have same : x.call.id = t.id := by
        have task : t.id = id := by simpa using List.find?_some found
        have call : x.call.id = id := by simpa using List.find?_some returned
        rw [task, call]
      have mine := List.mem_of_find?_eq_some returned
      split at h
      · rename_i ctos parsed
        cases h
        refine inv_update inv member ?_ inv.handed
        rintro _ ⟨⟩ cto among
        exact ⟨x, mine, keep _ _ _ _ parsed cto among, returned_to_task inv member mine same⟩
      · cases h
        refine inv_update inv member ?_ inv.handed
        rintro _ ⟨⟩ cto among
        cases among
      · cases h
    · cases h
  | hand id =>
    simp only [processStep] at h
    split at h
    · rename_i t found
      have member := List.mem_of_find?_eq_some found
      split at h
      · rename_i cto rest todo
        cases h
        have traced := (inv.tasks t member).traced _ todo
        refine inv_update inv member ?_ ?_
        · rintro _ ⟨⟩ c among
          exact traced c (List.mem_cons_of_mem _ among)
        · intro x among
          rcases List.mem_append.mp among with before | last
          · exact inv.handed x before
          · cases List.mem_singleton.mp last
            exact traced cto List.mem_cons_self
      · cases h
    · cases h

end

/-- What the store holds for an object that was handed on. -/
def Evidence (codec : Codec) (bucket : String → Option Bytes) (cto : CTO) (data : Bytes) : Prop :=
  ∃ pointer chain, cto.rawPointer = some pointer ∧
    bucket pointer.objectKey = some data ∧
    pointer.sha256 = TacticalGateway.sha256 data ∧ pointer.sizeBytes = data.length ∧
    storedEntries codec (bucket (manifestKeyFor pointer.capturedAt)) = some chain ∧
    ∃ e ∈ chain, e.sha256 = pointer.sha256 ∧ e.objectKey = pointer.objectKey

/-- Whatever fails in the storage and however the paths interleave, every object handed on
stays linked to the bytes it was made from and to an entry of its day's manifest. -/
theorem handed_objects_are_linked (codec : Codec) (parsers : Parsers) (keep : parsers.KeepPointer)
    (es : List ProcessEvent) (g : Process)
    (reached : run (processStep codec parsers) .init es = some g)
    (no_collision : ∀ a ∈ captured g.capture, ∀ b ∈ captured g.capture,
      TacticalGateway.sha256 a = TacticalGateway.sha256 b → a = b) :
    ∀ h ∈ g.handed, Evidence codec g.capture.bucket h.cto h.data := by
  have inv : ProcessInv g := by
    refine state_invariant ProcessInv inv_start ?_ (along_true _ _ _) reached
    exact fun t e u inv _ h => inv_step keep inv h
  obtain ⟨j, linked⟩ := inv.linked
  intro h member
  obtain ⟨x, returned, pointer, bytes⟩ := inv.handed h member
  have filed := linked.returned x returned
  have on := linked.files.stored _ _ filed.stored
  obtain ⟨data, among, object, digest⟩ := linked.objects.stored _ _ filed.stored
  have same : data = h.data := by
    apply no_collision data among h.data
    · rw [← bytes]
      exact List.mem_map_of_mem (linked.granted returned)
    · rw [digest, ← bytes]
      exact on.describes.sha256
  refine ⟨x.pointer, entries (j.stored x.call.request.date), pointer, ?_, ?_, ?_, ?_,
    x.entry, ?_, ?_, ?_⟩
  · rw [filed.objectKey, object, same]
  · rw [filed.sha256, ← bytes]
    exact on.describes.sha256
  · rw [filed.sizeBytes, ← bytes]
    exact on.describes.sizeBytes
  · rw [filed.capturedAt]
    change storedEntries codec (g.capture.bucket (manifestKey x.call.request.date)) = _
    rw [linked.manifest, storedEntries_storedForm]
  · exact List.mem_map_of_mem filed.stored
  · exact filed.sha256.symm
  · exact filed.objectKey.symm

theorem onePoint_keepPointer : onePoint.KeepPointer := by
  intro draw m rawPointer ctos parsed cto member
  cases source : m.source <;> simp only [Parsers.normalize, source, onePoint] at parsed <;>
    cases parsed <;> cases List.mem_singleton.mp member <;> rfl

def oneDatagram : List ProcessEvent :=
  [.receive ⟨[0x3C], newYear, .cotXmlUdp "cot-xml-udp:192.0.2.1:4242"⟩, .capture (.grant 0),
   .capture .resume, .capture .effect, .capture .resume, .capture .effect, .capture .resume,
   .normalize 0 0, .hand 0]

theorem handed_objects_are_linked_oneDatagram :
    ∃ g, run (processStep Reader.codec onePoint) .init oneDatagram = some g ∧ g.handed.length = 1 ∧
      ∀ h ∈ g.handed, Evidence Reader.codec g.capture.bucket h.cto h.data := by
  have ran : ∃ g, run (processStep Reader.codec onePoint) .init oneDatagram = some g ∧
      g.handed.length = 1 ∧ captured g.capture = [[0x3C]] := by
    simp [oneDatagram, run_cons, processStep, Message.refused, Process.init, step, System.init,
      System.on, start, CaptureWriter.new, System.settle, System.answer, resume,
        afterRead, rollChain,
      Holder.put, afterObject, afterManifest, manifestKeyFor, Request.date, Message.request,
      CaptureWriter.entryFor, makeEntry, sha256_length, Parsers.normalize, onePoint, Process.update,
      captured]
  obtain ⟨g, reached, one, bytes⟩ := ran
  refine ⟨g, reached, one, handed_objects_are_linked Reader.codec onePoint onePoint_keepPointer _
    g reached ?_⟩
  intro a ha b hb _
  rw [bytes, List.mem_singleton] at ha hb
  rw [ha, hb]

end TacticalGateway.Gateway
