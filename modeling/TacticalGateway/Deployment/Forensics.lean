import TacticalGateway.Deployment.System

/-! From a row of the table back to the bytes it was made from: through the message on the bus
to the object the gateway handed on, its raw object and the manifest of its day. -/
namespace TacticalGateway
open Text Execution Gateway Capture

section Row

variable {pg : Opstore.Postgres} {c : CTO} {r : Opstore.Row}

theorem row_raw {pointer : RawPointer} (built : pg.row c = some r)
    (raw : c.rawPointer = some pointer) :
    r.rawSha256 = pointer.sha256 ∧ r.rawObjectKey = pointer.objectKey ∧
      r.rawSizeBytes = pointer.sizeBytes ∧ r.rawCapturedAt = pointer.capturedAt := by
  unfold Opstore.Postgres.row at built
  split at built
  · simp only at built
    split at built
    · cases built
      simp only [raw, Option.map_some, Option.getD_some, and_self]
    · cases built
  · cases built

theorem saved_raw {P : CTO → Prop} {pointer : RawPointer} (saved : r.SavedFrom pg P c)
    (raw : c.rawPointer = some pointer) :
    r.rawSha256 = pointer.sha256 ∧ r.rawObjectKey = pointer.objectKey ∧
      r.rawSizeBytes = pointer.sizeBytes ∧ r.rawCapturedAt = pointer.capturedAt := by
  cases saved with
  | kept built => exact row_raw built raw
  | retired first sample filename source built holds parent current closed =>
    have raws := row_raw built raw
    rw [closed]
    exact raws

end Row

/-- What the bucket holds for a row that was made from these bytes. -/
structure RowEvidence (codec : Codec) (bucket : String → Option Bytes) (r : Opstore.Row)
    (data : Bytes) : Prop where
  object : bucket r.rawObjectKey = some data
  sha256 : r.rawSha256 = TacticalGateway.sha256 data
  sizeBytes : r.rawSizeBytes = data.length
  manifest : ∃ chain, storedEntries codec (bucket (manifestKeyFor r.rawCapturedAt)) = some chain ∧
    ∃ e ∈ chain, e.sha256 = r.rawSha256 ∧ e.objectKey = r.rawObjectKey

theorem evidence_of_traced (codec : Codec) {s : System} {j : Journal} {c : CTO} {data : Bytes}
    (linked : Linked s j) (traced : Traced s c data)
    (no_collision : ∀ a ∈ captured s, ∀ b ∈ captured s,
      TacticalGateway.sha256 a = TacticalGateway.sha256 b → a = b) :
    Evidence codec s.bucket c data := by
  obtain ⟨x, returned, raw, rfl⟩ := traced
  have filed := linked.returned x returned
  have describes := (linked.files.stored _ _ filed.stored).describes
  obtain ⟨data, among, object, digest⟩ := linked.objects.stored _ _ filed.stored
  have same : data = x.call.request.rawBytes :=
    no_collision data among _ (List.mem_map_of_mem (linked.granted returned))
      (digest.trans describes.sha256)
  refine ⟨x.pointer, entries (j.stored x.call.request.date), raw, ?_, ?_, ?_, ?_, x.entry, ?_,
    filed.sha256.symm, filed.objectKey.symm⟩
  · rw [filed.objectKey, object, same]
  · rw [filed.sha256]
    exact describes.sha256
  · rw [filed.sizeBytes]
    exact describes.sizeBytes
  · rw [filed.capturedAt]
    change storedEntries codec (s.bucket (manifestKey x.call.request.date)) = _
    rw [linked.manifest, storedEntries_storedForm]
  · exact List.mem_map_of_mem filed.stored

theorem row_evidence (codec : Codec) {s : System} {j : Journal} {pg : Opstore.Postgres} {c : CTO}
    {P : CTO → Prop} {r : Opstore.Row} {data : Bytes} (linked : Linked s j)
    (traced : Traced s c data) (saved : r.SavedFrom pg P c)
    (no_collision : ∀ a ∈ captured s, ∀ b ∈ captured s,
      TacticalGateway.sha256 a = TacticalGateway.sha256 b → a = b) :
    RowEvidence codec s.bucket r data := by
  obtain ⟨pointer, chain, raw, object, digest, size, manifest, e, member, same_digest, same_key⟩ :=
    evidence_of_traced codec linked traced no_collision
  obtain ⟨sha256, objectKey, sizeBytes, capturedAt⟩ := saved_raw saved raw
  constructor
  · rw [objectKey, object]
  · rw [sha256, digest]
  · rw [sizeBytes, size]
  · refine ⟨chain, ?_, e, member, same_digest.trans sha256.symm, same_key.trans objectKey.symm⟩
    rw [capturedAt, manifest]

namespace Deployment

/-- The object is what a message that was published says. -/
def Published (p : Pydantic) (handed : List Handed) (c : CTO) : Prop :=
  ∃ h ∈ handed, readMessage p (modelDumpJson p h.cto) = some c

structure Traceable (p : Pydantic) (pg : Opstore.Postgres) (db : Opstore.Database)
    (d : Deployment) : Prop where
  process : ProcessInv d.gateway
  sent : ∀ payload ∈ d.bus.sent, ∃ h ∈ d.gateway.handed, payload = modelDumpJson p h.cto
  holds : Opstore.Holds pg (Published p d.gateway.handed) db d.opstore

variable {codec : Codec} {parsers : Parsers} {p : Pydantic} {pg : Opstore.Postgres}
  {db : Opstore.Database}

theorem Published.grow {handed : List Handed} {c : CTO} (published : Published p handed c)
    (more : List Handed) : Published p (handed ++ more) c := by
  obtain ⟨h, member, read⟩ := published
  exact ⟨h, List.mem_append_left _ member, read⟩

theorem holds_grow {s : Opstore.Service} {handed : List Handed} (more : List Handed)
    (holds : Opstore.Holds pg (Published p handed) db s) :
    Opstore.Holds pg (Published p (handed ++ more)) db s where
  buffered c member := (holds.buffered c member).grow more
  flights flight under_way c member := (holds.flights flight under_way c member).grow more
  rows r there := (holds.rows r there).imp_right
    fun ⟨c, published, saved⟩ =>
      ⟨c, published.grow more, saved.mono (fun _ published => published.grow more)⟩

theorem traceable_start : Traceable p pg db (start db) where
  process := inv_start
  sent := by simp [start, Channel.empty]
  holds := Opstore.holds_start db fun _ there => .inl (List.mem_map_of_mem there)

theorem traceable_step (keep : parsers.KeepPointer) {d d' : Deployment} {e : DeploymentEvent}
    (inv : Traceable p pg db d) (h : step codec parsers p pg d e = some d') :
    Traceable p pg db d' := by
  cases step_cases h with
  | gateway e g stepped quiet =>
    refine ⟨inv_step keep inv.process stepped, ?_, ?_⟩
    · simp only [quiet]
      exact inv.sent
    · simp only [quiet]
      exact inv.holds
  | published id g cto data stepped handed =>
    refine ⟨inv_step keep inv.process stepped, ?_, ?_⟩
    · intro payload member
      simp only [handed]
      rcases List.mem_append.mp member with before | last
      · obtain ⟨h, among, same⟩ := inv.sent payload before
        exact ⟨h, List.mem_append_left _ among, same⟩
      · exact ⟨_, List.mem_append_right _ (List.mem_singleton.mpr rfl), List.mem_singleton.mp last⟩
    · simp only [handed]
      exact holds_grow _ inv.holds
  | unpublished id g cto data stepped handed =>
    refine ⟨inv_step keep inv.process stepped, ?_, ?_⟩
    · intro payload member
      simp only [handed]
      obtain ⟨h, among, same⟩ := inv.sent payload member
      exact ⟨h, List.mem_append_left _ among, same⟩
    · simp only [handed]
      exact holds_grow _ inv.holds
  | lost i bus dropped =>
    refine ⟨inv.process, ?_, inv.holds⟩
    rw [(Channel.lose_spec dropped).1]
    exact inv.sent
  | delivered payload bus s head stepped =>
    obtain ⟨waiting, _, sent, _⟩ := Channel.deliver_spec head
    refine ⟨inv.process, sent ▸ inv.sent, Opstore.step_holds inv.holds ?_ stepped⟩
    rintro _ cto ⟨⟩ valid
    have flying : payload ∈ d.bus.flight := by
      rw [waiting]
      exact List.mem_cons_self
    obtain ⟨h, among, same⟩ := inv.sent payload
      ((d.bus.mem_sent_iff payload).mpr (.inr (.inl flying)))
    exact ⟨h, among, same ▸ valid⟩
  | opstore e s stepped quiet =>
    exact ⟨inv.process, inv.sent, Opstore.step_holds inv.holds
      (fun msg _ same => absurd same (quiet msg)) stepped⟩
  | restarted => exact ⟨inv.process, inv.sent, Opstore.holds_start _ inv.holds.rows⟩

theorem traceable_run (keep : parsers.KeepPointer) {es : List DeploymentEvent} {d : Deployment}
    (reached : run (step codec parsers p pg) (start db) es = some d) : Traceable p pg db d :=
  state_invariant (Traceable p pg db) traceable_start
    (fun _ _ _ inv _ h => traceable_step keep inv h) (along_true _ _ _) reached

theorem Traceable.row {d : Deployment} (inv : Traceable p pg db d)
    (portable : ∀ h ∈ d.gateway.handed, h.cto.Portable p) {r : Opstore.Row}
    (there : r ∈ d.opstore.db.cto.rows) (new : r.uid ∉ db.cto.keys) :
    ∃ h ∈ d.gateway.handed, r.SavedFrom pg (· ∈ d.objects) h.cto := by
  have handed {c : CTO} (published : Published p d.gateway.handed c) :
      ∃ h ∈ d.gateway.handed, h.cto = c := by
    obtain ⟨h, member, read⟩ := published
    rw [readMessage_modelDumpJson (portable h member)] at read
    exact ⟨h, member, Option.some.inj read⟩
  rcases inv.holds.rows r there with old | ⟨c, published, saved⟩
  · exact absurd old new
  · obtain ⟨h, member, rfl⟩ := handed published
    refine ⟨h, member, saved.mono (fun sample from_bus => ?_)⟩
    obtain ⟨h', among, rfl⟩ := handed from_bus
    exact List.mem_map_of_mem among

/-- Every row the opstore has added is that of an object the gateway handed on, and the bucket has
the bytes this object was made from, whatever fails, is lost or restarts on the way. -/
theorem rows_are_linked (codec : Codec) (parsers : Parsers) (p : Pydantic) (pg : Opstore.Postgres)
    (keep : parsers.KeepPointer) (db : Opstore.Database) (es : List DeploymentEvent)
    (d : Deployment) (reached : run (step codec parsers p pg) (start db) es = some d)
    (portable : ∀ h ∈ d.gateway.handed, h.cto.Portable p)
    (no_collision : ∀ a ∈ captured d.gateway.capture, ∀ b ∈ captured d.gateway.capture,
      TacticalGateway.sha256 a = TacticalGateway.sha256 b → a = b) :
    ∀ r ∈ d.opstore.db.cto.rows, r.uid ∉ db.cto.keys →
      ∃ h ∈ d.gateway.handed, r.SavedFrom pg (· ∈ d.objects) h.cto ∧
        RowEvidence codec d.gateway.capture.bucket r h.data := by
  have inv := traceable_run keep reached
  intro r there new
  obtain ⟨h, member, saved⟩ := inv.row portable there new
  obtain ⟨j, linked⟩ := inv.process.linked
  exact ⟨h, member, saved, row_evidence codec linked (inv.process.handed h member) saved
    no_collision⟩

theorem originPoint_portable (x : RawPointer) (whole : x.capturedAt.WholeMinutes) :
    (originPoint x).Portable plainPydantic where
  datetimes := by
    simp only [originPoint, CTO.datetimes, Option.toList_none, Option.toList_some, List.map_cons,
      List.map_nil, List.append_nil, List.cons_append, List.nil_append, List.mem_cons,
      List.not_mem_nil, or_false]
    rintro t (rfl | rfl | rfl)
    · simp [Datetime.WholeMinutes, newYear]
    · simp [Datetime.WholeMinutes, newYear]
    · exact whole
  floats := by simp [originPoint, CTO.floats]
  coordinates := ⟨.inl rfl, .inl rfl, trivial⟩
  attributes := trivial

theorem run_gateway {d : Deployment} {es : List ProcessEvent} {g : Process}
    (quiet : ∀ e ∈ es, ∀ id, e ≠ .hand id)
    (ran : run (processStep codec parsers) d.gateway es = some g) :
    run (step codec parsers p pg) d (es.map .gateway) = some { d with gateway := g } := by
  refine run_embed (f := fun g => { d with gateway := g }) ?_ ran
  intro e member g g' stepped
  have other := quiet e member
  cases e with
  | hand id => exact absurd rfl (other id)
  | _ => simp only [step, stepped, Option.map_some]

def datagram : Message := ⟨[0x3C], newYear, .cotXmlUdp "cot-xml-udp:192.0.2.1:4242"⟩

def oneObject : List ProcessEvent :=
  [.receive datagram, .capture (.grant 0), .capture .resume, .capture .effect, .capture .resume,
    .capture .effect, .capture .resume, .normalize 0 0]

theorem oneObject_reached :
    ∃ g x, run (processStep Reader.codec onePoint) .init oneObject = some g ∧
      g.tasks = [⟨0, datagram, some [originPoint x]⟩] ∧ g.handed = [] ∧ x.capturedAt = newYear ∧
      captured g.capture = [[0x3C]] := by
  simp [oneObject, datagram, run_cons, processStep, Message.refused, Process.init, Capture.step,
    System.init, System.on, Capture.start, CaptureWriter.new, System.settle, System.answer, resume,
    afterRead, rollChain, Holder.put, afterObject, afterManifest, manifestKeyFor, Request.date,
    Message.request, CaptureWriter.entryFor, makeEntry, sha256_length, Parsers.normalize, onePoint,
    Process.update, captured]
  exact ⟨_, rfl, rfl⟩

/-- The datagram all the way to the table, by the last flush of an opstore that is stopped. -/
def oneRow : List DeploymentEvent :=
  oneObject.map .gateway ++ [.hand 0 true, .deliver, .opstore .requestStop, .opstore .cancel,
    .opstore .flushAll, .opstore (.writeEnds true)]

theorem oneRow_reached :
    ∃ d, run (step Reader.codec onePoint plainPydantic Opstore.plainPostgres)
        (start ⟨.empty, []⟩) oneRow = some d ∧ d.opstore.db.cto.keys = [0] ∧
      captured d.gateway.capture = [[0x3C]] ∧
      ∀ h ∈ d.gateway.handed, h.cto.Portable plainPydantic := by
  obtain ⟨g, x, ran, tasks, handed, at_, bytes⟩ := oneObject_reached
  have portable := originPoint_portable x (by rw [at_]; rfl)
  have read := readMessage_modelDumpJson portable
  have first : run (step Reader.codec onePoint plainPydantic Opstore.plainPostgres)
      (start ⟨.empty, []⟩) (oneObject.map .gateway) =
        some ⟨g, .empty, [], Opstore.start ⟨.empty, []⟩, []⟩ :=
    run_gateway (by simp [oneObject]) ran
  have handing : step Reader.codec onePoint plainPydantic Opstore.plainPostgres
      ⟨g, .empty, [], Opstore.start ⟨.empty, []⟩, []⟩ (.hand 0 true) = some
        ⟨⟨g.capture, [⟨0, datagram, some []⟩], [⟨originPoint x, [0x3C]⟩]⟩,
          Channel.empty.send (modelDumpJson plainPydantic (originPoint x)), [],
          Opstore.start ⟨.empty, []⟩, []⟩ := by
    simp [step, processStep, Process.next, Process.update, tasks, handed, datagram]
  have reading : Opstore.step (readMessage plainPydantic) Opstore.plainPostgres
      (Opstore.start ⟨.empty, []⟩) (.message (modelDumpJson plainPydantic (originPoint x))) = some
        ((Opstore.start ⟨.empty, []⟩).bufferCto "stream:folder:/inbox" (originPoint x)) := by
    simp only [Opstore.step, Opstore.start, Opstore.onMessage, read]
    rfl
  generalize modelDumpJson plainPydantic (originPoint x) = payload at handing reading
  have delivering (gateway : Process) : step Reader.codec onePoint plainPydantic
      Opstore.plainPostgres
      ⟨gateway, Channel.empty.send payload, [], Opstore.start ⟨.empty, []⟩, []⟩ .deliver = some
        ⟨gateway, ⟨[payload], [], [payload], [], List.Sublist.refl _, List.Perm.refl _⟩, [],
          (Opstore.start ⟨.empty, []⟩).bufferCto "stream:folder:/inbox" (originPoint x), []⟩ := by
    simp [step, Channel.send, Channel.empty, Channel.deliver, reading]
  rw [oneRow, run_append, first, Option.bind_some, run_cons, handing, Option.bind_some, run_cons,
    delivering, Option.bind_some]
  refine ⟨_, rfl, rfl, bytes, ?_⟩
  intro h member
  cases List.mem_singleton.mp member
  exact portable

theorem rows_are_linked_oneRow :
    ∃ d, run (step Reader.codec onePoint plainPydantic Opstore.plainPostgres)
        (start ⟨.empty, []⟩) oneRow = some d ∧ d.opstore.db.cto.keys = [0] ∧
      ∀ r ∈ d.opstore.db.cto.rows, r.uid ∉ (Table.empty : Opstore.CtoTable).keys →
        ∃ h ∈ d.gateway.handed, r.SavedFrom Opstore.plainPostgres (· ∈ d.objects) h.cto ∧
          RowEvidence Reader.codec d.gateway.capture.bucket r h.data := by
  obtain ⟨d, reached, one, bytes, portable⟩ := oneRow_reached
  refine ⟨d, reached, one, rows_are_linked Reader.codec onePoint plainPydantic
    Opstore.plainPostgres onePoint_keepPointer _ _ d reached portable ?_⟩
  intro a ha b hb _
  rw [bytes, List.mem_singleton] at ha hb
  rw [ha, hb]

end Deployment

end TacticalGateway
