import TacticalGateway.Deployment.Forensics

/-! What reaches the opstore, over all its processes: of each file or source a part of what the
gateway handed on, in order and nothing twice. What has no row is at a place that can be named. -/
namespace TacticalGateway
open Text Execution Gateway

namespace Deployment

/-- The opstore processes, the one that runs last. -/
def processes (d : Deployment) : List Opstore.Service := d.earlier ++ [d.opstore]

/-- Where an object can be that was handed on and has no row. -/
def Missing (p : Pydantic) (d : Deployment) (c : CTO) : Prop :=
  c ∈ d.unpublished ∨ modelDumpJson p c ∈ d.bus.flight ∨ modelDumpJson p c ∈ d.bus.lost ∨
    ∃ s ∈ d.processes, s.Unwritten c

/-- What an opstore process has read, and what became of it. -/
structure Handled (pg : Opstore.Postgres) (read : List CTO) (s : Opstore.Service) : Prop where
  queued : Opstore.Queued pg read s
  kept : Opstore.Kept read s

structure Delivered (p : Pydantic) (pg : Opstore.Postgres) (d : Deployment) : Prop where
  sent : d.bus.sent.Sublist (d.objects.map (modelDumpJson p))
  published : ∀ c ∈ d.objects, modelDumpJson p c ∈ d.bus.sent ∨ c ∈ d.unpublished
  rows : ∀ s ∈ d.earlier, ∀ uid ∈ s.db.cto.keys, uid ∈ d.opstore.db.cto.keys
  read : ∃ before now, List.Forall₂ (Handled pg) before d.earlier ∧ Handled pg now d.opstore ∧
    d.bus.arrived.filterMap (readMessage p) = before.flatten ++ now

variable {codec : Codec} {parsers : Parsers} {p : Pydantic} {pg : Opstore.Postgres}
  {db : Opstore.Database}

theorem delivered_start : Delivered p pg (start db) where
  sent := List.Sublist.refl _
  published := by simp [start, objects, Process.init]
  rows := by simp [start]
  read := ⟨[], [], .nil, ⟨KeyedQueue.inOrder_empty _, Opstore.kept_start db⟩, rfl⟩

theorem handled_step {read : List CTO} {s t : Opstore.Service} {e : Opstore.Event Bytes}
    (handled : Handled pg read s) (stepped : Opstore.step (readMessage p) pg s e = some t) :
    Handled pg (read ++ (e.cto? (readMessage p)).toList) t :=
  ⟨Opstore.step_queued handled.queued stepped, Opstore.step_kept handled.kept stepped⟩

theorem cto?_quiet {e : Opstore.Event Bytes} (quiet : ∀ msg, e ≠ .message msg) :
    e.cto? (readMessage p) = none := by
  cases e with
  | message msg => exact absurd rfl (quiet msg)
  | _ => rfl

theorem objects_handed {d : Deployment} {g : Process} {cto : CTO} {data : Bytes}
    (handed : g.handed = d.gateway.handed ++ [⟨cto, data⟩]) :
    g.handed.map Handed.cto = d.objects ++ [cto] := by
  rw [handed, List.map_append]
  rfl

theorem delivered_step {d d' : Deployment} {e : DeploymentEvent} (inv : Delivered p pg d)
    (h : step codec parsers p pg d e = some d') : Delivered p pg d' := by
  cases step_cases h with
  | gateway e g stepped quiet =>
    have same : g.handed.map Handed.cto = d.objects := congrArg _ quiet
    refine ⟨?_, ?_, inv.rows, inv.read⟩
    · simp only [objects, same]
      exact inv.sent
    · simp only [objects, same]
      exact inv.published
  | published id g cto data stepped handed =>
    have more := objects_handed handed
    refine ⟨?_, ?_, inv.rows, inv.read⟩
    · simp only [objects, more, List.map_append]
      exact inv.sent.append_right _
    · simp only [objects, more]
      intro c member
      rcases List.mem_append.mp member with before | last
      · exact (inv.published c before).imp_left (List.mem_append_left _)
      · cases List.mem_singleton.mp last
        exact .inl (List.mem_append_right _ (List.mem_singleton.mpr rfl))
  | unpublished id g cto data stepped handed =>
    have more := objects_handed handed
    refine ⟨?_, ?_, inv.rows, inv.read⟩
    · simp only [objects, more, List.map_append]
      exact inv.sent.trans (List.sublist_append_left _ _)
    · simp only [objects, more]
      intro c member
      rcases List.mem_append.mp member with before | last
      · exact (inv.published c before).imp_right (List.mem_append_left _)
      · exact .inr (List.mem_append_right _ last)
  | lost i bus dropped =>
    obtain ⟨sent, arrived, _, _⟩ := Channel.lose_spec dropped
    exact ⟨sent ▸ inv.sent, sent ▸ inv.published, inv.rows, arrived ▸ inv.read⟩
  | delivered payload bus s head stepped =>
    obtain ⟨_, arrived, sent, _⟩ := Channel.deliver_spec head
    obtain ⟨before, now, ended, running, read⟩ := inv.read
    refine ⟨sent ▸ inv.sent, sent ▸ inv.published, ?_, before, _, ended,
      handled_step running stepped, ?_⟩
    · exact fun t member uid known => Opstore.step_keys stepped uid (inv.rows t member uid known)
    · rw [arrived, List.filterMap_append, read, List.append_assoc]
      congr 2
  | opstore e s stepped quiet =>
    obtain ⟨before, now, ended, running, read⟩ := inv.read
    refine ⟨inv.sent, inv.published, ?_, before, _, ended, handled_step running stepped, ?_⟩
    · exact fun t member uid known => Opstore.step_keys stepped uid (inv.rows t member uid known)
    · rw [cto?_quiet quiet, Option.toList_none, List.append_nil]
      exact read
  | restarted =>
    obtain ⟨before, now, ended, running, read⟩ := inv.read
    refine ⟨inv.sent, inv.published, ?_, before ++ [now], [], ?_, ?_, ?_⟩
    · intro s member
      rcases List.mem_append.mp member with old | last
      · exact inv.rows s old
      · cases List.mem_singleton.mp last
        exact fun _ known => known
    · exact List.rel_append ended (.cons running .nil)
    · exact ⟨KeyedQueue.inOrder_empty _, Opstore.kept_start _⟩
    · rw [read]
      simp

theorem delivered_run {es : List DeploymentEvent} {d : Deployment}
    (reached : run (step codec parsers p pg) (start db) es = some d) : Delivered p pg d :=
  state_invariant (Delivered p pg) delivered_start (fun _ _ _ inv _ h => delivered_step inv h)
    (along_true _ _ _) reached

theorem read_objects {cs : List CTO} (portable : ∀ c ∈ cs, c.Portable p) :
    (cs.map (modelDumpJson p)).filterMap (readMessage p) = cs := by
  induction cs with
  | nil => rfl
  | cons c cs ih =>
    rw [List.map_cons, List.filterMap_cons,
      readMessage_modelDumpJson (portable c List.mem_cons_self),
      ih (fun c' later => portable c' (List.mem_cons_of_mem _ later))]

theorem taken_sublist {before : List (List CTO)} {ended : List Opstore.Service}
    (handled : List.Forall₂ (Handled pg) before ended) (key : String) :
    ((ended.flatMap (fun s => s.taken.flatten)).filter
        (fun c => Opstore.bufferKey pg c = key)).Sublist
      (before.flatten.filter (fun c => Opstore.bufferKey pg c = key)) := by
  induction handled with
  | nil => exact List.Sublist.refl _
  | cons first _ ih =>
    rw [List.flatMap_cons, List.flatten_cons, List.filter_append, List.filter_append]
    refine List.Sublist.append ?_ ih
    rw [first.queued.order key]
    exact List.sublist_append_left _ _

/-- Of each file or source the opstore processes flush, and hold, a part of what the gateway
handed on, in this order and no object more often than it was handed on. -/
theorem written_in_order (codec : Codec) (parsers : Parsers) (p : Pydantic) (pg : Opstore.Postgres)
    (db : Opstore.Database) (es : List DeploymentEvent) (d : Deployment)
    (reached : run (step codec parsers p pg) (start db) es = some d)
    (portable : ∀ c ∈ d.objects, c.Portable p) (key : String) :
    ((d.processes.flatMap (fun s => s.taken.flatten)).filter
        (fun c => Opstore.bufferKey pg c = key) ++ d.opstore.buffer.queue key).Sublist
      (d.objects.filter (fun c => Opstore.bufferKey pg c = key)) := by
  have inv := delivered_run reached
  obtain ⟨before, now, ended, running, read⟩ := inv.read
  have order := running.queued.order key
  have arrived : (before.flatten ++ now).Sublist d.objects := by
    rw [← read, ← read_objects portable]
    exact (d.bus.arrived_sublist.trans inv.sent).filterMap _
  have flushed : (d.processes.flatMap (fun s => s.taken.flatten)).filter
        (fun c => Opstore.bufferKey pg c = key) ++ d.opstore.buffer.queue key =
      (d.earlier.flatMap (fun s => s.taken.flatten)).filter
        (fun c => Opstore.bufferKey pg c = key) ++
        now.filter (fun c => Opstore.bufferKey pg c = key) := by
    simp [processes, order]
  rw [flushed]
  refine List.Sublist.trans ?_ (arrived.filter _)
  rw [List.filter_append]
  exact (taken_sublist ended key).append_right _

theorem written_in_order_oneRow :
    ∃ d, run (step Reader.codec onePoint plainPydantic Opstore.plainPostgres)
        (start ⟨.empty, []⟩) oneRow = some d ∧ d.opstore.db.cto.keys = [0] ∧
      ((d.processes.flatMap (fun s => s.taken.flatten)).filter
          (fun c => Opstore.bufferKey Opstore.plainPostgres c = "stream:folder:/inbox") ++
        d.opstore.buffer.queue "stream:folder:/inbox").Sublist (d.objects.filter
          (fun c => Opstore.bufferKey Opstore.plainPostgres c = "stream:folder:/inbox")) := by
  obtain ⟨d, reached, one, _, portable⟩ := oneRow_reached
  exact ⟨d, reached, one, written_in_order Reader.codec onePoint plainPydantic
    Opstore.plainPostgres _ _ d reached (List.forall_mem_map.mpr portable) _⟩

/-- Whatever fails, is lost or restarts, an object that was handed on has a row, or it is where
its publish raised, on the bus, among what the bus lost or with an opstore process that did not
write it. -/
theorem handed_has_row_or_missing (codec : Codec) (parsers : Parsers) (p : Pydantic)
    (pg : Opstore.Postgres) (db : Opstore.Database) (es : List DeploymentEvent) (d : Deployment)
    (reached : run (step codec parsers p pg) (start db) es = some d)
    (portable : ∀ c ∈ d.objects, c.Portable p) :
    ∀ c ∈ d.objects, c.uid ∈ d.opstore.db.cto.keys ∨ d.Missing p c := by
  have inv := delivered_run reached
  obtain ⟨before, now, ended, running, read⟩ := inv.read
  have traced {s : Opstore.Service} (process : s ∈ d.processes) {c : CTO} (kept : s.Traced c)
      (grown : ∀ uid ∈ s.db.cto.keys, uid ∈ d.opstore.db.cto.keys) :
      c.uid ∈ d.opstore.db.cto.keys ∨ d.Missing p c :=
    kept.imp (grown _) (fun unwritten => .inr (.inr (.inr ⟨s, process, unwritten⟩)))
  intro c member
  rcases inv.published c member with sent | raised
  · rcases (d.bus.mem_sent_iff _).mp sent with arrived | flying | lost
    · have received : c ∈ before.flatten ++ now := by
        rw [← read, List.mem_filterMap]
        exact ⟨_, arrived, readMessage_modelDumpJson (portable c member)⟩
      rcases List.mem_append.mp received with early | late
      · obtain ⟨part, among, own⟩ := List.mem_flatten.mp early
        obtain ⟨s, process, handled⟩ := Table.forall₂_left ended among
        exact traced (List.mem_append_left _ process) (handled.kept.traced c own)
          (inv.rows s process)
      · exact traced (List.mem_append_right _ (List.mem_singleton.mpr rfl))
          (running.kept.traced c late) (fun _ known => known)
    · exact .inr (.inr (.inl flying))
    · exact .inr (.inr (.inr (.inl lost)))
  · exact .inr (.inl raised)

theorem handed_has_row_or_missing_oneRow :
    ∃ d, run (step Reader.codec onePoint plainPydantic Opstore.plainPostgres)
        (start ⟨.empty, []⟩) oneRow = some d ∧
      ∀ c ∈ d.objects, c.uid ∈ d.opstore.db.cto.keys ∨ d.Missing plainPydantic c := by
  obtain ⟨d, reached, _, _, portable⟩ := oneRow_reached
  exact ⟨d, reached, handed_has_row_or_missing Reader.codec onePoint plainPydantic
    Opstore.plainPostgres _ _ d reached (List.forall_mem_map.mpr portable)⟩

end Deployment

end TacticalGateway
