import TacticalGateway.Listeners.ProtobufFraming
import TacticalGateway.Routes.Senders

/-! Two gateways on one link: what the sender of a protobuf route writes, as the protobuf listener
of the next gateway reads it. -/
namespace TacticalGateway.Routes
open Text Execution Listeners TcpSender

theorem parts_of_lines {frame : Bytes → Bytes} {connections : List Connection}
    {payloads : List Bytes}
    (lines : connections.flatMap Connection.written = payloads.map frame) :
    ∃ parts, List.Forall₂ (fun c part => c.written = part.map frame) connections parts ∧
      parts.flatten = payloads := by
  induction connections generalizing payloads with
  | nil =>
    have nothing : payloads = [] := List.map_eq_nil_iff.mp lines.symm
    exact ⟨[], .nil, nothing.symm⟩
  | cons c connections ih =>
    rw [List.flatMap_cons] at lines
    obtain ⟨part, rest, rfl, own, later⟩ := List.map_eq_append_iff.mp lines.symm
    obtain ⟨parts, each, rfl⟩ := ih later.symm
    exact ⟨part :: parts, .cons own.symm each, rfl⟩

section
variable {frame : Bytes → Bytes} {read : List Bytes → List Bytes} {clean : List Bytes → Prop}

theorem received_sublist {connections : List Connection} {parts streams : List (List Bytes)}
    (each : List.Forall₂ (fun c part => c.written = part.map frame) connections parts)
    (arrived : List.Forall₂ (fun c chunks => chunks.flatten <+: c.written.flatten) connections
      streams)
    (reads : ∀ part ∈ parts, ∀ chunks, chunks.flatten <+: (part.map frame).flatten →
      read chunks <+: part ∧ clean chunks) :
    (streams.flatMap read).Sublist parts.flatten ∧ ∀ chunks ∈ streams, clean chunks := by
  induction each generalizing streams with
  | nil =>
    cases arrived
    exact ⟨List.Sublist.refl _, nofun⟩
  | cons own _ ih =>
    cases arrived with
    | cons first rest =>
      obtain ⟨early, ended⟩ := reads _ List.mem_cons_self _ (own ▸ first)
      obtain ⟨later, clean⟩ :=
        ih rest (fun part member => reads part (List.mem_cons_of_mem _ member))
      constructor
      · rw [List.flatMap_cons, List.flatten_cons]
        exact early.sublist.append later
      · exact List.forall_mem_cons.mpr ⟨ended, clean⟩

/-- A reader that makes the front of the messages of any front of their bytes, at the other end of
a sender. -/
theorem link_sublist {events : List TcpSender.Event} {s : State}
    (reached : run TcpSender.step TcpSender.start events = some s) {payloads : List Bytes}
    (sent : s.calls.filterMap Operation.data? = payloads.map frame) {streams : List (List Bytes)}
    (arrived : List.Forall₂ (fun c chunks => chunks.flatten <+: c.written.flatten) s.connections
      streams)
    (reads : ∀ part, part ⊆ payloads → ∀ chunks, chunks.flatten <+: (part.map frame).flatten →
      read chunks <+: part ∧ clean chunks) :
    (streams.flatMap read).Sublist payloads ∧ ∀ chunks ∈ streams, clean chunks := by
  have carried := (sound_run reached).sublist
  rw [sent] at carried
  obtain ⟨some_of, among, lines⟩ := List.sublist_map_iff.mp carried
  obtain ⟨parts, each, rfl⟩ := parts_of_lines lines
  obtain ⟨order, ended⟩ := received_sublist each arrived (fun part member => reads part
    fun p own => among.subset (List.mem_flatten.mpr ⟨part, member, own⟩))
  exact ⟨order.trans among, ended⟩

end

theorem handleClient_front {part chunks : List Bytes} (short : ∀ p ∈ part, p.length < 2 ^ 42)
    (arrived : chunks.flatten <+: (part.map encodeFrame).flatten) :
    (handleClient chunks).1 <+: part ∧ ∃ kept, (handleClient chunks).2 = .ok kept := by
  obtain ⟨more, whole⟩ := arrived
  rw [handleClient, Framing.receive_eq_drain Framing.settled_nil, List.nil_append]
  have delivered : Framing.drain decoder (chunks.flatten ++ more) = (part, .ok []) := by
    rw [whole]
    apply Framing.drain_frames
    intro p member more
    exact look_frame.mpr (tryDecodeFrame_encodeFrame p more (short p member))
  obtain ⟨front, kept, read, early⟩ := Framing.drain_front delivered
  rw [read]
  exact ⟨early, kept, rfl⟩

def received (streams : List (List Bytes)) : List Bytes :=
  streams.flatMap (fun chunks => (handleClient chunks).1)

/-- However the calls of the sender interleave and fail, whenever connections are lost, and however
much of each arrives in whatever chunks: the listener reads some of the payloads, whole, in the
order they were sent and none twice, and never a broken frame. -/
theorem payloads_reach_listener (events : List TcpSender.Event) (s : State)
    (reached : run TcpSender.step TcpSender.start events = some s) (payloads : List Bytes)
    (sent : s.calls.filterMap Operation.data? = payloads.map encodeFrame)
    (short : ∀ p ∈ payloads, p.length < 2 ^ 42) (streams : List (List Bytes))
    (arrived : List.Forall₂ (fun c chunks => chunks.flatten <+: c.written.flatten) s.connections
      streams) :
    (received streams).Sublist payloads ∧
      ∀ chunks ∈ streams, ∃ kept, (handleClient chunks).2 = .ok kept :=
  link_sublist reached sent arrived
    (fun _ among _ front => handleClient_front (fun p member => short p (among member)) front)

def twoFrames : List TcpSender.Event :=
  [.call (.send (encodeFrame [1])), .connection true, .resume, .lost 0, .drained false,
    .call (.send (encodeFrame [2, 3])), .connection true, .resume, .drained true]

theorem payloads_reach_listener_twoFrames :
    ∃ s, run TcpSender.step TcpSender.start twoFrames = some s ∧ s.connections.length = 2 ∧
      (received [[[0xBF, 0x01]], [[0xBF], [0x02, 0xBF, 0x02, 0x03]]]).Sublist [[1], [2, 3]] ∧
      ∀ chunks ∈ [[[0xBF, 0x01]], [[0xBF], [0x02, 0xBF, 0x02, 0x03]]],
        ∃ kept, (handleClient chunks).2 = .ok kept := by
  refine ⟨_, rfl, rfl, payloads_reach_listener twoFrames _ rfl _ rfl ?_ _ ?_⟩
  · intro p member
    have small : p.length ≤ 2 := by
      simp only [List.mem_cons, List.not_mem_nil, or_false] at member
      rcases member with rfl | rfl <;> simp
    exact Nat.lt_of_le_of_lt small (by decide)
  · refine .cons ?_ (.cons ?_ .nil)
    · exact ⟨[0xBF, 0x01],
        by simp [Connection.write, Connection.close, encodeFrame, encodeVarint, magic]⟩
    · exact ⟨[], by simp [Connection.write, encodeFrame, encodeVarint, magic]⟩

end TacticalGateway.Routes
