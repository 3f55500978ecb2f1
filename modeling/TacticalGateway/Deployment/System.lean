import TacticalGateway.Gateway.Linkage
import TacticalGateway.Lib.Channel
import TacticalGateway.Opstore.Custody
import TacticalGateway.Schema.RoundTrip

/-! The two services on one bus: the gateway publishes every object that it hands on, and the
opstore reads what arrives. The bus keeps nothing: a message arrives once or is lost. -/
namespace TacticalGateway
open Text Execution Gateway

/-- The history is that of the objects whose publish raised, and of the opstore processes that
ended before the one that runs. -/
structure Deployment where
  gateway : Process
  bus : Channel Bytes
  unpublished : List CTO
  opstore : Opstore.Service
  earlier : List Opstore.Service

/-- A message is lost where the connection or the subscription fails, or while no opstore runs.
An opstore process can end at any moment; the next one starts on the same database. -/
inductive DeploymentEvent where
  | gateway (e : ProcessEvent)
  | hand (id : Nat) (published : Bool)
  | lose (i : Nat)
  | deliver
  | opstore (e : Opstore.Event Bytes)
  | restart

def Gateway.Process.next (g : Process) (id : Nat) : Option CTO :=
  ((g.tasks.find? (fun t => t.id = id)).bind Task.todo).bind List.head?

namespace Deployment

def objects (d : Deployment) : List CTO := d.gateway.handed.map Handed.cto

def start (db : Opstore.Database) : Deployment := ⟨.init, .empty, [], Opstore.start db, []⟩

variable (codec : Codec) (parsers : Parsers) (p : Pydantic) (pg : Opstore.Postgres)

def step (d : Deployment) : DeploymentEvent → Option Deployment
  | .gateway (.hand _) => none
  | .gateway e => (processStep codec parsers d.gateway e).map (fun g => { d with gateway := g })
  | .hand id published =>
    match d.gateway.next id, processStep codec parsers d.gateway (.hand id) with
    | some cto, some g =>
      if published then some { d with gateway := g, bus := d.bus.send (modelDumpJson p cto) }
      -- the exception is logged, and the object is not published again
      else some { d with gateway := g, unpublished := d.unpublished ++ [cto] }
    | _, _ => none
  | .lose i => (d.bus.lose i).map (fun bus => { d with bus := bus })
  | .deliver =>
    match d.bus.deliver with
    | some (payload, bus) =>
      (Opstore.step (readMessage p) pg d.opstore (.message payload)).map (fun s =>
        { d with bus := bus, opstore := s })
    | none => none
  | .opstore (.message _) => none
  | .opstore e =>
    (Opstore.step (readMessage p) pg d.opstore e).map (fun s => { d with opstore := s })
  | .restart =>
    some { d with opstore := Opstore.start d.opstore.db, earlier := d.earlier ++ [d.opstore] }

/-- The step function as a relation, a constructor for each thing that can happen. -/
inductive Transition (d : Deployment) : Deployment → Prop where
  | gateway (e : ProcessEvent) (g : Process)
      (stepped : processStep codec parsers d.gateway e = some g)
      (quiet : g.handed = d.gateway.handed) : Transition d { d with gateway := g }
  | published (id : Nat) (g : Process) (cto : CTO) (data : Bytes)
      (stepped : processStep codec parsers d.gateway (.hand id) = some g)
      (handed : g.handed = d.gateway.handed ++ [⟨cto, data⟩]) :
      Transition d { d with gateway := g, bus := d.bus.send (modelDumpJson p cto) }
  | unpublished (id : Nat) (g : Process) (cto : CTO) (data : Bytes)
      (stepped : processStep codec parsers d.gateway (.hand id) = some g)
      (handed : g.handed = d.gateway.handed ++ [⟨cto, data⟩]) :
      Transition d { d with gateway := g, unpublished := d.unpublished ++ [cto] }
  | lost (i : Nat) (bus : Channel Bytes) (dropped : d.bus.lose i = some bus) :
      Transition d { d with bus := bus }
  | delivered (payload : Bytes) (bus : Channel Bytes) (s : Opstore.Service)
      (head : d.bus.deliver = some (payload, bus))
      (stepped : Opstore.step (readMessage p) pg d.opstore (.message payload) = some s) :
      Transition d { d with bus := bus, opstore := s }
  | opstore (e : Opstore.Event Bytes) (s : Opstore.Service)
      (stepped : Opstore.step (readMessage p) pg d.opstore e = some s)
      (quiet : ∀ msg, e ≠ .message msg) : Transition d { d with opstore := s }
  | restarted : Transition d
      { d with opstore := Opstore.start d.opstore.db, earlier := d.earlier ++ [d.opstore] }

variable {codec : Codec} {parsers : Parsers} {p : Pydantic} {pg : Opstore.Postgres}

theorem handed_quiet {g g' : Process} {e : ProcessEvent}
    (stepped : processStep codec parsers g e = some g') (quiet : ∀ id, e ≠ .hand id) :
    g'.handed = g.handed := by
  cases e with
  | receive m =>
    simp only [processStep] at stepped
    split at stepped
    · cases stepped
      rfl
    · obtain ⟨u, _, rfl⟩ := Option.map_eq_some_iff.mp stepped
      rfl
  | capture e =>
    obtain ⟨u, tasks, _, _, _, rfl⟩ := capture_event stepped
    rfl
  | normalize id draw =>
    simp only [processStep] at stepped
    split at stepped
    · split at stepped
      · cases stepped
        rfl
      · cases stepped
        rfl
      · cases stepped
    · cases stepped
  | hand id => exact absurd rfl (quiet id)

theorem handed_next {g g' : Process} {id : Nat} {cto : CTO} (next : g.next id = some cto)
    (stepped : processStep codec parsers g (.hand id) = some g') :
    ∃ data, g'.handed = g.handed ++ [⟨cto, data⟩] := by
  simp only [processStep] at stepped
  split at stepped
  · rename_i t found
    split at stepped
    · rename_i first rest todo
      cases stepped
      simp only [Process.next, found, Option.bind_some, todo, List.head?_cons,
        Option.some.injEq] at next
      exact ⟨t.message.data, by rw [next]⟩
    · cases stepped
  · cases stepped

theorem step_cases {d d' : Deployment} {e : DeploymentEvent}
    (h : step codec parsers p pg d e = some d') : Transition codec parsers p pg d d' := by
  cases e with
  | gateway e =>
    cases e with
    | hand id => cases h
    | receive m =>
      obtain ⟨g, stepped, rfl⟩ := Option.map_eq_some_iff.mp h
      exact .gateway _ g stepped (handed_quiet stepped nofun)
    | capture e =>
      obtain ⟨g, stepped, rfl⟩ := Option.map_eq_some_iff.mp h
      exact .gateway _ g stepped (handed_quiet stepped nofun)
    | normalize id draw =>
      obtain ⟨g, stepped, rfl⟩ := Option.map_eq_some_iff.mp h
      exact .gateway _ g stepped (handed_quiet stepped nofun)
  | hand id published =>
    simp only [step] at h
    split at h
    · rename_i cto g next stepped
      obtain ⟨data, handed⟩ := handed_next next stepped
      split at h
      · cases h
        exact .published id g cto data stepped handed
      · cases h
        exact .unpublished id g cto data stepped handed
    · cases h
  | lose i =>
    obtain ⟨bus, dropped, rfl⟩ := Option.map_eq_some_iff.mp h
    exact .lost i bus dropped
  | deliver =>
    simp only [step] at h
    split at h
    · rename_i payload bus head
      obtain ⟨s, stepped, rfl⟩ := Option.map_eq_some_iff.mp h
      exact .delivered payload bus s head stepped
    · cases h
  | opstore e =>
    cases e with
    | message msg => cases h
    | _ =>
      simp only [step, Option.map_eq_some_iff] at h
      obtain ⟨s, stepped, rfl⟩ := h
      exact .opstore _ s stepped nofun
  | restart =>
    cases h
    exact .restarted

end Deployment

end TacticalGateway
