import TacticalGateway.Deployment.Forensics
import TacticalGateway.Routes.Senders
import TacticalGateway.Routes.Valve

/-! The gateway with its routes: what the listeners hand on is dispatched too, a dispatch sends
through the sender of its destination, and the senders write to their connections. -/
namespace TacticalGateway
open Text Execution Gateway Capture
open Routes (TcpSender.step TcpSender.start Translators Destination Route)

def Routes.Destination.key (dest : Destination) : String :=
  dest.kind.value ++ "://" ++ dest.host ++ ":" ++ decimal dest.port

def Routes.System.awaited (s : Routes.System) (n : Nat) : Option (Destination × Bytes) := do
  let c ← s.calls[n]?
  let route ← s.engine.routes[← c.awaiting]?
  let data ← (← c.attempts.getLast?).data
  return (route.destination, data)

/-- Only the listeners have the sink that dispatches. -/
def Gateway.Message.dispatched (m : Message) : Bool :=
  match m.source with
  | .cotXmlTcp _ | .cotXmlUdp _ | .cotPbTcp _ => true
  | .kmzFile _ _ _ | .ovlFile _ _ _ => false

/-- A dispatch that awaits a call of the sender with this key. -/
structure Sending where
  dispatch : Nat
  key : String
  op : Nat

/-- `senders` are those of TCP destinations; `published` has the objects of a sink that has not gone
on to the routes. -/
structure Relay where
  gateway : Process
  published : List CTO
  routes : Routes.System
  senders : Dict String Routes.TcpSender.State
  sending : List Sending

inductive RelayEvent where
  | gateway (e : ProcessEvent)
  | hand (id : Nat)
  | dispatch (i : Nat)
  | setEnabled (id : String) (enabled : Bool)
  | sendEnds (n : Nat) (now : Datetime)
  | datagramEnds (n : Nat) (outcome : Routes.Outcome)
  | sender (key : String) (e : Routes.TcpSender.Event)

namespace Relay

/-- The `send` that a dispatch has come to, up to its first await. -/
def request (r : Relay) (n : Nat) : Option Relay :=
  match r.routes.awaited n with
  | none => some r
  | some (dest, data) =>
    match dest.kind with
    | .udp => some r
    | .tcp =>
      let sender := (r.senders.get? dest.key).getD TcpSender.start
      (TcpSender.step sender (.call (.send data))).map (fun s =>
        { r with
          senders := r.senders.set dest.key s
          sending := r.sending ++ [⟨n, dest.key, sender.calls.length⟩] })

variable (codec : Codec) (parsers : Parsers) (tr : Translators) (config : List Route)

/-- A process that starts has loaded its routes, and no connections. -/
def boot (g : Process) : Relay := ⟨g, [], Routes.start config, .empty, []⟩

/-- A dispatch whose `send` has ended goes on to the next route. -/
def resume (r : Relay) (n : Nat) (outcome : Routes.Outcome) : Option Relay :=
  (Routes.step tr r.routes (.sendEnds n outcome)).bind (fun s =>
    request { r with routes := s, sending := r.sending.filter (fun x => x.dispatch ≠ n) } n)

def step (r : Relay) : RelayEvent → Option Relay
  | .gateway (.hand _) => none
  | .gateway (.capture .crash) =>
    (processStep codec parsers r.gateway (.capture .crash)).map (boot config)
  | .gateway e => (processStep codec parsers r.gateway e).map (fun g => { r with gateway := g })
  | .hand id =>
    match r.gateway.tasks.find? (fun t => t.id = id), r.gateway.next id,
      processStep codec parsers r.gateway (.hand id) with
    | some task, some cto, some g =>
      let published := if task.message.dispatched then r.published ++ [cto] else r.published
      some { r with gateway := g, published := published }
    | _, _, _ => none
  | .dispatch i =>
    match r.published[i]? with
    | some cto =>
      (Routes.step tr r.routes (.handleCto cto)).bind (fun s =>
        request { r with routes := s, published := r.published.eraseIdx i } r.routes.calls.length)
    | none => none
  | .setEnabled id enabled =>
    (Routes.step tr r.routes (.setEnabled id enabled)).map (fun s => { r with routes := s })
  | .sendEnds n now =>
    match r.sending.find? (fun x => x.dispatch = n) with
    | some x =>
      match (r.senders.get? x.key).bind (fun s => s.ended.lookup x.op) with
      | some true => resume tr r n (.sent now)
      | some false => resume tr r n .raised
      | none => none
    | none => none
  | .datagramEnds n outcome =>
    match r.routes.awaited n with
    | some (⟨.udp, _, _, _, _⟩, _) => resume tr r n outcome
    | _ => none
  -- the calls of a sender come from the dispatches, and from the end of the process; no dispatch is
  -- cancelled before
  | .sender _ (.call (.send _)) => none
  | .sender _ (.cancel _) => none
  | .sender key e =>
    (r.senders.get? key).bind (fun sender => (TcpSender.step sender e).map (fun s =>
      { r with senders := r.senders.set key s }))

/-- The step function as a relation, a constructor for each thing that can happen. -/
inductive Transition (r : Relay) : Relay → Prop where
  | gateway (e : ProcessEvent) (g : Process)
      (stepped : processStep codec parsers r.gateway e = some g)
      (quiet : g.handed = r.gateway.handed) : Transition r { r with gateway := g }
  | crashed (g : Process)
      (stepped : processStep codec parsers r.gateway (.capture .crash) = some g) :
      Transition r (boot config g)
  | handed (id : Nat) (g : Process) (cto : CTO) (data : Bytes) (published : List CTO)
      (stepped : processStep codec parsers r.gateway (.hand id) = some g)
      (handed : g.handed = r.gateway.handed ++ [⟨cto, data⟩])
      (more : published ⊆ r.published ++ [cto]) :
      Transition r { r with gateway := g, published := published }
  | toggled (id : String) (enabled : Bool) (s : Routes.System)
      (stepped : Routes.step tr r.routes (.setEnabled id enabled) = some s) :
      Transition r { r with routes := s }
  | routed (event : Routes.Event) (s : Routes.System) (published : List CTO)
      (sending : List Sending) (n : Nat) (r' : Relay)
      (stepped : Routes.step tr r.routes event = some s)
      (own : ∀ cto ∈ event.cto?, cto ∈ r.published) (rest : published ⊆ r.published)
      (requested : request ⟨r.gateway, published, s, r.senders, sending⟩ n = some r') :
      Transition r r'
  | sender (key : String) (e : Routes.TcpSender.Event) (s s' : Routes.TcpSender.State)
      (own : r.senders.get? key = some s) (stepped : TcpSender.step s e = some s')
      (quiet : ∀ data, e ≠ .call (.send data)) :
      Transition r { r with senders := r.senders.set key s' }

variable {codec : Codec} {parsers : Parsers} {tr : Translators} {config : List Route}

theorem resume_cases {r r' : Relay} {n : Nat} {outcome : Routes.Outcome}
    (h : resume tr r n outcome = some r') : Transition codec parsers tr config r r' := by
  obtain ⟨s, moved, requested⟩ := Option.bind_eq_some_iff.mp h
  refine .routed (.sendEnds n outcome) s r.published _ n r' moved ?_ (List.Subset.refl _) requested
  intro cto began
  cases began

theorem step_cases {r r' : Relay} {e : RelayEvent}
    (h : step codec parsers tr config r e = some r') :
    Transition codec parsers tr config r r' := by
  cases e with
  | gateway e =>
    have kept (e : ProcessEvent) (other : ∀ id, e ≠ .hand id)
        (moved : (processStep codec parsers r.gateway e).map (fun g => { r with gateway := g }) =
          some r') : Transition codec parsers tr config r r' := by
      obtain ⟨g, stepped, rfl⟩ := Option.map_eq_some_iff.mp moved
      exact .gateway e g stepped (Deployment.handed_quiet stepped other)
    cases e with
    | hand id => cases h
    | receive m => exact kept (.receive m) nofun h
    | normalize id draw => exact kept (.normalize id draw) nofun h
    | capture e =>
      cases e with
      | crash =>
        simp only [step] at h
        obtain ⟨g, stepped, rfl⟩ := Option.map_eq_some_iff.mp h
        exact .crashed g stepped
      | call request => exact kept (.capture (.call request)) nofun h
      | grant id => exact kept (.capture (.grant id)) nofun h
      | effect => exact kept (.capture .effect) nofun h
      | resume => exact kept (.capture .resume) nofun h
      | fail => exact kept (.capture .fail) nofun h
  | hand id =>
    simp only [step] at h
    split at h
    · rename_i task cto g found next stepped
      obtain ⟨data, handed⟩ := Deployment.handed_next next stepped
      cases h
      refine .handed id g cto data _ stepped handed ?_
      split
      · exact List.Subset.refl _
      · exact List.subset_append_left _ _
    · cases h
  | dispatch i =>
    simp only [step] at h
    split at h
    · rename_i cto at_i
      obtain ⟨s, stepped, requested⟩ := Option.bind_eq_some_iff.mp h
      refine .routed (.handleCto cto) s _ _ _ r' stepped ?_ List.eraseIdx_subset requested
      intro other began
      cases Option.some.inj began
      exact List.mem_of_getElem? at_i
    · cases h
  | setEnabled id enabled =>
    simp only [step] at h
    obtain ⟨s, stepped, rfl⟩ := Option.map_eq_some_iff.mp h
    exact .toggled id enabled s stepped
  | sendEnds n now =>
    simp only [step] at h
    split at h
    · split at h
      · exact resume_cases h
      · exact resume_cases h
      · cases h
    · cases h
  | datagramEnds n outcome =>
    simp only [step] at h
    split at h
    · exact resume_cases h
    · cases h
  | sender key e =>
    have kept (e : Routes.TcpSender.Event) (quiet : ∀ data, e ≠ .call (.send data))
        (moved : (r.senders.get? key).bind (fun sender => (TcpSender.step sender e).map (fun s =>
          { r with senders := r.senders.set key s })) = some r') :
        Transition codec parsers tr config r r' := by
      obtain ⟨s, own, later⟩ := Option.bind_eq_some_iff.mp moved
      obtain ⟨s', stepped, rfl⟩ := Option.map_eq_some_iff.mp later
      exact .sender key e s s' own stepped quiet
    cases e with
    | call op =>
      cases op with
      | send data => cases h
      | close => exact kept (.call .close) nofun h
    | grant => exact kept .grant nofun h
    | connection made => exact kept (.connection made) nofun h
    | resume => exact kept .resume nofun h
    | drained ok => exact kept (.drained ok) nofun h
    | closed => exact kept .closed nofun h
    | lost i => exact kept (.lost i) nofun h
    | cancel id => cases h
end Relay

namespace Routes

variable {tr : Translators} {config : List Route} {s u : System} {time : Nat} {c c' : Call}

structure Call.Continues (c c' : Call) : Prop where
  cto : c'.cto = c.cto
  turns : c.turns <+: c'.turns
  attempts : c.attempts <+: c'.attempts

theorem Visit.continues {route : Route} {e e' : Engine} (visit : Visit tr time route e c e' c') :
    c.Continues c' := by
  cases visit with
  | passed unwanted => exact ⟨rfl, List.prefix_append _ _, List.prefix_rfl⟩
  | failed exn wanted refused => exact ⟨rfl, List.prefix_append _ _, List.prefix_append _ _⟩
  | sending data lossy wanted made => exact ⟨rfl, List.prefix_append _ _, List.prefix_append _ _⟩

theorem Visits.continues {rest : List Route} {e e' : Engine}
    (visits : Visits tr time rest e c e' c') : c.Continues c' := by
  induction visits with
  | done => exact ⟨rfl, List.prefix_rfl, List.prefix_rfl⟩
  | next visit _ _ ih =>
    have first := visit.continues
    exact ⟨ih.cto.trans first.cto, first.turns.trans ih.turns, first.attempts.trans ih.attempts⟩
  | suspended visit => exact visit.continues

theorem Move.continues {event : Event} (move : Move tr s event u) :
    ∀ c ∈ s.calls, ∃ c' ∈ u.calls, c.Continues c' := by
  intro c member
  cases move with
  | began => exact ⟨c, List.mem_append_left _ member, rfl, List.prefix_rfl, List.prefix_rfl⟩
  | toggled => exact ⟨c, member, rfl, List.prefix_rfl, List.prefix_rfl⟩
  | @resumed n p outcome route awaiting later e found awaits at_route visits =>
    obtain ⟨i, at_i⟩ := List.mem_iff_getElem?.mp member
    have bound := (List.getElem?_eq_some_iff.mp found).1
    by_cases same : n = i
    · rw [← same, found] at at_i
      cases Option.some.inj at_i
      refine ⟨later, List.mem_set bound _, ?_⟩
      have went_on := visits.continues
      exact ⟨went_on.cto, went_on.turns, went_on.attempts⟩
    · refine ⟨c, List.mem_of_getElem? (i := i) ?_, rfl, List.prefix_rfl, List.prefix_rfl⟩
      rw [List.getElem?_set_ne same, at_i]

/-- A dispatch of the object has made this message for a destination with the key: at the turn of
a route that was enabled and matched. -/
def Routed (tr : Translators) (s : System) (key : String) (data : Bytes) (cto : CTO) : Prop :=
  ∃ c ∈ s.calls, c.cto = cto ∧ ∃ a ∈ c.attempts, ∃ t, c.turns[a.position]? = some t ∧
    t.wanted cto = true ∧ t.route.destination.key = key ∧ t.made tr cto = some data

theorem Routed.later {event : Event} {key : String} {data : Bytes} {cto : CTO}
    (routed : Routed tr s key data cto) (move : Move tr s event u) :
    Routed tr u key data cto := by
  obtain ⟨c, member, own, a, tried, t, at_a, facts⟩ := routed
  obtain ⟨c', still, later⟩ := move.continues c member
  have bound := (List.getElem?_eq_some_iff.mp at_a).1
  refine ⟨c', still, later.cto.trans own, a, later.attempts.subset tried, t, ?_, facts⟩
  obtain ⟨more, same⟩ := later.turns
  rw [← same, List.getElem?_append_left bound, at_a]

theorem Recorded.awaited {events : List Event} (recorded : Recorded tr config events s) {n : Nat}
    {dest : Destination} {data : Bytes} (awaits : s.awaited n = some (dest, data)) :
    ∃ c ∈ s.calls, Routed tr s dest.key data c.cto := by
  simp only [System.awaited, Option.bind_eq_bind, Option.bind_eq_some_iff, Option.pure_def,
    Option.some.injEq, Prod.mk.injEq] at awaits
  obtain ⟨c, at_n, p, waiting, route, at_p, last, tried, made, given, rfl, rfl⟩ := awaits
  have member := List.mem_of_getElem? at_n
  have faithful := recorded.calls c member
  obtain ⟨_, _, newest⟩ := faithful.tried.awaiting p waiting
  rw [newest] at tried
  cases Option.some.inj tried
  cases Option.some.inj given
  have among := List.mem_of_getLast? newest
  obtain ⟨t, at_turn, same⟩ := faithful.tried.made _ among
  obtain ⟨u, at_wanted, wanted⟩ := mem_wantedPositions.mp
    (faithful.tried.attempts ▸ List.mem_map_of_mem among)
  rw [at_turn] at at_wanted
  cases Option.some.inj at_wanted
  refine ⟨c, member, c, member, rfl, _, among, t, at_turn, wanted, ?_, same.symm⟩
  -- the turn found the configured route, up to its switch
  obtain ⟨r, configured, found⟩ := (faithful.looked p t at_turn).2.configured
  have switched := congrArg (fun routes => routes[p]?) recorded.routes
  simp only [List.getElem?_map, at_p, configured, Option.map_some, Option.some.injEq] at switched
  have destinations : route.opened.destination = r.opened.destination :=
    congrArg Route.destination switched
  change route.destination = r.destination at destinations
  rw [found, destinations]

end Routes

namespace Relay

variable {codec : Codec} {parsers : Parsers} {tr : Translators} {config : List Route}

def objects (r : Relay) : List CTO := r.gateway.handed.map Handed.cto

structure Traceable (tr : Translators) (config : List Route) (r : Relay) : Prop where
  process : ProcessInv r.gateway
  published : r.published ⊆ r.objects
  recorded : ∃ events, Routes.Recorded tr config events r.routes
  dispatched : ∀ c ∈ r.routes.calls, c.cto ∈ r.objects
  sent : ∀ key s, r.senders.get? key = some s → Routes.TcpSender.Sound s ∧
    ∀ data, .send data ∈ s.calls → ∃ cto, Routes.Routed tr r.routes key data cto

theorem traceable_boot {g : Process} (inv : ProcessInv g) :
    Traceable tr config (boot config g) where
  process := inv
  published := List.nil_subset _
  recorded := ⟨[], Routes.recorded_start config⟩
  dispatched := by simp [boot, Routes.start]
  sent := by simp [boot]

theorem traceable_request {r r' : Relay} {n : Nat} (inv : Traceable tr config r)
    (requested : request r n = some r') : Traceable tr config r' := by
  unfold request at requested
  split at requested
  · cases requested
    exact inv
  · rename_i dest data awaits
    split at requested
    · cases requested
      exact inv
    · obtain ⟨s, called, rfl⟩ := Option.map_eq_some_iff.mp requested
      refine ⟨inv.process, inv.published, inv.recorded, inv.dispatched, ?_⟩
      obtain ⟨events, recorded⟩ := inv.recorded
      obtain ⟨c, member, routed⟩ := recorded.awaited awaits
      have before : Routes.TcpSender.Sound ((r.senders.get? dest.key).getD TcpSender.start) ∧
          ∀ data, .send data ∈ ((r.senders.get? dest.key).getD TcpSender.start).calls →
            ∃ cto, Routes.Routed tr r.routes dest.key data cto := by
        cases there : r.senders.get? dest.key with
        | none => exact ⟨Routes.TcpSender.sound_start, nofun⟩
        | some sender => exact inv.sent dest.key sender there
      intro key sender there
      by_cases same : key = dest.key
      · rw [same, Dict.get?_set_self] at there
        cases Option.some.inj there
        refine ⟨Routes.TcpSender.sound_step before.1 called, ?_⟩
        intro other asked
        rw [Routes.TcpSender.step_calls called, List.mem_append] at asked
        rw [same]
        rcases asked with old | new
        · exact before.2 other old
        · cases List.mem_singleton.mp new
          exact ⟨c.cto, routed⟩
      · rw [Dict.get?_set_ne _ _ same] at there
        exact inv.sent key sender there

theorem traceable_routes {r : Relay} {event : Routes.Event} {s : Routes.System}
    (inv : Traceable tr config r) (stepped : Routes.step tr r.routes event = some s)
    (own : ∀ cto ∈ event.cto?, cto ∈ r.published) : Traceable tr config { r with routes := s } where
  process := inv.process
  published := inv.published
  recorded := by
    obtain ⟨events, recorded⟩ := inv.recorded
    exact ⟨events ++ [event], recorded.move stepped⟩
  dispatched := by
    intro c member
    have objects := congrArg (List.map Prod.snd) (Routes.step_move stepped).calls
    rw [List.map_append, List.map_map, List.map_map] at objects
    have among : c.cto ∈ s.calls.map Routes.Call.cto := List.mem_map_of_mem member
    have split : c.cto ∈ r.routes.calls.map Routes.Call.cto ++ event.cto?.toList := by
      cases began : event.cto? with
      | none =>
        rw [began] at objects
        exact objects ▸ among
      | some cto =>
        rw [began] at objects
        exact objects ▸ among
    rcases List.mem_append.mp split with old | new
    · obtain ⟨before, there, same⟩ := List.mem_map.mp old
      exact same ▸ inv.dispatched before there
    · exact inv.published (own c.cto (Option.mem_toList.mp new))
  sent := by
    intro key sender there
    obtain ⟨sound, asked⟩ := inv.sent key sender there
    refine ⟨sound, fun data call => ?_⟩
    obtain ⟨cto, routed⟩ := asked data call
    exact ⟨cto, routed.later (Routes.step_move stepped)⟩

theorem Traceable.grow {r : Relay} {g : Process} {published : List CTO}
    (inv : Traceable tr config r) (process : ProcessInv g) (more : List Handed)
    (handed : g.handed = r.gateway.handed ++ more)
    (known : published ⊆ r.published ++ more.map Handed.cto) :
    Traceable tr config { r with gateway := g, published := published } := by
  have objects : ({ r with gateway := g, published := published } : Relay).objects =
      r.objects ++ more.map Handed.cto := by
    simp only [Relay.objects, handed, List.map_append]
  refine ⟨process, ?_, inv.recorded, ?_, inv.sent⟩
  · rw [objects]
    exact List.Subset.trans known (List.append_subset.mpr
      ⟨List.subset_append_of_subset_left _ inv.published, List.subset_append_right _ _⟩)
  · intro c member
    rw [objects]
    exact List.mem_append_left _ (inv.dispatched c member)

theorem traceable_step (keep : parsers.KeepPointer) {r r' : Relay} {e : RelayEvent}
    (inv : Traceable tr config r) (h : step codec parsers tr config r e = some r') :
    Traceable tr config r' := by
  cases step_cases h with
  | gateway e g stepped quiet =>
    exact inv.grow (inv_step keep inv.process stepped) []
      (quiet.trans (List.append_nil _).symm) (List.subset_append_left _ _)
  | crashed g stepped => exact traceable_boot (inv_step keep inv.process stepped)
  | handed id g cto data published stepped handed more =>
    exact inv.grow (inv_step keep inv.process stepped) [⟨cto, data⟩] handed more
  | toggled id enabled s stepped =>
    refine traceable_routes inv stepped ?_
    intro cto began
    cases began
  | routed event s published sending n r' stepped own rest requested =>
    have moved := traceable_routes inv stepped own
    have fewer : Traceable tr config ⟨r.gateway, published, s, r.senders, sending⟩ :=
      ⟨moved.process, List.Subset.trans rest moved.published, moved.recorded, moved.dispatched,
        moved.sent⟩
    exact traceable_request fewer requested
  | sender key e s s' own stepped quiet =>
    refine ⟨inv.process, inv.published, inv.recorded, inv.dispatched, ?_⟩
    intro other sender there
    by_cases same : other = key
    · rw [same, Dict.get?_set_self] at there
      cases Option.some.inj there
      obtain ⟨sound, asked⟩ := inv.sent key s own
      refine ⟨Routes.TcpSender.sound_step sound stepped, ?_⟩
      intro data call
      rw [same]
      rw [Routes.TcpSender.step_calls stepped, List.mem_append] at call
      rcases call with old | new
      · exact asked data old
      · cases e with
        | call op => exact absurd (List.mem_singleton.mp new ▸ rfl) (quiet data)
        | _ => cases new
    · rw [Dict.get?_set_ne _ _ same] at there
      exact inv.sent other sender there

/-- Every message on a connection of a route was made of an object that the gateway has handed on,
at the turn of a route to there that was enabled and matched, and the bucket has the bytes this
object was made from, whatever fails, is lost or restarts on the way. -/
theorem egress_is_traceable (codec : Codec) (parsers : Parsers) (keep : parsers.KeepPointer)
    (tr : Translators) (config : List Route) (es : List RelayEvent) (r : Relay)
    (reached : run (step codec parsers tr config) (boot config .init) es = some r)
    (no_collision : ∀ a ∈ captured r.gateway.capture, ∀ b ∈ captured r.gateway.capture,
      TacticalGateway.sha256 a = TacticalGateway.sha256 b → a = b) :
    ∀ key s, r.senders.get? key = some s → ∀ c ∈ s.connections, ∀ data ∈ c.written,
      ∃ h ∈ r.gateway.handed, Routes.Routed tr r.routes key data h.cto ∧
        Evidence codec r.gateway.capture.bucket h.cto h.data := by
  have inv : Traceable tr config r :=
    state_invariant (Traceable tr config) (traceable_boot inv_start)
      (fun _ _ _ inv _ h => traceable_step keep inv h) (along_true _ _ _) reached
  intro key s there c connected data written
  obtain ⟨sound, asked⟩ := inv.sent key s there
  have line := sound.sublist.subset (List.mem_flatMap.mpr ⟨c, connected, written⟩)
  obtain ⟨op, call, sends⟩ := List.mem_filterMap.mp line
  have own : op = .send data := by
    cases op with
    | send other => exact congrArg Routes.TcpSender.Operation.send (Option.some.inj sends)
    | close => cases sends
  obtain ⟨cto, routed⟩ := asked data (own ▸ call)
  obtain ⟨dispatch, member, rfl, _⟩ := id routed
  obtain ⟨h, handed, same⟩ := List.mem_map.mp (inv.dispatched dispatch member)
  obtain ⟨j, linked⟩ := inv.process.linked
  exact ⟨h, handed, same ▸ routed,
    evidence_of_traced codec linked (inv.process.handed h handed) no_collision⟩
theorem run_gateway {r : Relay} {es : List ProcessEvent} {g : Process}
    (quiet : ∀ e ∈ es, (∀ id, e ≠ .hand id) ∧ e ≠ .capture .crash)
    (ran : run (processStep codec parsers) r.gateway es = some g) :
    run (step codec parsers tr config) r (es.map .gateway) = some { r with gateway := g } := by
  refine run_embed (f := fun g => { r with gateway := g }) ?_ ran
  intro e member g g' stepped
  obtain ⟨no_hand, no_crash⟩ := quiet e member
  cases e with
  | hand id => exact absurd rfl (no_hand id)
  | capture e =>
    cases e with
    | crash => exact absurd rfl no_crash
    | _ => simp only [step, stepped, Option.map_some]
  | _ => simp only [step, stepped, Option.map_some]

def north : Route where
  id := "north"
  destination := ⟨.tcp, "192.0.2.9", 8089, .cotXml, by decide⟩

/-- The datagram all the way to a connection of the route. -/
def oneMessage : List RelayEvent :=
  Deployment.oneObject.map .gateway ++ [.hand 0, .dispatch 0,
    .sender north.destination.key (.connection true), .sender north.destination.key .resume,
    .sender north.destination.key (.drained true)]

theorem north_made (x : RawPointer) : ∃ data lossy,
    Routes.translate Routes.reportTranslators (originPoint x) .cotXml = .ok (data, lossy) := by
  have there : Normalizers.astimezone Normalizers.plainRuntime newYear = some newYear := by
    decide +kernel
  have event := Normalizers.ctoToEvent_ok Normalizers.plainRuntime (originPoint x) there there there
    rfl rfl
  exact ⟨_, _, Normalizers.ctoToCotXml_eq_ok_iff.mpr ⟨_, event, rfl⟩⟩

theorem oneMessage_reached :
    ∃ r, run (step Reader.codec onePoint Routes.reportTranslators [north]) (boot [north] .init)
        oneMessage = some r ∧ captured r.gateway.capture = [[0x3C]] ∧
      ∃ s, r.senders.get? north.destination.key = some s ∧
        s.connections.map (fun c => c.written.length) = [1] := by
  obtain ⟨g, x, ran, tasks, handed, -, bytes⟩ := Deployment.oneObject_reached
  obtain ⟨data, lossy, made⟩ := north_made x
  have first : run (step Reader.codec onePoint Routes.reportTranslators [north])
      (boot [north] .init) (Deployment.oneObject.map .gateway) = some (boot [north] g) :=
    run_gateway (by simp [Deployment.oneObject]) ran
  have handing : step Reader.codec onePoint Routes.reportTranslators [north] (boot [north] g)
      (.hand 0) = some
        ⟨⟨g.capture, [⟨0, Deployment.datagram, some []⟩], [⟨originPoint x, [0x3C]⟩]⟩,
          [originPoint x], Routes.start [north], .empty, []⟩ := by
    simp [step, boot, processStep, Process.next, Process.update, tasks, handed,
      Deployment.datagram, Message.dispatched]
  have turned (e : Routes.Engine) : Routes.dispatch Routes.reportTranslators 0 [north] e
      { began := 0, cto := originPoint x } =
        ((e.count "north" .countMatched).senderFor north.destination,
          (Routes.Call.look { began := 0, cto := originPoint x } ⟨0, north⟩).attempt
            (some data)) := by
    have made : Routes.translate Routes.reportTranslators
        (Routes.Call.look { began := 0, cto := originPoint x } ⟨0, north⟩).cto
          north.destination.format = .ok (data, lossy) := made
    rw [Routes.dispatch]
    simp only
    rw [made]
    rfl
  let e : Routes.Engine := ⟨[north], Routes.startStats [north], .empty⟩
  let taken : Routes.System :=
    ⟨(e.count "north" .countMatched).senderFor north.destination,
      [(Routes.Call.look { began := 0, cto := originPoint x } ⟨0, north⟩).attempt (some data)], 1⟩
  have moved : Routes.step Routes.reportTranslators (Routes.start [north])
      (.handleCto (originPoint x)) = some taken := by
    simp only [Routes.step, Routes.start, turned]
    rfl
  have dispatching (g : Process) : step Reader.codec onePoint Routes.reportTranslators [north]
      ⟨g, [originPoint x], Routes.start [north], .empty, []⟩ (.dispatch 0) =
        request ⟨g, [], taken, .empty, []⟩ 0 := by
    simp only [step, List.getElem?_cons_zero, moved, Option.bind_some]
    rfl
  rw [oneMessage, run_append, first, Option.bind_some, run_cons, handing, Option.bind_some,
    run_cons, dispatching]
  exact ⟨_, rfl, bytes, _, rfl, rfl⟩

/-- The datagram, and the message made of its object on the connection. -/
theorem egress_is_traceable_oneMessage :
    ∃ r, run (step Reader.codec onePoint Routes.reportTranslators [north]) (boot [north] .init)
        oneMessage = some r ∧
      ∀ key s, r.senders.get? key = some s → ∀ c ∈ s.connections, ∀ data ∈ c.written,
        ∃ h ∈ r.gateway.handed, Routes.Routed Routes.reportTranslators r.routes key data h.cto ∧
          Evidence Reader.codec r.gateway.capture.bucket h.cto h.data := by
  obtain ⟨r, reached, bytes, -⟩ := oneMessage_reached
  refine ⟨r, reached, egress_is_traceable Reader.codec onePoint onePoint_keepPointer
    Routes.reportTranslators [north] oneMessage r reached ?_⟩
  intro a first b second _
  rw [bytes, List.mem_singleton] at first second
  rw [first, second]

end Relay

end TacticalGateway
