import TacticalGateway.Normalizers.XmlEgress
import TacticalGateway.Routes.Counters

/-! Route isolation and accounting: every call tries exactly the routes that it finds enabled when
their turn comes, and every try is counted once as sent or as an error, or is under way. -/
namespace TacticalGateway.Routes
open Execution
open Normalizers (plainRuntime reportEtree reportEvent reportCto unsurveyed writeElement lossyFields
  report_generated ctoToCotXml exchange)

variable {tr : Translators} {e e' : Engine} {c c' : Call}

/-- The route as the i-th in the state that the first events of the run have led to. -/
def Found (tr : Translators) (config : List Route) (events : List Event) (i : Nat) (t : Turn) :
    Prop :=
  ∃ before s, before <+: events ∧ before.length = t.time ∧
    run (step tr) (start config) before = some s ∧ s.engine.routes[i]? = some t.route

structure Call.Faithful (tr : Translators) (config : List Route) (events : List Event) (c : Call) :
    Prop where
  tried : Exact tr c
  began : c.began ≤ events.length
  looked : ∀ i t, c.turns[i]? = some t → c.began ≤ t.time ∧ Found tr config events i t
  finished : c.awaiting = none → c.turns.length = config.length

def Event.cto? : Event → Option CTO
  | .handleCto cto => some cto
  | _ => none

def callsOf (events : List Event) : List (Nat × CTO) :=
  events.zipIdx.filterMap (fun e => e.1.cto?.map (fun cto => (e.2, cto)))

structure Recorded (tr : Translators) (config : List Route) (events : List Event) (s : System) :
    Prop where
  reached : run (step tr) (start config) events = some s
  clock : s.clock = events.length
  routes : s.engine.routes.map Route.opened = config.map Route.opened
  began : s.calls.map (fun c => (c.began, c.cto)) = callsOf events
  calls : ∀ c ∈ s.calls, c.Faithful tr config events
  balanced : ∀ id, Balanced s.engine id (pendingOn (config.map Route.id) id s.calls)

variable {config : List Route} {events : List Event} {s u : System} {event : Event}

theorem Found.later {i : Nat} {t : Turn} (found : Found tr config events i t) (event : Event) :
    Found tr config (events ++ [event]) i t := by
  obtain ⟨before, s, early, rest⟩ := found
  exact ⟨before, s, early.trans (List.prefix_append events [event]), rest⟩

theorem Call.Faithful.later (faithful : c.Faithful tr config events) (event : Event) :
    c.Faithful tr config (events ++ [event]) where
  tried := faithful.tried
  began := by
    rw [List.length_append]
    exact faithful.began.trans (Nat.le_add_right _ _)
  looked := fun i t at_i =>
    ⟨(faithful.looked i t at_i).1, (faithful.looked i t at_i).2.later event⟩
  finished := faithful.finished

theorem Recorded.continues (recorded : Recorded tr config events s) (free : c.awaiting = none)
    (tried : Exact tr c) (began : c.began ≤ events.length)
    (looked : ∀ i t, c.turns[i]? = some t → c.began ≤ t.time ∧ Found tr config events i t)
    (within : c.turns.length ≤ config.length) (engine : Engine)
    (visits : Visits tr s.clock (s.engine.routes.drop c.turns.length) engine c e' c') :
    c'.Faithful tr config events := by
  obtain ⟨seen, early, turns, finished⟩ := visits.turns
  have same_began := visits.call.2
  refine ⟨visits.exact free tried, same_began.trans_le began, ?_, ?_⟩
  · intro i t at_i
    rw [turns] at at_i
    rw [same_began]
    by_cases old : i < c.turns.length
    · rw [List.getElem?_append_left old] at at_i
      exact looked i t at_i
    · rw [List.getElem?_append_right (by omega), List.getElem?_map] at at_i
      obtain ⟨route, at_seen, same⟩ := Option.map_eq_some_iff.mp at_i
      subst same
      refine ⟨began.trans_eq recorded.clock.symm, events, s, List.prefix_rfl,
        recorded.clock.symm, recorded.reached, ?_⟩
      obtain ⟨unseen, split⟩ := early
      have at_rest : (s.engine.routes.drop c.turns.length)[i - c.turns.length]? = some route := by
        rw [← split, List.getElem?_append_left (List.getElem?_eq_some_iff.mp at_seen).1, at_seen]
      rw [List.getElem?_drop] at at_rest
      simpa only [Nat.add_sub_cancel' (Nat.le_of_not_lt old)] using at_rest
  · intro ended
    have same_length := congrArg List.length recorded.routes
    simp only [List.length_map] at same_length
    rw [turns, finished ended, List.length_append, List.length_map, List.length_drop]
    omega

theorem Move.faithful (move : Move tr s event u) (recorded : Recorded tr config events s) :
    ∀ c ∈ u.calls, c.Faithful tr config events := by
  cases move with
  | @began cto e c visits =>
    have begun : c.Faithful tr config events :=
      recorded.continues (c := { began := s.clock, cto := cto }) rfl
        ⟨rfl, fun a member => (List.not_mem_nil member).elim, fun p awaits => by cases awaits⟩
        recorded.clock.le (fun i t at_i => by cases at_i) (Nat.zero_le _) s.engine visits
    intro c' member
    rcases List.mem_append.mp member with old | new
    · exact recorded.calls c' old
    · cases List.mem_singleton.mp new
      exact begun
  | toggled => exact recorded.calls
  | @resumed n p outcome route c c' e found awaits at_route visits =>
    have faithful := recorded.calls c (List.mem_of_getElem? found)
    have within : c.turns.length ≤ config.length := by
      have bound := (List.getElem?_eq_some_iff.mp at_route).1
      have same_length := congrArg List.length recorded.routes
      simp only [List.length_map] at same_length
      have last := (faithful.tried.awaiting p awaits).1
      omega
    have resumed : c'.Faithful tr config events :=
      recorded.continues (c := { c with awaiting := none }) rfl
        ⟨faithful.tried.attempts, faithful.tried.made, fun p awaits => by cases awaits⟩
        faithful.began faithful.looked within _ visits
    intro other member
    rcases List.mem_or_eq_of_mem_set member with old | new
    · exact recorded.calls other old
    · rw [new]
      exact resumed

theorem set_same {α : Type*} {l : List α} {n : Nat} {a : α} (at_n : l[n]? = some a) :
    l.set n a = l := by
  obtain ⟨bound, same⟩ := List.getElem?_eq_some_iff.mp at_n
  rw [← same]
  exact List.set_getElem_self bound

theorem Move.calls (move : Move tr s event u) :
    u.calls.map (fun c => (c.began, c.cto)) =
      s.calls.map (fun c => (c.began, c.cto)) ++
        (event.cto?.map (fun cto => (s.clock, cto))).toList := by
  cases move with
  | began cto visits => simp [visits.call, Event.cto?]
  | toggled => simp [Event.cto?]
  | @resumed n p outcome route c c' e found _ _ visits =>
    have at_n : (s.calls.map (fun c => (c.began, c.cto)))[n]? = some (c.began, c.cto) := by
      rw [List.getElem?_map, found]
      rfl
    simp only [Event.cto?, Option.map_none, Option.toList_none, List.append_nil, List.map_set,
      visits.call]
    exact set_same at_n

theorem callsOf_concat (events : List Event) (event : Event) :
    callsOf (events ++ [event]) =
      callsOf events ++ (event.cto?.map (fun cto => (events.length, cto))).toList := by
  unfold callsOf
  rw [List.zipIdx_append, List.filterMap_append]
  cases event <;> simp [Event.cto?]

theorem Recorded.move (recorded : Recorded tr config events s)
    (stepped : step tr s event = some u) : Recorded tr config (events ++ [event]) u where
  reached := run_extend recorded.reached stepped
  clock := by
    rw [(step_move stepped).clock, recorded.clock, List.length_append, List.length_singleton]
  routes := (step_move stepped).opened.trans recorded.routes
  began := by
    rw [(step_move stepped).calls, recorded.began, callsOf_concat, recorded.clock]
  calls := fun c member => ((step_move stepped).faithful recorded c member).later event
  balanced := fun id =>
    (step_move stepped).balanced (ids_of_opened recorded.routes) (recorded.balanced id)

theorem recorded_start (config : List Route) : Recorded tr config [] (start config) where
  reached := rfl
  clock := rfl
  routes := rfl
  began := rfl
  calls := fun c member => by cases member
  balanced := fun id => by
    unfold Balanced
    rw [statsOf_start]
    rfl

theorem reached_recorded (reached : run (step tr) (start config) events = some s) :
    Recorded tr config events s :=
  history_invariant (P := fun _ _ => True) (Recorded tr config) (recorded_start config)
    (fun _ _ _ _ recorded _ stepped => recorded.move stepped) (along_true _ _ _) reached

theorem Found.configured {i : Nat} {t : Turn} (found : Found tr config events i t) :
    ∃ r, config[i]? = some r ∧ t.route = { r with enabled := t.route.enabled } := by
  obtain ⟨before, s, _, _, reached, at_i⟩ := found
  have same := congrArg (fun routes => routes[i]?) (reached_recorded reached).routes
  simp only [List.getElem?_map, at_i, Option.map_some] at same
  obtain ⟨r, at_config, opened⟩ := Option.map_eq_some_iff.mp same.symm
  refine ⟨r, at_config, ?_⟩
  cases t with
  | mk time route =>
    cases route
    cases r
    simp only [Route.opened, Route.mk.injEq, true_and] at opened
    simp only [opened]

/-- The calls are the given objects in order; each has looked at the routes as it found them, in
the order of the configuration, and tried exactly those that it wanted; and the counters of each
route are short by the calls that await its send. -/
theorem isolated_and_counted (distinct : (config.map Route.id).Nodup)
    (reached : run (step tr) (start config) events = some s) :
    s.calls.map (fun c => (c.began, c.cto)) = callsOf events ∧
      (∀ c ∈ s.calls, c.Faithful tr config events ∧
        ∀ (i : Nat) (t : Turn), c.turns[i]? = some t →
          ∃ r, config[i]? = some r ∧ t.route = { r with enabled := t.route.enabled }) ∧
      ∀ p r, config[p]? = some r →
        (s.engine.statsOf r.id).matched =
          (s.engine.statsOf r.id).sent + (s.engine.statsOf r.id).sendErrors +
            s.calls.countP (fun c => c.awaiting = some p) := by
  have recorded := reached_recorded reached
  refine ⟨recorded.began, ?_, ?_⟩
  · intro c member
    have faithful := recorded.calls c member
    exact ⟨faithful, fun i t at_i => (faithful.looked i t at_i).2.configured⟩
  · intro p r at_p
    have balanced := recorded.balanced r.id
    rw [pendingOn_position distinct at_p] at balanced
    exact balanced

/-- The report as CoT XML; nothing is to be sent as protobuf. -/
def reportTranslators : Translators where
  py := plainRuntime
  pb := { parseFromString := fun _ => none, serializeToString := fun _ => [] }
  et := reportEtree unsurveyed []

def reportData : List UInt8 := Text.encode (writeElement (reportEvent unsurveyed []))

def plainRoute (id : String) : Route where
  id := id
  destination := ⟨.udp, "239.2.3.1", 6969, .cotXml, by decide⟩

theorem translate_report : translate reportTranslators (reportCto unsurveyed []) .cotXml =
    .ok (reportData, lossyFields (reportCto unsurveyed [])) := by
  simp only [translate, ctoToCotXml, reportTranslators, report_generated, Except.map, reportData,
    reportEtree, exchange]

theorem dispatch_report (id : String) (time : Nat) (rest : List Route) (e : Engine) (c : Call)
    (cto : c.cto = reportCto unsurveyed []) :
    dispatch reportTranslators time (plainRoute id :: rest) e c =
      ((e.count id .countMatched).senderFor (plainRoute id).destination,
        (c.look ⟨time, plainRoute id⟩).attempt (some reportData)) := by
  have made : translate reportTranslators (c.look ⟨time, plainRoute id⟩).cto
      (plainRoute id).destination.format = _ :=
    (congrArg (fun cto => translate reportTranslators cto .cotXml) cto).trans translate_report
  rw [dispatch]
  simp only
  rw [made]
  rfl

def reportRun : List Event :=
  [.handleCto (reportCto unsurveyed []), .setEnabled "south" false, .sendEnds 0 (.sent newYear)]

theorem report_first (ids : List String) :
    step reportTranslators (start (("north" :: ids).map plainRoute))
        (.handleCto (reportCto unsurveyed [])) =
      some ⟨((start (("north" :: ids).map plainRoute)).engine.count "north" .countMatched).senderFor
          (plainRoute "north").destination,
        [(Call.look { began := 0, cto := reportCto unsurveyed [] } ⟨0, plainRoute "north"⟩).attempt
          (some reportData)], 1⟩ := by
  simp only [step, start, List.map_cons]
  rw [dispatch_report _ _ _ _ _ rfl]
  rfl

theorem isolated_and_counted_north_south : ∃ s,
    run (step reportTranslators) (start [plainRoute "north", plainRoute "south"]) reportRun =
      some s ∧
      s.calls.map (fun c => c.attempts.map Attempt.position) = [[0]] ∧
      (s.engine.statsOf "north").matched =
        (s.engine.statsOf "north").sent + (s.engine.statsOf "north").sendErrors +
          s.calls.countP (fun c => c.awaiting = some 0) := by
  have tried : (run (step reportTranslators) (start [plainRoute "north", plainRoute "south"])
      reportRun).map (fun s => s.calls.map (fun c => c.attempts.map Attempt.position)) =
        some [[0]] := by
    rw [reportRun, run_cons]
    rw [show [plainRoute "north", plainRoute "south"] = ["north", "south"].map plainRoute from rfl]
    rw [report_first]
    rfl
  obtain ⟨s, reached, positions⟩ := Option.map_eq_some_iff.mp tried
  exact ⟨s, reached, positions, (isolated_and_counted (by decide) reached).2.2 0 _ rfl⟩
end TacticalGateway.Routes
