import TacticalGateway.Routes.Isolation

/-! Routes that are switched off. The switch turns the first route with the id, and the dispatcher
asks every route, so that a later route with the id keeps what its configuration says. -/
namespace TacticalGateway.Routes
open Execution
open Normalizers (reportCto unsurveyed)

/-- A route behind another one with its id, as it is configured. -/
def Shadowed (config : List Route) (p : Nat) (r : Route) : Prop :=
  config[p]? = some r ∧ ∃ q first, q < p ∧ config[q]? = some first ∧ first.id = r.id

def Call.SentOn (config : List Route) (id : String) (c : Call) : Prop :=
  ∃ a ∈ c.attempts, ∃ r, config[a.position]? = some r ∧ r.id = id ∧ a.data.isSome = true

section Toggles

variable {id key : String} {enabled : Bool} {routes toggled : List Route} {p : Nat} {r : Route}

theorem toggleFirst_get? (found : toggleFirst key enabled routes = some toggled)
    (at_p : toggled[p]? = some r) :
    routes[p]? = some r ∨ r.id = key ∧ r.enabled = enabled ∧
      ∀ q first, q < p → routes[q]? = some first → first.id ≠ key := by
  induction routes generalizing toggled p with
  | nil => cases found
  | cons head routes ih =>
    simp only [toggleFirst] at found
    split at found
    · rename_i named
      cases Option.some.inj found
      cases p with
      | zero =>
        cases Option.some.inj at_p
        exact .inr ⟨named, rfl, fun q first before => absurd before (Nat.not_lt_zero q)⟩
      | succ p => exact .inl at_p
    · rename_i other
      obtain ⟨rest, found_later, same⟩ := Option.map_eq_some_iff.mp found
      subst same
      cases p with
      | zero => exact .inl at_p
      | succ p =>
        refine (ih found_later at_p).imp_right fun turned => ⟨turned.1, turned.2.1, ?_⟩
        intro q first before at_q
        cases q with
        | zero =>
          cases Option.some.inj at_q
          exact other
        | succ q => exact turned.2.2 q first (Nat.lt_of_succ_lt_succ before) at_q

theorem toggleFirst_turned (found : toggleFirst key enabled routes = some toggled)
    (at_p : toggled[p]? = some r) (named : r.id = key) :
    r.enabled = enabled ∨ ∃ q first, q < p ∧ routes[q]? = some first ∧ first.id = key := by
  induction routes generalizing toggled p with
  | nil => cases found
  | cons head routes ih =>
    simp only [toggleFirst] at found
    split at found
    · rename_i head_named
      cases Option.some.inj found
      cases p with
      | zero =>
        cases Option.some.inj at_p
        exact .inl rfl
      | succ p => exact .inr ⟨0, head, Nat.succ_pos p, rfl, head_named⟩
    · rename_i other
      obtain ⟨rest, found_later, same⟩ := Option.map_eq_some_iff.mp found
      subst same
      cases p with
      | zero =>
        cases Option.some.inj at_p
        exact absurd named other
      | succ p =>
        refine (ih found_later at_p).imp_right ?_
        rintro ⟨q, first, before, at_q, first_named⟩
        exact ⟨q + 1, first, Nat.succ_lt_succ before, at_q, first_named⟩

end Toggles

variable {tr : Translators} {config : List Route} {events before after : List Event}
  {s t u : System} {event : Event} {c : Call} {id : String}

/-- A route of the configuration that takes the object to its destination. -/
structure Route.Takes (tr : Translators) (cto : CTO) (r : Route) : Prop where
  enabled : r.enabled = true
  accepts : matches_ cto r.rule = true
  translated : (translate tr cto r.destination.format).toOption.isSome = true

/-- No object of these events is taken by a route with the id that stands behind another one. -/
def Unshadowed (tr : Translators) (config : List Route) (id : String)
    (events : List Event) : Prop :=
  ∀ cto, .handleCto cto ∈ events → ∀ p r, Shadowed config p r → r.id = id → ¬ r.Takes tr cto

theorem same_id {routes : List Route} (same : routes.map Route.opened = config.map Route.opened)
    {p : Nat} {r configured : Route} (at_p : routes[p]? = some r)
    (at_config : config[p]? = some configured) : r.id = configured.id := by
  have ids := congrArg (fun ids => ids[p]?) (ids_of_opened same)
  simp only [List.getElem?_map, at_p, at_config, Option.map_some, Option.some.injEq] at ids
  exact ids

theorem configured_at {routes : List Route}
    (same : routes.map Route.opened = config.map Route.opened) {p : Nat} {r : Route}
    (at_p : routes[p]? = some r) : ∃ configured, config[p]? = some configured := by
  have ids := congrArg (fun ids => ids[p]?) (ids_of_opened same)
  simp only [List.getElem?_map, at_p, Option.map_some] at ids
  obtain ⟨configured, at_config, _⟩ := Option.map_eq_some_iff.mp ids.symm
  exact ⟨configured, at_config⟩

theorem Move.route (move : Move tr s event u) {p : Nat} {r : Route}
    (at_p : u.engine.routes[p]? = some r) :
    s.engine.routes[p]? = some r ∨ ∃ key enabled, event = .setEnabled key enabled ∧
      r.id = key ∧ r.enabled = enabled ∧
        ∀ q first, q < p → s.engine.routes[q]? = some first → first.id ≠ key := by
  cases move with
  | began cto visits =>
    rw [visits.routes] at at_p
    exact .inl at_p
  | toggled key enabled =>
    simp only [Engine.setEnabled] at at_p
    cases found : toggleFirst key enabled s.engine.routes with
    | none =>
      rw [found] at at_p
      exact .inl at_p
    | some toggled =>
      rw [found] at at_p
      exact (toggleFirst_get? found at_p).imp_right fun turned => ⟨key, enabled, rfl, turned⟩
  | resumed outcome _ _ _ visits =>
    rw [visits.routes] at at_p
    exact .inl at_p

/-- A route behind another one with its id never changes. -/
theorem shadowed_kept (reached : run (step tr) (start config) events = some s) {p : Nat} {r : Route}
    (shadowed : Shadowed config p r) : s.engine.routes[p]? = some r := by
  obtain ⟨at_config, q, first, before, at_first, first_id⟩ := shadowed
  refine (history_invariant (P := fun _ _ => True)
    (fun es s => run (step tr) (start config) es = some s ∧ s.engine.routes[p]? = some r)
    ⟨rfl, at_config⟩ ?_ (along_true _ _ _) reached).2
  rintro es s event u ⟨reached, kept⟩ _ stepped
  have reached_u := run_extend reached stepped
  refine ⟨reached_u, ?_⟩
  have routes := (reached_recorded reached).routes
  obtain ⟨after, at_u⟩ := configured_at (reached_recorded reached_u).routes.symm at_config
  rcases (step_move stepped).route at_u with old | ⟨key, enabled, _, named, _, alone⟩
  · rw [at_u, ← old, kept]
  · obtain ⟨front, at_q⟩ := configured_at routes.symm at_first
    have front_id : front.id = key := by
      rw [same_id routes at_q at_first, first_id, ← named]
      exact (same_id (reached_recorded reached_u).routes at_u at_config).symm
    exact absurd front_id (alone q front before at_q)

/-- Every route with the id is off, or stands behind another one as it is configured. -/
def Closed (config : List Route) (id : String) (s : System) : Prop :=
  ∀ p r, s.engine.routes[p]? = some r → r.id = id → r.enabled = false ∨ Shadowed config p r

theorem closed_toggled (reached : run (step tr) (start config) before = some s)
    (toggled : (s.engine.setEnabled id false).isSome = true)
    (stepped : step tr s (.setEnabled id false) = some t) : Closed config id t := by
  intro p r at_p named
  have reached_t := run_extend reached stepped
  obtain ⟨engine, changed⟩ := Option.isSome_iff_exists.mp toggled
  obtain ⟨routes, found, rfl⟩ := Option.map_eq_some_iff.mp changed
  have same : t = ⟨{ s.engine with routes := routes }, s.calls, s.clock + 1⟩ := by
    simp only [step, changed, Option.getD_some] at stepped
    exact (Option.some.inj stepped).symm
  have at_toggled : routes[p]? = some r := by
    rw [same] at at_p
    exact at_p
  refine (toggleFirst_turned found at_toggled named).imp_right ?_
  rintro ⟨q, first, before_p, at_q, first_named⟩
  obtain ⟨configured, at_config⟩ := configured_at (reached_recorded reached_t).routes at_p
  obtain ⟨front, at_front⟩ := configured_at (reached_recorded reached).routes at_q
  have shadowed : Shadowed config p configured := by
    refine ⟨at_config, q, front, before_p, at_front, ?_⟩
    rw [← same_id (reached_recorded reached).routes at_q at_front, first_named, ← named]
    exact same_id (reached_recorded reached_t).routes at_p at_config
  rw [shadowed_kept reached_t shadowed] at at_p
  rw [← Option.some.inj at_p]
  exact shadowed

theorem Closed.kept (closed : Closed config id s) (never : event ≠ .setEnabled id true)
    (stepped : step tr s event = some u) : Closed config id u := by
  intro p r at_p named
  rcases (step_move stepped).route at_p with old | ⟨key, enabled, same, turned, state, _⟩
  · exact closed p r old named
  · left
    cases enabled with
    | false => exact state
    | true =>
      rw [← turned, named] at same
      exact absurd same never

theorem closed_later (closed : Closed config id s) (never : .setEnabled id true ∉ events)
    (reached : run (step tr) s events = some t) : Closed config id t := by
  have each : ∀ e ∈ events, ∀ _ : System, e ≠ .setEnabled id true := by
    rintro e member _ rfl
    exact never member
  exact state_invariant (Closed config id) closed
    (fun _ _ _ closed never stepped => closed.kept never stepped) (along_of_mem each s) reached

theorem mem_callsOf {n : Nat} {cto : CTO} :
    (n, cto) ∈ callsOf events ↔ events[n]? = some (.handleCto cto) := by
  simp only [callsOf, List.mem_filterMap, Option.map_eq_some_iff, Prod.exists]
  constructor
  · rintro ⟨event, k, member, other, called, same⟩
    cases same
    cases event with
    | handleCto cto =>
      cases Option.some.inj called
      exact List.mem_zipIdx_iff_getElem?.mp member
    | setEnabled => cases called
    | sendEnds => cases called
  · intro at_n
    exact ⟨_, n, List.mem_zipIdx_iff_getElem?.mpr at_n, cto, rfl, rfl⟩

theorem mem_wantedPositions {cto : CTO} {turns : List Turn} {p : Nat} :
    p ∈ wantedPositions cto turns ↔ ∃ t, turns[p]? = some t ∧ t.wanted cto = true := by
  simp only [wantedPositions, List.mem_map, List.mem_filter, Prod.exists]
  constructor
  · rintro ⟨t, k, ⟨member, wanted⟩, rfl⟩
    exact ⟨t, List.mem_zipIdx_iff_getElem?.mp member, wanted⟩
  · rintro ⟨t, at_p, wanted⟩
    exact ⟨t, p, ⟨List.mem_zipIdx_iff_getElem?.mpr at_p, wanted⟩, rfl⟩

theorem Call.Faithful.attempted
    (faithful : c.Faithful tr config events) {p : Nat} {data : Option (List UInt8)} :
    ⟨p, data⟩ ∈ c.attempts ↔
      ∃ t, c.turns[p]? = some t ∧ t.wanted c.cto = true ∧ data = t.made tr c.cto := by
  constructor
  · intro member
    have position : p ∈ c.attempts.map Attempt.position := List.mem_map.mpr ⟨_, member, rfl⟩
    rw [faithful.tried.attempts, mem_wantedPositions] at position
    obtain ⟨t, at_p, wanted⟩ := position
    obtain ⟨t', at_p', made⟩ := faithful.tried.made _ member
    cases Option.some.inj (at_p.symm.trans at_p')
    exact ⟨t, at_p, wanted, made⟩
  · rintro ⟨t, at_p, wanted, same⟩
    have position : p ∈ c.attempts.map Attempt.position := by
      rw [faithful.tried.attempts, mem_wantedPositions]
      exact ⟨t, at_p, wanted⟩
    obtain ⟨a, member, at_position⟩ := List.mem_map.mp position
    obtain ⟨t', at_p', made⟩ := faithful.tried.made a member
    rw [at_position, at_p] at at_p'
    cases Option.some.inj at_p'
    rw [same, ← made, ← at_position]
    exact member

/-- A toggle that finds the id, and what may follow it up to the next toggle that opens it. -/
structure Valve (tr : Translators) (config : List Route) (before : List Event) (id : String)
    (after : List Event) (s t : System) : Prop where
  reached : run (step tr) (start config) before = some s
  found : (s.engine.setEnabled id false).isSome = true
  ended : run (step tr) s (.setEnabled id false :: after) = some t
  never : .setEnabled id true ∉ after

theorem Valve.all (valve : Valve tr config before id after s t) :
    run (step tr) (start config) (before ++ .setEnabled id false :: after) = some t := by
  rw [run_append, valve.reached]
  exact valve.ended

theorem Valve.closed_found (valve : Valve tr config before id after s t) {i : Nat} {turn : Turn}
    (found : Found tr config (before ++ .setEnabled id false :: after) i turn)
    (behind : before.length < turn.time) (named : turn.route.id = id) :
    turn.route.enabled = false ∨ Shadowed config i turn.route := by
  obtain ⟨early, u, ahead, length, reached, at_i⟩ := found
  rw [List.append_cons] at ahead
  have longer : (before ++ [Event.setEnabled id false]).length ≤ early.length := by
    rw [List.length_append, List.length_singleton, length]
    exact behind
  obtain ⟨between, rfl⟩ := List.prefix_of_prefix_length_le (List.prefix_append _ after) ahead longer
  rw [List.append_assoc, run_append, valve.reached, Option.bind_some,
    List.singleton_append, run_cons,
    Option.bind_eq_some_iff] at reached
  obtain ⟨s₁, stepped, reached⟩ := reached
  have never : Event.setEnabled id true ∉ between := fun member =>
    valve.never (((List.prefix_append_right_inj _).mp ahead).subset member)
  have closed := closed_later (closed_toggled valve.reached valve.found stepped) never reached
  exact closed i turn.route at_i named

theorem Valve.mem_after {n : Nat} {cto : CTO}
    (called : (n, cto) ∈ callsOf (before ++ .setEnabled id false :: after))
    (behind : before.length < n) : .handleCto cto ∈ after := by
  rw [mem_callsOf, List.append_cons, List.getElem?_append_right (by simpa using behind)] at called
  exact List.mem_of_getElem? called

theorem Valve.silent (valve : Valve tr config before id after s t)
    (unshadowed : Unshadowed tr config id after) (member : c ∈ t.calls)
    (behind : before.length < c.began) : ¬ c.SentOn config id := by
  rintro ⟨⟨p, data⟩, tried, r, at_config, named, sent⟩
  have recorded := reached_recorded valve.all
  have faithful := recorded.calls c member
  obtain ⟨turn, at_p, wanted, rfl⟩ := faithful.attempted.mp tried
  obtain ⟨started, found⟩ := faithful.looked p turn at_p
  obtain ⟨configured, at_p_config, same⟩ := found.configured
  cases Option.some.inj (at_config.symm.trans at_p_config)
  have turn_named : turn.route.id = id := by
    rw [same]
    exact named
  have called : (c.began, c.cto) ∈ callsOf (before ++ .setEnabled id false :: after) := by
    rw [← recorded.began]
    exact List.mem_map.mpr ⟨c, member, rfl⟩
  simp only [Turn.wanted, Bool.and_eq_true] at wanted
  rcases valve.closed_found found (behind.trans_le started) turn_named with off | shadowed
  · rw [off] at wanted
    cases wanted.1
  · refine unshadowed c.cto (Valve.mem_after called behind) p turn.route shadowed turn_named
      ⟨wanted.1, wanted.2, ?_⟩
    simpa [Turn.made] using sent

theorem Valve.unshadowed (valve : Valve tr config before id after s t)
    (finished : ∀ c ∈ t.calls, before.length < c.began → c.awaiting = none)
    (silent : ∀ c ∈ t.calls, before.length < c.began → ¬ c.SentOn config id) :
    Unshadowed tr config id after := by
  intro cto handed p r shadowed named takes
  have recorded := reached_recorded valve.all
  obtain ⟨n, at_n⟩ := List.mem_iff_getElem?.mp handed
  have called : (before.length + 1 + n, cto) ∈
      callsOf (before ++ .setEnabled id false :: after) := by
    rw [mem_callsOf, List.append_cons, List.getElem?_append_right (by simp)]
    simpa using at_n
  rw [← recorded.began] at called
  obtain ⟨c, member, same⟩ := List.mem_map.mp called
  simp only [Prod.mk.injEq] at same
  obtain ⟨began, rfl⟩ := same
  have behind : before.length < c.began := by omega
  have faithful := recorded.calls c member
  have looked_at : p < c.turns.length := by
    rw [faithful.finished (finished c member behind)]
    exact (List.getElem?_eq_some_iff.mp shadowed.1).1
  have at_p : c.turns[p]? = some c.turns[p] := List.getElem?_eq_getElem looked_at
  have same_route : c.turns[p].route = r := by
    obtain ⟨_, u, _, _, reached, found⟩ := (faithful.looked p _ at_p).2
    exact Option.some.inj (found.symm.trans (shadowed_kept reached shadowed))
  refine silent c member behind ⟨_, faithful.attempted.mpr ⟨_, at_p, ?_, rfl⟩, r, shadowed.1,
    named, ?_⟩
  · simp [Turn.wanted, same_route, takes.enabled, takes.accepts]
  · simpa [Turn.made, same_route] using takes.translated

/-- No call that begins after the toggle sends on a route with the id, if no object handed over
since is taken by a route that stands behind another one with the id; where all these calls have
ended, only if. -/
theorem valve_stays_closed (valve : Valve tr config before id after s t) :
    (Unshadowed tr config id after →
        ∀ c ∈ t.calls, before.length < c.began → ¬ c.SentOn config id) ∧
      ((∀ c ∈ t.calls, before.length < c.began → c.awaiting = none) →
        (∀ c ∈ t.calls, before.length < c.began → ¬ c.SentOn config id) →
          Unshadowed tr config id after) :=
  ⟨fun unshadowed _ member behind => valve.silent unshadowed member behind, valve.unshadowed⟩

theorem valve_stays_closed_north : ∃ s t,
    Valve reportTranslators [plainRoute "north", plainRoute "south"] [] "north"
        [.handleCto (reportCto unsurveyed [])] s t ∧
      t.calls.length = 1 ∧
      ∀ c ∈ t.calls, 0 < c.began →
        ¬ c.SentOn [plainRoute "north", plainRoute "south"] "north" := by
  have valve : Valve reportTranslators [plainRoute "north", plainRoute "south"] [] "north"
      [.handleCto (reportCto unsurveyed [])] _ _ := ⟨rfl, rfl, rfl, by simp⟩
  refine ⟨_, _, valve, rfl, (valve_stays_closed valve).1 ?_⟩
  rintro cto - p r ⟨at_p, q, first, before, at_q, same⟩ - -
  match p, q with
  | 0, q => exact absurd before (Nat.not_lt_zero q)
  | 1, 0 =>
    cases Option.some.inj at_p
    cases Option.some.inj at_q
    exact absurd same (by decide)
  | p + 2, q => cases at_p

theorem dispatch_disabled {route : Route} (off : route.enabled = false) {time : Nat}
    {rest : List Route} {e : Engine} :
    dispatch tr time (route :: rest) e c = dispatch tr time rest e (c.look ⟨time, route⟩) := by
  rw [dispatch]
  simp [Turn.wanted, off]

/-- The second of two routes with one id still sends. -/
theorem shadowed_route_sends : ∃ s t,
    Valve reportTranslators [plainRoute "feed", plainRoute "feed"] [] "feed"
        [.handleCto (reportCto unsurveyed [])] s t ∧
      ∃ c ∈ t.calls, 0 < c.began ∧ c.SentOn [plainRoute "feed", plainRoute "feed"] "feed" := by
  have valve : Valve reportTranslators [plainRoute "feed", plainRoute "feed"] [] "feed"
      [.handleCto (reportCto unsurveyed [])] _ _ := ⟨rfl, rfl, rfl, by simp⟩
  refine ⟨_, _, valve, _, List.mem_singleton.mpr rfl, Nat.one_pos, ⟨1, some reportData⟩, ?_,
    plainRoute "feed", rfl, rfl, rfl⟩
  change _ ∈ (dispatch reportTranslators 1
    [{ plainRoute "feed" with enabled := false }, plainRoute "feed"] _ _).2.attempts
  rw [dispatch_disabled rfl, dispatch_report _ _ _ _ _ rfl]
  exact List.mem_singleton.mpr rfl

end TacticalGateway.Routes
