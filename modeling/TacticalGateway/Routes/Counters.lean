import TacticalGateway.Routes.Moves

/-! The counters of the routes: every event keeps what each route has matched equal to what it has
sent, failed to send, and has under way. -/
namespace TacticalGateway.Routes

variable {tr : Translators} {time : Nat} {route : Route} {rest : List Route} {e e' : Engine}
  {c c' : Call}

/-- The counters of the id say that so many tries are under way. -/
def Balanced (e : Engine) (id : String) (pending : Nat) : Prop :=
  (e.statsOf id).matched = (e.statsOf id).sent + (e.statsOf id).sendErrors + pending

def Call.on (names : List String) (id : String) (c : Call) : Bool :=
  c.awaiting.bind (fun p => names[p]?) = some id

variable {names : List String} {id : String} {pending : Nat}

theorem statsOf_count (e : Engine) (key : String) (f : RouteStats → RouteStats) (id : String) :
    (e.count key f).statsOf id = if id = key then f (e.statsOf key) else e.statsOf id := by
  unfold Engine.count Engine.statsOf
  split
  · rename_i same
    rw [same]
    simp
  · rename_i other
    simp only [Dict.get?_set_ne _ _ other]

theorem on_of_free (free : c.awaiting = none) : c.on names id = false := by
  simp [Call.on, free]

theorem Balanced.matched (before : Balanced e id pending) (key : String) :
    Balanced (e.count key .countMatched) id (pending + if id = key then 1 else 0) := by
  unfold Balanced at *
  rw [statsOf_count]
  split
  · rename_i same
    subst same
    simp only [RouteStats.countMatched]
    omega
  · omega

theorem Balanced.ended (key : String) (outcome : Outcome)
    (before : Balanced e id (pending + if id = key then 1 else 0)) :
    Balanced (e.count key outcome.counted) id pending := by
  unfold Balanced at *
  rw [statsOf_count]
  split
  · rename_i same
    subst same
    rw [if_pos rfl] at before
    cases outcome with
    | sent now =>
      simp only [Outcome.counted, RouteStats.countSent]
      omega
    | raised =>
      simp only [Outcome.counted, RouteStats.countError]
      omega
  · rename_i other
    rw [if_neg other] at before
    omega

theorem Visit.balanced (visit : Visit tr time route e c e' c') (free : c.awaiting = none)
    (at_turn : names[c.turns.length]? = some route.id)
    (before : Balanced e id (pending + if c.on names id then 1 else 0)) :
    Balanced e' id (pending + if c'.on names id then 1 else 0) := by
  simp only [on_of_free free, Bool.false_eq_true, if_false, Nat.add_zero] at before
  cases visit with
  | passed =>
    rw [on_of_free (c := c.look ⟨time, route⟩) free]
    exact before
  | failed =>
    rw [on_of_free (c := (c.look ⟨time, route⟩).attempt none) rfl]
    exact (before.matched route.id).ended route.id .raised
  | sending data =>
    have waits : ((c.look ⟨time, route⟩).attempt (some data)).on names id =
        (id = route.id : Bool) := by
      simp [Call.on, Call.attempt, Call.look, at_turn, eq_comm]
    rw [waits]
    have matched := before.matched route.id
    unfold Balanced Engine.statsOf at *
    rw [(senderFor_routes _ _).2]
    simpa only [decide_eq_true_eq] using matched

theorem Visits.balanced {routes : List Route} (visits : Visits tr time rest e c e' c')
    (aligned : rest = routes.drop c.turns.length) (free : c.awaiting = none)
    (before : Balanced e id pending) :
    Balanced e' id (pending + if c'.on (routes.map Route.id) id then 1 else 0) := by
  refine visits.preserve aligned free
    (I := fun e c => Balanced e id (pending + if c.on (routes.map Route.id) id then 1 else 0)) ?_ ?_
  · rw [on_of_free free]
    exact before
  · intro route e c e' c' visit at_turn free balanced
    refine visit.balanced free ?_ balanced
    rw [List.getElem?_map, at_turn]
    rfl

def pendingOn (names : List String) (id : String) (calls : List Call) : Nat :=
  calls.countP (fun c => c.on names id)

theorem pendingOn_set (names : List String) (id : String) {calls : List Call} {n : Nat}
    (found : calls[n]? = some c) (c' : Call) :
    pendingOn names id (calls.set n c') + (if c.on names id then 1 else 0) =
      pendingOn names id calls + if c'.on names id then 1 else 0 := by
  unfold pendingOn
  induction calls generalizing n with
  | nil => cases found
  | cons first calls ih =>
    cases n with
    | zero =>
      cases Option.some.inj found
      simp only [List.set_cons_zero, List.countP_cons]
      omega
    | succ n =>
      have later := ih (n := n) found
      simp only [List.set_cons_succ, List.countP_cons]
      omega

theorem Move.balanced {s u : System} {event : Event} (move : Move tr s event u)
    (same : s.engine.routes.map Route.id = names)
    (before : Balanced s.engine id (pendingOn names id s.calls)) :
    Balanced u.engine id (pendingOn names id u.calls) := by
  subst same
  cases move with
  | began cto visits =>
    have after := visits.balanced (List.drop_zero).symm rfl before
    simpa only [pendingOn, List.countP_append, List.countP_singleton] using after
  | toggled key enabled =>
    have kept : ((s.engine.setEnabled key enabled).getD s.engine).stats = s.engine.stats := by
      simp only [Engine.setEnabled]
      cases toggleFirst key enabled s.engine.routes <;> rfl
    unfold Balanced Engine.statsOf at *
    rw [kept]
    exact before
  | @resumed n p outcome route c c' e found awaits at_route visits =>
    let names := s.engine.routes.map Route.id
    have named : names[p]? = some route.id := by
      rw [List.getElem?_map, at_route]
      rfl
    have waited : c.on names id = (id = route.id : Bool) := by
      simp [Call.on, awaits, named, eq_comm]
    have rest := pendingOn_set names id found { c with awaiting := none }
    rw [on_of_free (c := { c with awaiting := none }) rfl, waited] at rest
    have ended : Balanced (s.engine.count route.id outcome.counted) id
        (pendingOn names id (s.calls.set n { c with awaiting := none })) := by
      refine Balanced.ended route.id outcome ?_
      simp only [decide_eq_true_eq, Bool.false_eq_true, if_false, Nat.add_zero] at rest
      rw [rest]
      exact before
    have after := visits.balanced rfl rfl ended
    have last := pendingOn_set names id found c'
    rw [waited] at last
    have total : pendingOn names id (s.calls.set n c') =
        pendingOn names id (s.calls.set n { c with awaiting := none }) +
          if c'.on names id then 1 else 0 := by
      simp only [Bool.false_eq_true, if_false, Nat.add_zero] at rest
      omega
    rw [total]
    exact after

theorem statsOf_start (config : List Route) (id : String) :
    (start config).engine.statsOf id = {} := by
  have kept : ∀ stats : Dict String RouteStats, (stats.get? id).getD {} = {} →
      ((config.foldl (fun stats r => stats.set r.id {}) stats).get? id).getD {} = {} := by
    induction config with
    | nil => exact fun _ empty => empty
    | cons r config ih =>
      intro stats empty
      refine ih _ ?_
      by_cases same : id = r.id
      · simp [same]
      · rw [Dict.get?_set_ne _ _ same]
        exact empty
  exact kept .empty rfl

theorem pendingOn_position {config : List Route}
    (distinct : (config.map Route.id).Nodup) {p : Nat} {r : Route}
    (at_p : config[p]? = some r) (calls : List Call) :
    pendingOn (config.map Route.id) r.id calls = calls.countP (fun c => c.awaiting = some p) := by
  have named : (config.map Route.id)[p]? = some r.id := by
    rw [List.getElem?_map, at_p]
    rfl
  refine List.countP_congr fun c _ => ?_
  simp only [Call.on, decide_eq_true_eq, Option.bind_eq_some_iff]
  constructor
  · rintro ⟨q, awaits, at_q⟩
    have bound := (List.getElem?_eq_some_iff.mp at_q).1
    rw [awaits, (List.getElem?_inj bound distinct).mp (at_q.trans named.symm)]
  · intro awaits
    exact ⟨p, awaits, named⟩

end TacticalGateway.Routes
