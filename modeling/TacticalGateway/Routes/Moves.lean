import TacticalGateway.Routes.Engine

/-! What the work between two awaits does: each turn of the loop, the turns up to the next
await, and each event. -/
namespace TacticalGateway.Routes

inductive Visit (tr : Translators) (time : Nat) (route : Route) (e : Engine) (c : Call) :
    Engine → Call → Prop where
  | passed (unwanted : Turn.wanted c.cto ⟨time, route⟩ = false) :
      Visit tr time route e c e (c.look ⟨time, route⟩)
  | failed (exn : Normalizers.Exn) (wanted : Turn.wanted c.cto ⟨time, route⟩ = true)
      (refused : translate tr c.cto route.destination.format = .error exn) :
      Visit tr time route e c ((e.count route.id .countMatched).count route.id .countError)
        ((c.look ⟨time, route⟩).attempt none)
  | sending (data : List UInt8) (lossy : List String)
      (wanted : Turn.wanted c.cto ⟨time, route⟩ = true)
      (made : translate tr c.cto route.destination.format = .ok (data, lossy)) :
      Visit tr time route e c ((e.count route.id .countMatched).senderFor route.destination)
        ((c.look ⟨time, route⟩).attempt (some data))

/-- The turns from one await to the next, or to the end of the routes. -/
inductive Visits (tr : Translators) (time : Nat) :
    List Route → Engine → Call → Engine → Call → Prop where
  | done (e : Engine) (c : Call) : Visits tr time [] e c e c
  | next {route : Route} {rest : List Route} {e e₁ e₂ : Engine} {c c₁ c₂ : Call}
      (visit : Visit tr time route e c e₁ c₁) (goes_on : c₁.awaiting = none)
      (later : Visits tr time rest e₁ c₁ e₂ c₂) : Visits tr time (route :: rest) e c e₂ c₂
  | suspended {route : Route} {rest : List Route} {e e₁ : Engine} {c c₁ : Call}
      (visit : Visit tr time route e c e₁ c₁) (awaits : c₁.awaiting.isSome = true) :
      Visits tr time (route :: rest) e c e₁ c₁

variable {tr : Translators} {time : Nat} {route : Route} {rest : List Route} {e e' : Engine}
  {c c' : Call}

theorem dispatch_visits (rest : List Route) (e : Engine) (c : Call) (free : c.awaiting = none) :
    Visits tr time rest e c (dispatch tr time rest e c).1 (dispatch tr time rest e c).2 := by
  induction rest generalizing e c with
  | nil => exact .done e c
  | cons route rest ih =>
    rw [dispatch]
    simp only
    cases wanted : Turn.wanted (c.look ⟨time, route⟩).cto ⟨time, route⟩ with
    | false =>
      simp only [Bool.not_false, if_true]
      exact .next (.passed wanted) free (ih e _ free)
    | true =>
      simp only [Bool.not_true, Bool.false_eq_true, if_false]
      cases made : translate tr (c.look ⟨time, route⟩).cto route.destination.format with
      | error exn => exact .next (.failed exn wanted made) rfl (ih _ _ rfl)
      | ok result => exact .suspended (.sending result.1 result.2 wanted made) rfl

def wantedPositions (cto : CTO) (turns : List Turn) : List Nat :=
  (turns.zipIdx.filter (fun t => t.1.wanted cto)).map Prod.snd

/-- What the translator of the route makes of the object, if it does not raise. -/
def Turn.made (tr : Translators) (cto : CTO) (t : Turn) : Option (List UInt8) :=
  (translate tr cto t.route.destination.format).toOption.map Prod.fst

/-- The call has tried what it should, and awaits the last route it has looked at, if any. -/
structure Exact (tr : Translators) (c : Call) : Prop where
  attempts : c.attempts.map Attempt.position = wantedPositions c.cto c.turns
  made : ∀ a ∈ c.attempts, ∃ t, c.turns[a.position]? = some t ∧ a.data = t.made tr c.cto
  awaiting : ∀ p, c.awaiting = some p →
    p + 1 = c.turns.length ∧ ∃ data, c.attempts.getLast? = some ⟨p, some data⟩

theorem wantedPositions_look (c : Call) (t : Turn) :
    wantedPositions c.cto (c.turns ++ [t]) =
      wantedPositions c.cto c.turns ++ if t.wanted c.cto then [c.turns.length] else [] := by
  unfold wantedPositions
  rw [List.zipIdx_append, List.filter_append, List.map_append]
  cases wanted : t.wanted c.cto <;> simp [wanted]

theorem Exact.made_look (exact_before : Exact tr c) (t : Turn) :
    ∀ a ∈ c.attempts, ∃ u, (c.turns ++ [t])[a.position]? = some u ∧ a.data = u.made tr c.cto := by
  intro a member
  obtain ⟨u, at_position, same⟩ := exact_before.made a member
  have bound := (List.getElem?_eq_some_iff.mp at_position).1
  exact ⟨u, (List.getElem?_append_left bound).trans at_position, same⟩

theorem Exact.passes (exact_before : Exact tr c) (free : c.awaiting = none) {t : Turn}
    (unwanted : t.wanted c.cto = false) : Exact tr (c.look t) where
  attempts := by
    change c.attempts.map Attempt.position = wantedPositions c.cto (c.turns ++ [t])
    rw [wantedPositions_look, exact_before.attempts, unwanted]
    simp
  made := exact_before.made_look t
  awaiting := by
    intro p awaits
    rw [show (c.look t).awaiting = c.awaiting from rfl, free] at awaits
    cases awaits

theorem Exact.tries (exact_before : Exact tr c) {t : Turn} (wanted : t.wanted c.cto = true) :
    Exact tr ((c.look t).attempt (t.made tr c.cto)) where
  attempts := by
    change (c.attempts ++ [_]).map Attempt.position = wantedPositions c.cto (c.turns ++ [t])
    rw [wantedPositions_look, List.map_append, exact_before.attempts, wanted]
    simp [Call.look]
  made := by
    intro a member
    rcases List.mem_append.mp member with old | new
    · exact exact_before.made_look t a old
    · cases List.mem_singleton.mp new
      exact ⟨t, by simp [Call.look, Call.attempt], rfl⟩
  awaiting := by
    intro p awaits
    cases made : t.made tr c.cto with
    | none =>
      rw [made] at awaits
      cases awaits
    | some data =>
      rw [made] at awaits
      cases awaits
      exact ⟨by simp [Call.look, Call.attempt], data, by simp [Call.attempt]⟩

theorem Visit.exact (visit : Visit tr time route e c e' c') (exact_before : Exact tr c)
    (free : c.awaiting = none) : Exact tr c' := by
  cases visit with
  | passed unwanted => exact exact_before.passes free unwanted
  | failed exn wanted refused =>
    have tried := exact_before.tries wanted
    rw [Turn.made, refused] at tried
    exact tried
  | sending data lossy wanted made =>
    have tried := exact_before.tries wanted
    rw [Turn.made, made] at tried
    exact tried

theorem Visit.call (visit : Visit tr time route e c e' c') :
    c'.cto = c.cto ∧ c'.began = c.began := by
  cases visit <;> exact ⟨rfl, rfl⟩

theorem Visit.turns (visit : Visit tr time route e c e' c') :
    c'.turns = c.turns ++ [⟨time, route⟩] := by
  cases visit <;> rfl

theorem senderFor_routes (e : Engine) (dest : Destination) :
    (e.senderFor dest).routes = e.routes ∧ (e.senderFor dest).stats = e.stats := by
  unfold Engine.senderFor
  simp only
  split <;> exact ⟨rfl, rfl⟩

theorem Visit.routes (visit : Visit tr time route e c e' c') : e'.routes = e.routes := by
  cases visit with
  | passed => rfl
  | failed => rfl
  | sending => exact (senderFor_routes _ _).1

theorem drop_cons {α : Type*} {l rest : List α} {a : α} {k : Nat} (split : l.drop k = a :: rest) :
    l[k]? = some a ∧ l.drop (k + 1) = rest := by
  have first := congrArg List.head? split
  have later := congrArg List.tail split
  rw [List.head?_drop] at first
  rw [List.tail_drop] at later
  exact ⟨first, later⟩

/-- What each turn of the loop keeps, where it is the turn of the next route, the loop keeps. -/
theorem Visits.preserve {routes : List Route} {I : Engine → Call → Prop}
    (visits : Visits tr time rest e c e' c') (aligned : rest = routes.drop c.turns.length)
    (free : c.awaiting = none) (before : I e c)
    (kept : ∀ {route e c e' c'}, Visit tr time route e c e' c' →
      routes[c.turns.length]? = some route → c.awaiting = none → I e c → I e' c') : I e' c' := by
  induction visits with
  | done => exact before
  | next visit goes_on _ ih =>
    obtain ⟨at_turn, later⟩ := drop_cons aligned.symm
    refine ih ?_ goes_on (kept visit at_turn free before)
    rw [visit.turns, List.length_append, List.length_singleton, later]
  | suspended visit => exact kept visit (drop_cons aligned.symm).1 free before

theorem Visits.turns (visits : Visits tr time rest e c e' c') :
    ∃ seen, seen <+: rest ∧ c'.turns = c.turns ++ seen.map (Turn.mk time) ∧
      (c'.awaiting = none → seen = rest) := by
  induction visits with
  | done => exact ⟨[], List.nil_prefix, by simp, fun _ => rfl⟩
  | @next route rest _ _ _ _ _ _ visit _ _ ih =>
    obtain ⟨seen, early, turns, finished⟩ := ih
    refine ⟨route :: seen, (List.prefix_cons_inj route).mpr early, ?_, ?_⟩
    · rw [turns, visit.turns]
      simp
    · intro free
      rw [finished free]
  | @suspended route rest _ _ _ _ visit awaits =>
    refine ⟨[route], by simp, visit.turns, ?_⟩
    intro free
    rw [free] at awaits
    cases awaits

theorem Visits.call (visits : Visits tr time rest e c e' c') :
    c'.cto = c.cto ∧ c'.began = c.began := by
  induction visits with
  | done => exact ⟨rfl, rfl⟩
  | next visit _ _ ih => exact ⟨ih.1.trans visit.call.1, ih.2.trans visit.call.2⟩
  | suspended visit => exact visit.call

theorem Visits.exact (visits : Visits tr time rest e c e' c') (free : c.awaiting = none)
    (before : Exact tr c) : Exact tr c' := by
  induction visits with
  | done => exact before
  | next visit goes_on _ ih => exact ih goes_on (visit.exact before free)
  | suspended visit => exact visit.exact before free

inductive Move (tr : Translators) (s : System) : Event → System → Prop where
  | began (cto : CTO) {e : Engine} {c : Call}
      (visits : Visits tr s.clock s.engine.routes s.engine
        { began := s.clock, cto := cto } e c) :
      Move tr s (.handleCto cto) ⟨e, s.calls ++ [c], s.clock + 1⟩
  | toggled (id : String) (enabled : Bool) :
      Move tr s (.setEnabled id enabled)
        ⟨(s.engine.setEnabled id enabled).getD s.engine, s.calls, s.clock + 1⟩
  | resumed {n p : Nat} (outcome : Outcome) {route : Route} {c c' : Call} {e : Engine}
      (found : s.calls[n]? = some c) (awaits : c.awaiting = some p)
      (at_route : s.engine.routes[p]? = some route)
      (visits : Visits tr s.clock (s.engine.routes.drop c.turns.length)
        (s.engine.count route.id outcome.counted) { c with awaiting := none } e c') :
      Move tr s (.sendEnds n outcome) ⟨e, s.calls.set n c', s.clock + 1⟩

theorem step_move {s u : System} {event : Event} (stepped : step tr s event = some u) :
    Move tr s event u := by
  cases event with
  | handleCto cto =>
    cases Option.some.inj stepped
    exact .began cto (dispatch_visits _ _ _ rfl)
  | setEnabled id enabled =>
    cases Option.some.inj stepped
    exact .toggled id enabled
  | sendEnds n outcome =>
    simp only [step] at stepped
    cases found : s.calls[n]? with
    | none =>
      rw [found] at stepped
      cases stepped
    | some c =>
      rw [found] at stepped
      simp only at stepped
      cases at_route : c.awaiting.bind (fun p => s.engine.routes[p]?) with
      | none =>
        rw [at_route] at stepped
        cases stepped
      | some route =>
        rw [at_route] at stepped
        simp only at stepped
        cases Option.some.inj stepped
        obtain ⟨p, awaits, at_p⟩ := Option.bind_eq_some_iff.mp at_route
        exact .resumed outcome found awaits at_p (dispatch_visits _ _ _ rfl)

/-- A route up to its switch. -/
def Route.opened (r : Route) : Route := { r with enabled := true }

theorem toggleFirst_opened (id : String) (enabled : Bool) {routes toggled : List Route}
    (found : toggleFirst id enabled routes = some toggled) :
    toggled.map Route.opened = routes.map Route.opened := by
  induction routes generalizing toggled with
  | nil => cases found
  | cons r rs ih =>
    simp only [toggleFirst] at found
    split at found
    · cases Option.some.inj found
      rfl
    · obtain ⟨later, found_later, same⟩ := Option.map_eq_some_iff.mp found
      subst same
      simp [ih found_later]

theorem Visits.routes (visits : Visits tr time rest e c e' c') : e'.routes = e.routes := by
  induction visits with
  | done => rfl
  | next visit _ _ ih => rw [ih, visit.routes]
  | suspended visit => exact visit.routes

theorem Move.opened {s u : System} {event : Event} (move : Move tr s event u) :
    u.engine.routes.map Route.opened = s.engine.routes.map Route.opened := by
  cases move with
  | began cto visits => rw [visits.routes]
  | toggled id enabled =>
    simp only [Engine.setEnabled]
    cases found : toggleFirst id enabled s.engine.routes with
    | none => rfl
    | some toggled => exact toggleFirst_opened id enabled found
  | resumed outcome _ _ _ visits =>
    rw [visits.routes]
    rfl

theorem Move.clock {s u : System} {event : Event} (move : Move tr s event u) :
    u.clock = s.clock + 1 := by
  cases move <;> rfl

theorem ids_of_opened {routes config : List Route}
    (same : routes.map Route.opened = config.map Route.opened) :
    routes.map Route.id = config.map Route.id := by
  have mapped := congrArg (List.map Route.id) same
  simpa only [List.map_map, Function.comp_def, Route.opened] using mapped

end TacticalGateway.Routes
