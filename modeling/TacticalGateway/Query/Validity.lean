import TacticalGateway.Normalizers.XmlEgress
import TacticalGateway.Query.Pagination

/-! What a query without `include_historical` shows of the rows that are still valid. -/
namespace TacticalGateway.Query
open Opstore Normalizers

variable {F : Type} {b : Backend F} {f : Filter} {conds : List (Condition F)} {limits : Nat → Limit}

def StillValid (now : Int) (r : Row) : Prop := ∀ t ∈ r.validTo, now ≤ t.instant

def Past (now : Int) (r : Row) : Prop := ∃ t ∈ r.validTo, t.instant < now

theorem parameters_default (default : f.includeHistorical = false)
    (parsed : parameters b { f with includeHistorical := true } = .ok conds) :
    parameters b f = .ok (.current :: conds) := by
  unfold parameters at parsed ⊢
  dsimp only at parsed ⊢
  rw [default]
  cases box : given f.within with
  | none =>
    rw [box] at parsed
    simp only [if_true, List.nil_append] at parsed
    rw [← Except.ok.inj parsed]
    rfl
  | some within =>
    rw [box] at parsed
    simp only [if_true, List.nil_append] at parsed
    dsimp only
    cases found : parseBox b within with
    | error e =>
      rw [found] at parsed
      cases parsed
    | ok area =>
      rw [found] at parsed
      rw [← Except.ok.inj parsed]
      rfl

theorem conditions_default (default : f.includeHistorical = false)
    (parsed : conditions b { f with includeHistorical := true } = .ok conds) :
    conditions b f = .ok (.current :: conds) := by
  obtain ⟨given, accepted⟩ := conditions_eq_ok parsed
  exact conditions_of_accepted (parameters_default default given) accepted

theorem passes_current (r : Row) :
    passes b (.current :: conds) r = true ↔ r.validTo = none ∧ passes b conds r = true := by
  rw [passes, List.all_cons, Bool.and_eq_true]
  exact and_congr_left (fun _ => Option.isNone_iff_eq_none)

theorem finite_unchanged (limits : Nat → Limit) (t : CtoTable)
    (parsed : conditions b f = .ok conds) :
    requestAt b f limits (fun _ => t) ((t.rows.map Row.uid).toFinset.card + 1) = none := by
  have constant : tableAt plainPostgres ⟨t, []⟩ (fun _ => []) = fun _ => t := by
    funext i
    have same : databaseAt plainPostgres ⟨t, []⟩ (fun _ => []) i = ⟨t, []⟩ := by
      induction i with
      | zero => rfl
      | succ i ih => rw [databaseAt, ih]; rfl
    rw [tableAt, same]
  rw [← constant]
  apply finite_served parsed
  intro i r stored
  rw [constant] at stored
  exact List.mem_toFinset.mpr (List.mem_map_of_mem stored)

theorem served_iff (limits : Nat → Limit) (t : CtoTable)
    (parsed : conditions b f = .ok conds) (r : Row) :
    (∃ i, r ∈ served b conds limits (fun _ => t) i) ↔ r ∈ t.rows ∧ passes b conds r = true := by
  constructor
  · rintro ⟨i, member⟩
    exact served_sound i r member
  · rintro ⟨stored, keeps⟩
    have pages := unchanged_served parsed t (finite_unchanged limits t parsed)
    have selected : r ∈ servedBefore b conds limits (fun _ => t)
        ((t.rows.map Row.uid).toFinset.card + 1) := by
      rw [pages]
      simp [Keyset.select, stored, keeps]
    obtain ⟨i, _, member⟩ := List.mem_flatMap.mp selected
    exact ⟨i, member⟩

/-- The default query shows what is still valid, and nothing that is past, exactly where every end
of validity among the rows that pass the other filters is in the past. -/
theorem default_query_valid_iff (b : Backend F) (f : Filter) (conds : List (Condition F))
    (limits : Nat → Limit) (t : CtoTable) (now : Int) (default : f.includeHistorical = false)
    (parsed : conditions b { f with includeHistorical := true } = .ok conds) :
    ∃ rows : Nat → List Row,
      (∀ i, (responseAt b f limits (fun _ => t) i = none ∧ rows i = []) ∨
        ∃ next, responseAt b f limits (fun _ => t) i =
          some (.ok ⟨(rows i).map (item b), (rows i).length, next⟩)) ∧
      (((∀ r ∈ t.rows, passes b conds r = true → StillValid now r → ∃ i, r ∈ rows i) ∧
          ∀ i, ∀ r ∈ rows i, ¬ Past now r) ↔
        ∀ r ∈ t.rows, passes b conds r = true → ∀ u ∈ r.validTo, u.instant < now) := by
  have all := conditions_default default parsed
  refine ⟨served b (.current :: conds) limits (fun _ => t), responseAt_served all, ?_⟩
  simp only [served_iff limits t all, passes_current]
  constructor
  · rintro ⟨shown, _⟩ r stored keeps u ends
    by_contra later
    have valid : StillValid now r := by
      intro v there
      rw [Option.mem_def.mp ends] at there
      rw [← Option.mem_some_iff.mp there]
      exact not_lt.mp later
    have current := (shown r stored keeps valid).2.1
    rw [current] at ends
    cases ends
  · intro past
    refine ⟨?_, ?_⟩
    · intro r stored keeps valid
      refine ⟨stored, ?_, keeps⟩
      rw [Option.eq_none_iff_forall_not_mem]
      intro u ends
      exact absurd (past r stored keeps u ends) (not_lt.mpr (valid u ends))
    · rintro i r member ⟨u, ends, _⟩
      have current := ((passes_current r).mp (served_sound i r member).2).1
      rw [current] at ends
      cases ends

def reportPostgres : Postgres :=
  { plainPostgres with
    pyStr := fun v => match v with
      | .str s => s
      | .num q => if q = 45 / 4 then "11.25" else "48.5"
      | _ => ""
    pyStr_str := fun _ => rfl }

def reportTable : CtoTable :=
  (writeBatch reportPostgres ⟨.empty, []⟩ ⟨[reportCto unsurveyed []], true⟩).cto

theorem report_rows : ∃ r, reportTable.rows = [r] ∧ r.validTo = some newYear := ⟨_, rfl, rfl⟩

/-- A second after the track has gone stale, it is not shown and need not be. -/
theorem default_query_stale :
    ∃ rows : Nat → List Row,
      (∀ r ∈ reportTable.rows, passes plainBackend [] r = true →
        StillValid (newYear.instant + 1000000) r → ∃ i, r ∈ rows i) ∧
      ∀ i, ∀ r ∈ rows i, ¬ Past (newYear.instant + 1000000) r := by
  obtain ⟨rows, _, exactly⟩ := default_query_valid_iff plainBackend {} []
    (fun _ => ⟨100, by decide⟩)
    reportTable (newYear.instant + 1000000) rfl rfl
  refine ⟨rows, exactly.mpr ?_⟩
  obtain ⟨row, only, stale⟩ := report_rows
  intro r stored _ u ends
  rw [only] at stored
  rw [List.mem_singleton.mp stored, stale] at ends
  rw [← Option.mem_some_iff.mp ends]
  decide +kernel

/-- A second before, it is live, and no page shows it. -/
theorem live_track_hidden :
    cotXmlToCto plainRuntime (reportEtree unsurveyed [])
      (document (report unsurveyed [])) reportIntake =
        .ok (reportCto unsurveyed []) ∧
      ∃ r ∈ reportTable.rows, passes plainBackend [] r = true ∧
        StillValid (newYear.instant - 1000000) r ∧
        responseAt plainBackend {} (fun _ => ⟨100, by decide⟩) (fun _ => reportTable) 0 =
          some (.ok ⟨[], 0, none⟩) := by
  refine ⟨report_parsed report_event rfl rfl, ?_⟩
  obtain ⟨row, only, stale⟩ := report_rows
  refine ⟨row, by simp [only], rfl, ?_, ?_⟩
  · intro u ends
    rw [stale] at ends
    rw [← Option.mem_some_iff.mp ends]
    decide +kernel
  · have hidden : fetch plainBackend ([.current] ++ []) 101 reportTable = [] := by
      rw [fetch, only]
      simp [Condition.holds, stale]
    have given : parameters plainBackend {} = .ok [.current] := rfl
    have below : cursorConditions plainBackend none = .ok [] := rfl
    have executed : execute ([.current] ++ [] : List (Condition Rat)) =
        .ok ([.current] ++ []) := rfl
    have page : listCtos plainBackend {} ⟨100, by decide⟩ none reportTable = .ok ⟨[], 0, none⟩ := by
      simp only [listCtos, given, below, executed, bind, Except.bind, pure, Except.pure, hidden]
      rfl
    exact congrArg some page

end TacticalGateway.Query
