import TacticalGateway.Opstore.History
import TacticalGateway.Query.Listing
import TacticalGateway.Schema.Codec

/-! A client that follows `next_cursor` from page to page while batches are written to the table. -/
namespace TacticalGateway.Opstore

/-- A row keeps its key columns in all later states. -/
theorem row_persists (pg : Postgres) {db : Database} {r : Row} (batches : List Batch)
    (stored : r ∈ db.cto.rows) :
    ∃ r' ∈ (writeBatches pg db batches).cto.rows, r'.uid = r.uid ∧ r'.eventTime = r.eventTime := by
  rcases row_life pg batches stored with stays | ⟨before, b, after, sample, rfl, _, _, closed⟩
  · exact ⟨r, stays batches (List.prefix_refl _), rfl, rfl⟩
  · refine ⟨r.closedAt sample.receivedAt, ?_, rfl, rfl⟩
    have last := closed after (List.prefix_refl _)
    rwa [← writeBatches_append, List.append_assoc, List.singleton_append] at last

end TacticalGateway.Opstore

namespace TacticalGateway.Query
open Text Opstore
open Json (Value)

section Client

variable {F : Type} (b : Backend F) (f : Filter) (limits : Nat → Limit) (tables : Nat → CtoTable)

/-- The cursor of request `i`, which is made where the answer before it had a next cursor. -/
def requestAt : Nat → Option (Option String)
  | 0 => some none
  | i + 1 =>
    match requestAt i with
    | none => none
    | some cursor =>
      match listCtos b f (limits i) cursor (tables i) with
      | .ok page => page.nextCursor.map some
      | .error _ => none

def responseAt (i : Nat) : Option (Except HTTPException Page) :=
  (requestAt b f limits tables i).map (fun cursor => listCtos b f (limits i) cursor (tables i))

end Client

/-- The database at request `i`, with these batches written between the requests. -/
def databaseAt (pg : Postgres) (db : Database) (writes : Nat → List Batch) : Nat → Database
  | 0 => db
  | i + 1 => writeBatches pg (databaseAt pg db writes i) (writes i)

def tableAt (pg : Postgres) (db : Database) (writes : Nat → List Batch) (i : Nat) : CtoTable :=
  (databaseAt pg db writes i).cto

variable {F : Type} {b : Backend F} {f : Filter} {conds : List (Condition F)} {limits : Nat → Limit}
  {tables : Nat → CtoTable} {pg : Postgres} {db : Database} {writes : Nat → List Batch}

theorem databaseAt_later (pg : Postgres) (db : Database) (writes : Nat → List Batch) {i j : Nat}
    (le : i ≤ j) :
    ∃ batches, databaseAt pg db writes j = writeBatches pg (databaseAt pg db writes i) batches := by
  induction le with
  | refl => exact ⟨[], rfl⟩
  | @step m _ ih =>
    obtain ⟨batches, same⟩ := ih
    refine ⟨batches ++ writes m, ?_⟩
    rw [databaseAt, same, writeBatches_append]

theorem sortKey_later {i j : Nat} (le : i ≤ j) {r r' : Row}
    (here : r ∈ (tableAt pg db writes i).rows) (later : r' ∈ (tableAt pg db writes j).rows)
    (same : r.uid = r'.uid) : sortKey r = sortKey r' := by
  obtain ⟨batches, reached⟩ := databaseAt_later pg db writes le
  obtain ⟨r'', stored, uid, time⟩ := row_persists pg batches here
  rw [← reached] at stored
  have one : r'' = r' :=
    List.inj_on_of_nodup_map (tableAt pg db writes j).keyed stored later (uid.trans same)
  rw [← one, sortKey, sortKey, uid, time]

theorem sortKey_uid {i j : Nat} {r r' : Row} (here : r ∈ (tableAt pg db writes i).rows)
    (there : r' ∈ (tableAt pg db writes j).rows) (same : r.uid = r'.uid) :
    sortKey r = sortKey r' := by
  rcases Nat.le_total i j with le | le
  · exact sortKey_later le here there same
  · exact (sortKey_later le there here same.symm).symm

theorem uid_eq_of_sortKey {r r' : Row} (same : sortKey r = sortKey r') : r.uid = r'.uid :=
  BitVec.eq_of_toNat_eq (congrArg (fun k => (ofLex k).2) same)

theorem distinct_rows (t : CtoTable) : Keyset.Distinct sortKey t.rows := by
  rw [Keyset.Distinct, List.Nodup, List.pairwise_map]
  exact (List.pairwise_map.mp t.keyed).imp (fun apart same => apart (uid_eq_of_sortKey same))

/-- The rows of the pages, of the abstract traversal. -/
def served (b : Backend F) (conds : List (Condition F)) (limits : Nat → Limit)
    (tables : Nat → CtoTable) (i : Nat) : List Row :=
  Keyset.answer sortKey (passes b conds) (fun i => limits i) (fun i => (tables i).rows) i

def servedBefore (b : Backend F) (conds : List (Condition F)) (limits : Nat → Limit)
    (tables : Nat → CtoTable) (n : Nat) : List Row :=
  (List.range n).flatMap (served b conds limits tables)

/-- The client follows the abstract traversal: it asks where that does, and is answered. -/
theorem requestAt_cursorAt (limits : Nat → Limit) (tables : Nat → CtoTable)
    (parsed : conditions b f = .ok conds) (i : Nat) :
    (requestAt b f limits tables i = none ∧
      Keyset.cursorAt sortKey (passes b conds) (fun i => limits i)
        (fun i => (tables i).rows) i = none) ∨
    ∃ cursor after, requestAt b f limits tables i = some cursor ∧ Encodes b cursor after ∧
      Keyset.cursorAt sortKey (passes b conds) (fun i => limits i) (fun i => (tables i).rows) i =
        some after := by
  induction i with
  | zero => exact .inr ⟨none, none, rfl, .none, rfl⟩
  | succ i ih =>
    rcases ih with ⟨concrete, abstract⟩ | ⟨cursor, after, concrete, encodes, abstract⟩
    · left
      simp only [requestAt, Keyset.cursorAt, concrete, abstract, Option.bind_none, and_self]
    · obtain ⟨next, goes_on, page⟩ := listCtos_page (limits i) (tables i) parsed encodes
      simp only [requestAt, Keyset.cursorAt, concrete, abstract, Option.bind_some, page]
      generalize (Keyset.page sortKey (passes b conds) (limits i) after (tables i).rows).2 =
        k at goes_on
      cases goes_on with
      | none => exact .inl ⟨rfl, rfl⟩
      | row last => exact .inr ⟨_, _, rfl, .row last, rfl⟩

theorem responseAt_served (parsed : conditions b f = .ok conds) (i : Nat) :
    (responseAt b f limits tables i = none ∧ served b conds limits tables i = []) ∨
    ∃ next, responseAt b f limits tables i = some (.ok
      { items := (served b conds limits tables i).map (item b)
        count := (served b conds limits tables i).length
        nextCursor := next }) := by
  rcases requestAt_cursorAt limits tables parsed i with
    ⟨concrete, abstract⟩ | ⟨cursor, after, concrete, encodes, abstract⟩
  · left
    simp only [responseAt, concrete, Option.map_none, served, Keyset.answer, abstract, and_self]
  · right
    obtain ⟨next, _, page⟩ := listCtos_page (limits i) (tables i) parsed encodes
    refine ⟨next, ?_⟩
    simp only [responseAt, concrete, Option.map_some, page, served, Keyset.answer, abstract]

theorem positive_limits (limits : Nat → Limit) (i : Nat) : 1 ≤ (limits i).val := (limits i).2.1

theorem descending_served (n : Nat) :
    (servedBefore b conds limits tables n).Pairwise (fun r r' => sortKey r' < sortKey r) :=
  (Keyset.progress (passes b conds) (positive_limits limits)
    (fun i => distinct_rows (tables i)) n).descending

theorem served_sound (i : Nat) : ∀ r ∈ served b conds limits tables i,
    r ∈ (tables i).rows ∧ passes b conds r = true :=
  Keyset.answer_sound (positive_limits limits) (fun i => distinct_rows (tables i)) i

theorem once_served (b : Backend F) (conds : List (Condition F)) (limits : Nat → Limit) (n : Nat) :
    ((servedBefore b conds limits (tableAt pg db writes) n).map Row.uid).Nodup := by
  rw [List.Nodup, List.pairwise_map]
  apply List.Pairwise.imp_of_mem ?_ (descending_served n)
  intro r r' member member' below same
  obtain ⟨i, _, here⟩ := List.mem_flatMap.mp member
  obtain ⟨j, _, there⟩ := List.mem_flatMap.mp member'
  have key := sortKey_uid (served_sound i r here).1 (served_sound j r' there).1 same
  rw [key] at below
  exact lt_irrefl _ below

theorem requestAt_isSome (limits : Nat → Limit) (tables : Nat → CtoTable)
    (parsed : conditions b f = .ok conds) (i : Nat) :
    (requestAt b f limits tables i).isSome =
      (Keyset.cursorAt sortKey (passes b conds) (fun i => limits i)
        (fun i => (tables i).rows) i).isSome := by
  rcases requestAt_cursorAt limits tables parsed i with
    ⟨concrete, abstract⟩ | ⟨cursor, after, concrete, _, abstract⟩
  · rw [concrete, abstract]
    rfl
  · rw [concrete, abstract]
    rfl

theorem cursorAt_of_requestAt (parsed : conditions b f = .ok conds) {n : Nat}
    (last : requestAt b f limits tables n = none) :
    Keyset.cursorAt sortKey (passes b conds) (fun i => limits i)
      (fun i => (tables i).rows) n = none := by
  have same := requestAt_isSome limits tables parsed n
  rw [last] at same
  apply Option.not_isSome_iff_eq_none.mp
  rw [← same]
  exact Bool.false_ne_true

theorem complete_served (parsed : conditions b f = .ok conds) {n : Nat}
    (last : requestAt b f limits (tableAt pg db writes) n = none) (uid : UUID)
    (present : ∀ i < n, (requestAt b f limits (tableAt pg db writes) i).isSome →
      ∃ r ∈ (tableAt pg db writes i).rows, r.uid = uid ∧ passes b conds r = true) :
    ∃ r ∈ servedBefore b conds limits (tableAt pg db writes) n, r.uid = uid := by
  have finished := cursorAt_of_requestAt parsed last
  have some_request : 0 < n := by
    rcases Nat.eq_zero_or_pos n with rfl | positive
    · cases last
    · exact positive
  obtain ⟨first, stored, rfl, _⟩ := present 0 some_request rfl
  have progress := Keyset.progress (passes b conds) (positive_limits limits)
    (fun i => distinct_rows (tableAt pg db writes i)) n
  obtain ⟨r, member, key⟩ := progress.complete (sortKey first) (by
    intro i early asked
    rw [← requestAt_isSome limits _ parsed] at asked
    obtain ⟨r, there, uid, keeps⟩ := present i early asked
    exact ⟨r, there, sortKey_uid there stored uid, keeps⟩) (by
    rw [finished]
    intro after going
    cases going)
  exact ⟨r, member, uid_eq_of_sortKey key⟩

theorem finite_served (parsed : conditions b f = .ok conds) (known : Finset UUID)
    (finite : ∀ i, ∀ r ∈ (tableAt pg db writes i).rows, r.uid ∈ known) :
    requestAt b f limits (tableAt pg db writes) (known.card + 1) = none := by
  have finished := Keyset.terminates Row.uid (positive_limits limits)
    (fun i => distinct_rows (tableAt pg db writes i)) known finite (once_served b conds limits _)
  have same := requestAt_isSome limits (tableAt pg db writes) parsed (known.card + 1)
  rw [finished] at same
  apply Option.not_isSome_iff_eq_none.mp
  rw [same]
  exact Bool.false_ne_true

theorem unchanged_served (parsed : conditions b f = .ok conds) (t : CtoTable) {n : Nat}
    (last : requestAt b f limits (fun _ => t) n = none) :
    servedBefore b conds limits (fun _ => t) n =
      Keyset.select sortKey (passes b conds) none t.rows :=
  Keyset.returned_constant (positive_limits limits) (distinct_rows t)
    (cursorAt_of_requestAt parsed last)

/-- Following the cursors while batches are written between the requests: every request is
answered with rows of its table, the rows come in strictly descending order and once each, the
requests end, and a row that passes the filter at every request is returned. Without writes the
pages are the filtered table in order. -/
theorem pagination_exact (b : Backend F) (f : Filter) (conds : List (Condition F))
    (limits : Nat → Limit) (pg : Postgres) (db : Database) (writes : Nat → List Batch)
    (parsed : conditions b f = .ok conds) :
    ∃ rows : Nat → List Row,
      (∀ i, ∀ r ∈ rows i, r ∈ (tableAt pg db writes i).rows ∧ passes b conds r = true) ∧
      (∀ i, (responseAt b f limits (tableAt pg db writes) i = none ∧ rows i = []) ∨
        ∃ next, responseAt b f limits (tableAt pg db writes) i =
          some (.ok ⟨(rows i).map (item b), (rows i).length, next⟩)) ∧
      (∀ n, ((List.range n).flatMap rows).Pairwise (fun r r' => sortKey r' < sortKey r)) ∧
      (∀ n, (((List.range n).flatMap rows).map Row.uid).Nodup) ∧
      (∀ known : Finset UUID, (∀ i, ∀ r ∈ (tableAt pg db writes i).rows, r.uid ∈ known) →
        requestAt b f limits (tableAt pg db writes) (known.card + 1) = none) ∧
      (∀ n, requestAt b f limits (tableAt pg db writes) n = none → ∀ uid,
        (∀ i < n, (requestAt b f limits (tableAt pg db writes) i).isSome →
          ∃ r ∈ (tableAt pg db writes i).rows, r.uid = uid ∧ passes b conds r = true) →
        ∃ r ∈ (List.range n).flatMap rows, r.uid = uid) ∧
      ((∀ i, writes i = []) → ∀ n, requestAt b f limits (tableAt pg db writes) n = none →
        (List.range n).flatMap rows =
          (db.cto.rows.filter (passes b conds)).insertionSort
            (fun r r' => sortKey r' ≤ sortKey r)) := by
  refine ⟨served b conds limits (tableAt pg db writes), served_sound, responseAt_served parsed,
    descending_served, once_served b conds limits, finite_served parsed,
    fun n last uid => complete_served parsed last uid, ?_⟩
  intro quiet n last
  have constant : tableAt pg db writes = fun _ => db.cto := by
    funext i
    induction i with
    | zero => rfl
    | succ i ih =>
      rw [tableAt, databaseAt, quiet i]
      exact ih
  rw [constant] at last ⊢
  have pages := unchanged_served parsed db.cto last
  simp only [Keyset.select, Option.all_none, Bool.and_true] at pages
  exact pages

theorem aware_isoformat (t : Datetime) :
    (Reader.fromisoformat t.isoformat).map Timestamp.aware = some (.aware t) := by
  rw [Reader.fromisoformat_isoformat, Option.map_some]

/-- A session in UTC. -/
def plainBackend : Backend Rat where
  float := fun _ => none
  fromisoformat := fun s => (Reader.fromisoformat s).map .aware
  uuid := readUuid
  instantOf := Timestamp.inUtc
  sessionOffset := fun _ => 0
  ilike := fun _ _ => true
  intersects := fun _ _ _ _ _ => true
  asGeoJson := fun _ => "\x7b\x7d"
  loads := fun _ => .obj []
  jsonb := fun v => v
  dump := fun _ => .null
  fromisoformat_isoformat := aware_isoformat
  uuid_uuidText := readUuid_uuidText
  instantOf_aware _ := rfl

/-- Three placemarks of one time, and a batch after the first request that retires them. -/
def tiedDatabase : Database :=
  writeBatch plainPostgres ⟨.empty, []⟩
    ⟨[placemark 1 newYear, placemark 2 newYear, placemark 3 newYear], true⟩

def laterWrites (i : Nat) : List Batch := if i = 0 then [⟨[placemark 4 newYear], true⟩] else []

def tiedTable (i : Nat) : CtoTable := tableAt plainPostgres tiedDatabase laterWrites i

def tiedFilter : Filter :=
  { sourceSystem := some "folder", objectClass := some "track", includeHistorical := true }

def tiedConditions : List (Condition Rat) := [.sourceLike "%folder%", .objectClass "track"]

def pagesOfOne (_ : Nat) : Limit := ⟨1, by decide⟩

theorem tied_columns (i : Nat) :
    (tiedTable i).rows.map (fun r => (r.uid, r.objectClass)) =
        [(1, "track"), (2, "track"), (3, "track")] ∨
      (tiedTable i).rows.map (fun r => (r.uid, r.objectClass)) =
        [(1, "track"), (2, "track"), (3, "track"), (4, "track")] := by
  have later (i : Nat) : tiedTable (i + 1) = tiedTable 1 := by
    induction i with
    | zero => rfl
    | succ i ih => exact ih
  cases i with
  | zero => exact .inl rfl
  | succ i =>
    rw [later i]
    exact .inr rfl

theorem tied_row {r : Row} {i : Nat} (stored : r ∈ (tiedTable i).rows) :
    r.uid ∈ ({1, 2, 3, 4} : Finset UUID) ∧ passes plainBackend tiedConditions r = true := by
  have column := List.mem_map_of_mem (f := fun r : Row => (r.uid, r.objectClass)) stored
  have listed : (r.uid, r.objectClass) ∈
      [(1, "track"), (2, "track"), (3, "track"), ((4 : UUID), "track")] := by
    rcases tied_columns i with same | same
    · rw [same] at column
      exact List.mem_append_left [(4, "track")] column
    · rwa [same] at column
  simp only [List.mem_cons, List.not_mem_nil, or_false, Prod.mk.injEq] at listed
  rcases listed with ⟨uid, track⟩ | ⟨uid, track⟩ | ⟨uid, track⟩ | ⟨uid, track⟩ <;>
    simp [uid, track, passes, tiedConditions, Condition.holds, plainBackend]

theorem tied_present {uid : UUID} (listed : uid ∈ ([1, 2, 3] : List UUID)) (i : Nat) :
    ∃ r ∈ (tiedTable i).rows, r.uid = uid := by
  have column : (uid, "track") ∈ (tiedTable i).rows.map (fun r => (r.uid, r.objectClass)) := by
    have there : (uid, "track") ∈ [(1, "track"), (2, "track"), ((3 : UUID), "track")] := by
      simpa using listed
    rcases tied_columns i with same | same
    · rwa [same]
    · rw [same]
      exact List.mem_append_left [(4, "track")] there
  obtain ⟨r, stored, same⟩ := List.mem_map.mp column
  exact ⟨r, stored, congrArg Prod.fst same⟩

/-- Pages of one row each, with a batch behind the first: the three placemarks that were there all
the time are returned, each once. -/
theorem pagination_exact_tied :
    ∃ rows : Nat → List Row,
      (∀ i, (responseAt plainBackend tiedFilter pagesOfOne tiedTable i = none ∧ rows i = []) ∨
        ∃ next, responseAt plainBackend tiedFilter pagesOfOne tiedTable i =
          some (.ok ⟨(rows i).map (item plainBackend), (rows i).length, next⟩)) ∧
      requestAt plainBackend tiedFilter pagesOfOne tiedTable 5 = none ∧
      (((List.range 5).flatMap rows).map Row.uid).Nodup ∧
      ∀ uid ∈ ([1, 2, 3] : List UUID), ∃ r ∈ (List.range 5).flatMap rows, r.uid = uid := by
  obtain ⟨rows, _, answers, _, once, ends, complete, _⟩ := pagination_exact plainBackend tiedFilter
    tiedConditions pagesOfOne plainPostgres tiedDatabase laterWrites rfl
  have last := ends {1, 2, 3, 4} (fun i r stored => (tied_row stored).1)
  refine ⟨rows, answers, last, once 5, ?_⟩
  intro uid listed
  refine complete 5 last uid ?_
  intro i _ _
  obtain ⟨r, stored, same⟩ := tied_present listed i
  exact ⟨r, stored, same, (tied_row stored).2⟩

end TacticalGateway.Query
