import TacticalGateway.Lib.Keyset
import TacticalGateway.Opstore.Migrations
import TacticalGateway.Query.Rows

/-! `GET /cto`: the conditions of a request, its page, and the cursor of the next request. -/
namespace TacticalGateway.Query
open Text Opstore
open Json (Value)

structure HTTPException where
  status : Nat
  detail : String
  deriving DecidableEq

inductive Condition (F : Type) where
  | current
  | eventFrom (t : Timestamp)
  | eventTo (t : Timestamp)
  | sourceLike (pattern : String)
  | objectClass (name : String)
  | within (minLon minLat maxLon maxLat : F)
  | before (t : Timestamp) (uid : UUID)

/-- The query parameters but for `limit` and `cursor`. -/
structure Filter where
  within : Option String := none
  timeFrom : Option Timestamp := none
  timeTo : Option Timestamp := none
  sourceSystem : Option String := none
  objectClass : Option String := none
  includeHistorical : Bool := false

abbrev Limit := { n : Nat // 1 ≤ n ∧ n ≤ 1000 }

structure Page where
  items : List (Dict String Value)
  count : Nat
  nextCursor : Option String

variable {F : Type}

def Condition.holds (b : Backend F) (r : Row) : Condition F → Bool
  | .current => r.validTo.isNone
  | .eventFrom t => b.instantOf t ≤ r.eventTime.instant
  | .eventTo t => r.eventTime.instant ≤ b.instantOf t
  | .sourceLike pattern => b.ilike r.sourceSystem pattern
  | .objectClass name => r.objectClass = name
  | .within minLon minLat maxLon maxLat => b.intersects minLon minLat maxLon maxLat r.geom
  | .before t uid => r.eventTime.instant < b.instantOf t ||
      (r.eventTime.instant = b.instantOf t && r.uid.toNat < uid.toNat)

/-- The driver refuses a NUL character in a text, and the server a text that is no value of the enum
type it is compared with. -/
def Condition.accepted : Condition F → Bool
  | .sourceLike pattern => textColumn none pattern
  | .objectClass name => name ∈ objectClassEnum
  | _ => true

/-- A string parameter that is there and not empty. -/
def given (parameter : Option String) : Option String := parameter.filter (· ≠ "")

def parseBox (b : Backend F) (within : String) : Except HTTPException (Condition F) :=
  let parts := (within.toList.splitOn ',').map String.ofList
  match parts.mapM b.float with
  | some [minLon, minLat, maxLon, maxLat] => .ok (.within minLon minLat maxLon maxLat)
  | _ => .error ⟨400, "within must be 'minLon,minLat,maxLon,maxLat'"⟩

def parameters (b : Backend F) (f : Filter) : Except HTTPException (List (Condition F)) :=
  let conds := (if f.includeHistorical then [] else [.current]) ++
    (f.timeFrom.map .eventFrom).toList ++ (f.timeTo.map .eventTo).toList ++
    ((given f.sourceSystem).map (fun s => .sourceLike ("%" ++ s ++ "%"))).toList ++
    ((given f.objectClass).map .objectClass).toList
  match given f.within with
  | none => .ok conds
  | some within => (parseBox b within).map (fun box => conds ++ [box])

/-- `s.split(sep, 1)` where it gives two parts. -/
def split1 (sep : Char) (s : String) : Option (String × String) :=
  match s.toList.dropWhile (· != sep) with
  | [] => none
  | _ :: rest => some (String.ofList (s.toList.takeWhile (· != sep)), String.ofList rest)

def parseCursor (b : Backend F) (cursor : String) : Option (Timestamp × UUID) := do
  let (ts, uid) ← split1 '|' cursor
  let t ← b.fromisoformat ts
  let u ← b.uuid uid
  return (t, u)

def cursorConditions (b : Backend F) (cursor : Option String) :
    Except HTTPException (List (Condition F)) :=
  match given cursor with
  | none => .ok []
  | some text =>
    match parseCursor b text with
    | some (t, uid) => .ok [.before t uid]
    | none => .error ⟨400, "invalid cursor"⟩

/-- What `ORDER BY event_time DESC, uid DESC` sorts by. -/
def sortKey (r : Row) : ℤ ×ₗ ℕ := toLex (r.eventTime.instant, r.uid.toNat)

/-- An exception of the database leaves the route. -/
def execute (conds : List (Condition F)) : Except HTTPException (List (Condition F)) :=
  if conds.all Condition.accepted then .ok conds else .error ⟨500, "Internal Server Error"⟩

/-- The conditions of a filter that the route can parse and the database accepts. -/
def conditions (b : Backend F) (f : Filter) : Except HTTPException (List (Condition F)) :=
  parameters b f >>= execute

def fetch (b : Backend F) (conds : List (Condition F)) (limit : Nat) (t : CtoTable) : List Row :=
  ((t.rows.filter (fun r => conds.all (Condition.holds b r))).insertionSort
    (fun r r' => sortKey r' ≤ sortKey r)).take limit

def fieldText (out : Dict String Value) (name : String) : String :=
  match out.get? name with
  | some (.str s) => s
  | _ => "None"

def cursorText (last : Dict String Value) : String :=
  fieldText last "event_time" ++ "|" ++ fieldText last "uid"

def listCtos (b : Backend F) (f : Filter) (limit : Limit) (cursor : Option String) (t : CtoTable) :
    Except HTTPException Page := do
  let conds ← parameters b f
  let below ← cursorConditions b cursor
  let accepted ← execute (conds ++ below)
  let rows := fetch b accepted (limit + 1) t
  let items := (rows.take limit).map (item b)
  return {
    items := items
    count := items.length
    nextCursor := if limit < rows.length then items.getLast?.map cursorText else none }

theorem execute_eq_ok {conds accepted : List (Condition F)} :
    execute conds = .ok accepted ↔ conds.all Condition.accepted = true ∧ conds = accepted := by
  unfold execute
  split <;> simp [*]

def passes (b : Backend F) (conds : List (Condition F)) (r : Row) : Bool :=
  conds.all (Condition.holds b r)

theorem split1_append (sep : Char) (front rest : String) (absent : sep ∉ front.toList) :
    split1 sep (front ++ String.singleton sep ++ rest) = some (front, rest) := by
  have text : (front ++ String.singleton sep ++ rest).toList = front.toList ++ sep ::
      rest.toList := by
    simp [String.toList_append]
  have other : ∀ c ∈ front.toList, (c != sep) = true := by
    intro c member
    rw [bne_iff_ne]
    intro same
    exact absent (same ▸ member)
  have dropped : (front.toList ++ sep :: rest.toList).dropWhile (· != sep) = sep ::
      rest.toList := by
    rw [List.dropWhile_append_of_pos other, List.dropWhile_cons_of_neg (by simp)]
  have taken : (front.toList ++ sep :: rest.toList).takeWhile (· != sep) = front.toList := by
    rw [List.takeWhile_append_of_pos other, List.takeWhile_cons_of_neg (by simp), List.append_nil]
  simp only [split1, text, dropped, taken, String.ofList_toList]

section Page

variable {b : Backend F} {conds : List (Condition F)} {f : Filter}
  {cursor : Option String} {after : Option (ℤ ×ₗ ℕ)}

theorem cursorText_item (r : Row) :
    cursorText (item b r) = (b.inSession r.eventTime).isoformat ++ "|" ++ uuidText r.uid := by
  simp only [cursorText, fieldText, item_uid, item_eventTime]

theorem parseCursor_item (r : Row) :
    parseCursor b (cursorText (item b r)) = some (.aware (b.inSession r.eventTime), r.uid) := by
  have bar : '|' ∉ (b.inSession r.eventTime).isoformat.toList := by
    intro member
    exact absurd (isoChar_isoformat _ _ member) (by decide)
  rw [cursorText_item, parseCursor]
  have cut := split1_append '|' _ (uuidText r.uid) bar
  simp only [show String.singleton '|' = "|" from rfl] at cut
  simp only [cut, Option.bind_eq_bind, Option.bind_some, b.fromisoformat_isoformat,
    b.uuid_uuidText, Option.pure_def]

theorem given_cursorText (r : Row) :
    given (some (cursorText (item b r))) = some (cursorText (item b r)) := by
  have nonempty : cursorText (item b r) ≠ "" := by
    intro empty
    have chars := congrArg String.toList empty
    rw [cursorText_item] at chars
    simp [String.toList_append] at chars
  simp [given, Option.filter, nonempty]

/-- A cursor text and the key that the pages go on from. -/
inductive Encodes (b : Backend F) : Option String → Option (ℤ ×ₗ ℕ) → Prop where
  | none : Encodes b none none
  | row (r : Row) : Encodes b (some (cursorText (item b r))) (some (sortKey r))

theorem holds_before (r last : Row) :
    Condition.holds b r (.before (.aware (b.inSession last.eventTime)) last.uid) = true ↔
      sortKey r < sortKey last := by
  simp only [Condition.holds, b.instantOf_aware, b.inSession_instant, Bool.or_eq_true,
    Bool.and_eq_true, decide_eq_true_eq, sortKey, Prod.Lex.toLex_lt_toLex]

theorem cursorConditions_encodes (encodes : Encodes b cursor after) :
    ∃ below, cursorConditions b cursor = .ok below ∧ below.all Condition.accepted = true ∧
      ∀ r, passes b below r = after.all (fun k => sortKey r < k) := by
  cases encodes with
  | none => exact ⟨[], rfl, rfl, fun _ => rfl⟩
  | row last =>
    refine ⟨[.before (.aware (b.inSession last.eventTime)) last.uid], ?_, rfl, ?_⟩
    · simp only [cursorConditions, given_cursorText, parseCursor_item]
    · intro r
      rw [Bool.eq_iff_iff]
      simp only [passes, List.all_cons, List.all_nil, Bool.and_true, holds_before, Option.all_some,
        decide_eq_true_eq]

theorem fetch_select {below : List (Condition F)} (conds : List (Condition F))
    (t : CtoTable) (n : Nat)
    (cut : ∀ r, passes b below r = after.all (fun k => sortKey r < k)) :
    fetch b (conds ++ below) n t =
      (Keyset.select sortKey (passes b conds) after t.rows).take n := by
  have same : (fun r => (conds ++ below).all (Condition.holds b r)) =
      fun r => passes b conds r && after.all (fun k => sortKey r < k) := by
    funext r
    rw [← cut r, List.all_append]
    rfl
  rw [fetch, same]
  rfl

theorem conditions_eq_ok (parsed : conditions b f = .ok conds) :
    parameters b f = .ok conds ∧ conds.all Condition.accepted = true := by
  unfold conditions at parsed
  cases given : parameters b f with
  | error e =>
    rw [given] at parsed
    cases parsed
  | ok conds' =>
    rw [given] at parsed
    obtain ⟨accepted, rfl⟩ := execute_eq_ok.mp parsed
    exact ⟨rfl, accepted⟩

theorem conditions_of_accepted (given : parameters b f = .ok conds)
    (accepted : conds.all Condition.accepted = true) : conditions b f = .ok conds := by
  rw [conditions, given]
  exact execute_eq_ok.mpr ⟨accepted, rfl⟩

/-- A request is answered with a page of the keyset pagination, in the words of the API. -/
theorem listCtos_page (limit : Limit) (t : CtoTable) (parsed : conditions b f = .ok conds)
    (encodes : Encodes b cursor after) :
    ∃ next, Encodes b next (Keyset.page sortKey (passes b conds) limit after t.rows).2 ∧
      listCtos b f limit cursor t = .ok
        { items := (Keyset.page sortKey (passes b conds) limit after t.rows).1.map (item b)
          count := (Keyset.page sortKey (passes b conds) limit after t.rows).1.length
          nextCursor := next } := by
  obtain ⟨below, ok, plain, cut⟩ := cursorConditions_encodes encodes
  obtain ⟨given, executed⟩ := conditions_eq_ok parsed
  have accepted : execute (conds ++ below) = .ok (conds ++ below) := by
    rw [execute_eq_ok, List.all_append, executed, plain]
    exact ⟨rfl, rfl⟩
  have rows := fetch_select conds t (limit + 1) cut
  simp only [listCtos, given, ok, accepted, bind, Except.bind, pure, Except.pure, rows,
    Keyset.page, List.length_map, List.getLast?_map]
  refine ⟨_, ?_, rfl⟩
  split
  · cases List.getLast? _ with
    | none => exact .none
    | some last => exact .row last
  · exact .none

end Page

end TacticalGateway.Query
