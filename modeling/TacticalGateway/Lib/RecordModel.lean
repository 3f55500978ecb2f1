import TacticalGateway.Lib.JsonEqual
import TacticalGateway.Lib.JsonGrammar

/-! Records as JSON objects: fields by name, with defaults where they may be missing, and no other
names. A field that is written by its own name is read back. -/
namespace RecordModel
open Json (Value lookup)
open JsonGrammar (Numbers Writable)

variable {A E : Type}

/-- `extra="forbid"`. -/
def model (fields : List String) : Value → Option (List (String × Value))
  | .obj members => if members.all (fun m => m.1 ∈ fields) then some members else none
  | _ => none

def required (members : List (String × Value)) (name : String) (read : Value → Option A) :
    Option A :=
  (lookup name members).bind read

def defaulted (members : List (String × Value)) (name : String) (default : A)
    (read : Value → Option A) : Option A :=
  match lookup name members with
  | some v => read v
  | none => some default

def nullable (read : Value → Option A) : Value → Option (Option A)
  | .null => some none
  | v => (read v).map some

def text : Value → Option String
  | .str s => some s
  | _ => none

def listOf (read : Value → Option A) : Value → Option (List A)
  | .arr items => items.mapM read
  | _ => none

/-- An enumeration, by the values of its members. -/
def oneOf (value : E → String) (all : List E) : Value → Option E
  | .str s => all.find? (fun e => value e = s)
  | _ => none

def dumpOption (dump : A → Value) : Option A → Value
  | some a => dump a
  | none => .null

theorem model_eq {fields : List String} {members : List (String × Value)}
    (known : ∀ m ∈ members, m.1 ∈ fields) : model fields (.obj members) = some members := by
  rw [model, if_pos (by simpa using known)]

theorem lookup_at {members : List (String × Value)} (distinct : (members.map Prod.fst).Nodup)
    (i : Nat) {name : String} {v : Value} (at_i : members[i]? = some (name, v)) :
    lookup name members = some v :=
  Json.lookup_of_mem distinct (List.mem_of_getElem? at_i)

theorem required_some {members : List (String × Value)} {name : String} {v : Value}
    {read : Value → Option A} {a : A} (written : lookup name members = some v)
    (valid : read v = some a) : required members name read = some a := by
  rw [required, written, Option.bind_some, valid]

theorem defaulted_some {members : List (String × Value)} {name : String} {default : A} {v : Value}
    {read : Value → Option A} {a : A} (written : lookup name members = some v)
    (valid : read v = some a) : defaulted members name default read = some a := by
  rw [defaulted, written]
  exact valid

theorem bind_some {o : Option A} {a : A} {f : A → Option E} {e : E} (now : o = some a)
    (later : f a = some e) : o >>= f = some e := by
  rw [now]
  exact later

theorem nullable_dumpOption {read : Value → Option A} {dump : A → Value} {o : Option A}
    (read_dump : ∀ a, o = some a → dump a ≠ .null ∧ read (dump a) = some a) :
    nullable read (dumpOption dump o) = some o := by
  cases o with
  | none => rfl
  | some a =>
    obtain ⟨some_value, back⟩ := read_dump a rfl
    rw [dumpOption, nullable]
    · rw [back, Option.map_some]
    · exact some_value

theorem writable_dumpOption {n : Numbers} {dump : A → Value} {o : Option A}
    (writable : ∀ a, o = some a → Writable n (dump a)) : Writable n (dumpOption dump o) := by
  cases o with
  | none => trivial
  | some a => exact writable a rfl

theorem writable_map {n : Numbers} {dump : A → Value} {as : List A}
    (writable : ∀ a ∈ as, Writable n (dump a)) : Writable n (.arr (as.map dump)) := by
  rw [Writable, JsonGrammar.writableItems_iff, List.forall_mem_map]
  exact writable

theorem listOf_map {read : Value → Option A} {dump : A → Value} {as : List A}
    (read_dump : ∀ a ∈ as, read (dump a) = some a) : listOf read (.arr (as.map dump)) = some as := by
  rw [listOf]
  induction as with
  | nil => rfl
  | cons a as ih =>
    have rest := ih (fun b among => read_dump b (List.mem_cons_of_mem a among))
    rw [List.map_cons, List.mapM_cons, read_dump a List.mem_cons_self, rest]
    rfl

theorem oneOf_value {value : E → String} {all : List E} (listed : ∀ e, e ∈ all)
    (distinct : ∀ e e', value e = value e' → e = e') (e : E) :
    oneOf value all (.str (value e)) = some e := by
  rw [oneOf]
  cases found : all.find? (fun e' => value e' = value e) with
  | none => simpa using List.find?_eq_none.mp found e (listed e)
  | some e' =>
    have same : value e' = value e := by simpa using List.find?_some found
    rw [distinct e' e same]

end RecordModel
