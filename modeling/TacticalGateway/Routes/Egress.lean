import TacticalGateway.Normalizers.PbRoundTrip
import TacticalGateway.Routes.Isolation
import TacticalGateway.Schema.Geometry

/-! Whether a translation ends with bytes: the exceptions that it can end with instead, those of the
standard library among them, and the objects for which there is none. -/
namespace TacticalGateway.Routes
open ElementTree
open Json (Value)
open Normalizers

/-- An integer that is no float, for which `float` raises `OverflowError`. What stands for an
infinity is no integer. -/
def tooLarge (q : Rat) : Bool := q.den = 1 && decide (2 ^ 1024 - 2 ^ 970 ≤ q.num.natAbs)

/-- A qualified name whose namespace does not end, for which `ET.tostring` raises `ValueError`. -/
def refused (name : String) : Bool := name.toList.head? = some '\x7b' && '\x7d' ∉ name.toList

mutual

def names : Element → List String
  | .mk tag attrib _ children => tag :: attrib.keys ++ namesAll children

def namesAll : List Element → List String
  | [] => []
  | e :: es => names e ++ namesAll es

end

def floated (cto : CTO) : List Rat :=
  (cto.geometry.coordinates.take 2).filterMap number ++
    ((cto.attributes.get? "cot_horizontal_accuracy_m").bind number).toList

def checked {A : Type} (cto : CTO) (written : List Element) (a : A) : Except Normalizers.Exn A :=
  if (floated cto).any tooLarge then .error .overflowError
  else if (namesAll written).any refused then .error .valueError
  else .ok a

/-- `_translate` with the exceptions of `float` and of `ET.tostring`. -/
def egress (t : Translators) (cto : CTO) :
    OutputFormat → Except Normalizers.Exn (List UInt8 × List String)
  | .cotXml => do
    let (event, lossy) ← ctoToEvent t.py cto
    checked cto [event] (Text.encode (t.et.tostring event), lossy)
  | .cotProtobuf => do
    let (msg, lossy) ← ctoToTakMessage t.py t.et cto
    checked cto (restored cto) (Listeners.encodeFrame (t.pb.serializeToString msg), lossy)

/-- The translation returns, and its list says what is lost. -/
def Translated (t : Translators) (cto : CTO) (fmt : OutputFormat) : Prop :=
  ∃ bytes lossy, egress t cto fmt = .ok (bytes, lossy) ∧
    ("geometry_not_point" ∈ lossy ↔ cto.geometry.type ≠ .point) ∧
    ("cot_type_synthesized" ∈ lossy ↔ cto.symbology.cotType = none ∨
      cto.symbology.cotType = some "")

/-- A name in a stored node: its tag, an attribute that is a text, or a name below. -/
inductive NamedIn (name : String) : String → Value → Prop where
  | tag (node : List (String × Value)) : NamedIn name name (.obj node)
  | attr {tag s : String} {node : List (String × Value)} (there : (name, .str s) ∈ node)
      (plain : ¬ "_".toList.isPrefixOf name.toList = true) : NamedIn name tag (.obj node)
  | item {tag : String} {node : Value} {nodes : List Value} (member : node ∈ nodes)
      (inside : NamedIn name tag node) : NamedIn name tag (.arr nodes)
  | child {tag below : String} {v : Value} {node children : List (String × Value)}
      (subtree : Json.lookup "_children" node = some (.obj children))
      (member : (below, v) ∈ children) (inside : NamedIn name below v) :
        NamedIn name tag (.obj node)

def skipped (py : Normalizers.Runtime) (cto : CTO) : OutputFormat → List String
  | .cotXml => (typedElements py cto).map Element.tag
  | .cotProtobuf => ["contact", "track"]

/-- The names that the attributes of an object bring into its translation. -/
inductive BringsName (py : Normalizers.Runtime) (cto : CTO) (fmt : OutputFormat) (name : String) :
    Prop where
  | extra {extras : List (String × Value)} {s : String} (xml : fmt = .cotXml)
      (stored : cto.attributes.get? "cot_event_extras" = some (.obj extras))
      (there : (name, .str s) ∈ extras)
  | detail {stored : List (String × Value)} {tag : String} {node : Value}
      (kept : cto.attributes.get? "cot_detail" = some (.obj stored)) (member : (tag, node) ∈ stored)
      (restored : tag ∉ skipped py cto fmt) (inside : NamedIn name tag node)

def timesOf (cto : CTO) : List Datetime :=
  [cto.eventTime, cto.validFrom.getD cto.eventTime, cto.validTo.getD cto.eventTime]

/-- The time has a date in UTC, and for XML in the zone of the process too. -/
def Convertible (py : Normalizers.Runtime) (time : Datetime) : OutputFormat → Prop
  | .cotXml => (astimezone py time).isSome = true
  | .cotProtobuf => (atOffset time.instant 0).isSome = true

structure Translatable (t : Translators) (cto : CTO) (fmt : OutputFormat) : Prop where
  point : cto.geometry.type = .point
  times : ∀ time ∈ timesOf cto, Convertible t.py time fmt
  numbers : ∀ q ∈ floated cto, tooLarge q = false
  names : ∀ name, BringsName t.py cto fmt name → refused name = false

section Names

variable {py : Normalizers.Runtime} {name : String}

theorem namesAll_append (es fs : List Element) :
    namesAll (es ++ fs) = namesAll es ++ namesAll fs := by
  induction es with
  | nil => rfl
  | cons e es ih => simp only [List.cons_append, namesAll, ih, List.append_assoc]

theorem mem_keys_set (d : Dict String String) (key value : String) :
    name ∈ (d.set key value).keys ↔ name = key ∨ name ∈ d.keys := by
  rw [Dict.mem_keys_iff, Dict.mem_keys_iff]
  by_cases same : name = key
  · subst same
    simp
  · rw [Dict.get?_set_ne _ _ same]
    simp [same]

theorem mem_keys_foldl (items : List (String × String)) (d : Dict String String) :
    name ∈ (items.foldl (fun d i => d.set i.1 i.2) d).keys ↔
      name ∈ d.keys ∨ ∃ s, (name, s) ∈ items := by
  induction items generalizing d with
  | nil => simp
  | cons i items ih =>
    obtain ⟨key, value⟩ := i
    rw [List.foldl_cons, ih, mem_keys_set]
    simp only [List.mem_cons, Prod.mk.injEq, exists_or, exists_and_left, exists_eq, and_true]
    tauto

theorem mem_attrsOf (node : List (String × Value)) :
    name ∈ (attrsOf node).keys ↔
      ∃ s, (name, .str s) ∈ node ∧ ¬ "_".toList.isPrefixOf name.toList = true := by
  have no_key : name ∉ (Dict.empty : Dict String String).keys := List.not_mem_nil
  rw [attrsOf, ofList, mem_keys_foldl]
  simp only [no_key, false_or, List.mem_filterMap, Option.map_eq_some_iff, Prod.mk.injEq]
  constructor
  · rintro ⟨s, ⟨key, v⟩, member, s', text, rfl, rfl⟩
    cases v with
    | str s =>
      simp only [attrText] at text
      split at text
      · cases text
      · rename_i plain
        cases text
        exact ⟨_, member, plain⟩
    | null => cases text
    | bool b => cases text
    | num q => cases text
    | arr items => cases text
    | obj members => cases text
  · rintro ⟨s, member, plain⟩
    exact ⟨s, (name, .str s), member, s, if_neg plain, rfl, rfl⟩

mutual

theorem mem_names_emitDetailNode (tag : String) : ∀ node : Value,
    name ∈ namesAll (emitDetailNode tag node) ↔ NamedIn name tag node
  | .arr nodes => by
    rw [emitDetailNode, mem_names_emitAll tag nodes]
    constructor
    · rintro ⟨node, member, inside⟩
      exact .item member inside
    · intro inside
      cases inside with
      | item member inside => exact ⟨_, member, inside⟩
  | .obj node => by
    rw [emitDetailNode]
    simp only [namesAll, names, List.append_nil, List.cons_append, List.mem_cons, List.mem_append,
      mem_attrsOf, mem_names_emitChildren node]
    constructor
    · rintro (rfl | ⟨s, there, plain⟩ | ⟨children, subtree, ⟨below, v⟩, member, inside⟩)
      · exact .tag node
      · exact .attr there plain
      · exact .child subtree member inside
    · intro inside
      cases inside with
      | tag => exact .inl rfl
      | attr there plain => exact .inr (.inl ⟨_, there, plain⟩)
      | child subtree member inside => exact .inr (.inr ⟨_, subtree, _, member, inside⟩)
  | .null => by simpa [emitDetailNode, namesAll] using fun inside => by cases inside
  | .bool _ => by simpa [emitDetailNode, namesAll] using fun inside => by cases inside
  | .num _ => by simpa [emitDetailNode, namesAll] using fun inside => by cases inside
  | .str _ => by simpa [emitDetailNode, namesAll] using fun inside => by cases inside

theorem mem_names_emitAll (tag : String) : ∀ nodes : List Value,
    name ∈ namesAll (emitAll tag nodes) ↔ ∃ node ∈ nodes, NamedIn name tag node
  | [] => by simp [emitAll, namesAll]
  | node :: nodes => by
    rw [emitAll, namesAll_append, List.mem_append, mem_names_emitDetailNode tag node,
      mem_names_emitAll tag nodes]
    simp

theorem mem_names_emitChildren : ∀ node : List (String × Value),
    name ∈ namesAll (emitChildren node) ↔ ∃ children,
      Json.lookup "_children" node = some (.obj children) ∧ ∃ i ∈ children, NamedIn name i.1 i.2
  | [] => by simp [emitChildren, namesAll, Json.lookup]
  | (key, value) :: rest => by
    rw [emitChildren, Json.lookup_cons]
    split
    · rw [mem_names_emitSubtree value]
      simp
    · exact mem_names_emitChildren rest

theorem mem_names_emitSubtree : ∀ value : Value,
    name ∈ namesAll (emitSubtree value) ↔ ∃ children, value = .obj children ∧
      ∃ i ∈ children, NamedIn name i.1 i.2
  | .obj children => by
    rw [emitSubtree, mem_names_emitItems children]
    simp
  | .arr _ => by simp [emitSubtree, namesAll]
  | .null => by simp [emitSubtree, namesAll]
  | .bool _ => by simp [emitSubtree, namesAll]
  | .num _ => by simp [emitSubtree, namesAll]
  | .str _ => by simp [emitSubtree, namesAll]

theorem mem_names_emitItems : ∀ items : List (String × Value),
    name ∈ namesAll (emitItems items) ↔ ∃ i ∈ items, NamedIn name i.1 i.2
  | [] => by simp [emitItems, namesAll]
  | (tag, node) :: rest => by
    rw [emitItems, namesAll_append, List.mem_append, mem_names_emitDetailNode tag node,
      mem_names_emitItems rest]
    simp

end

def ownNames : List String :=
  ["event", "version", "uid", "type", "time", "start", "stale", "how", "point", "lat", "lon", "hae",
    "le", "ce", "detail", "contact", "callsign", "track", "course", "speed", "remarks"]

theorem ownNames_not_refused : ∀ name ∈ ownNames, refused name = false := by decide

theorem mem_addExtras (attrs : Dict String String) (extras : List (String × Value)) :
    name ∈ (addExtras attrs extras).keys ↔
      name ∈ attrs.keys ∨ ∃ s, (name, .str s) ∈ extras := by
  induction extras generalizing attrs with
  | nil => simp [addExtras]
  | cons extra extras ih =>
    obtain ⟨key, v⟩ := extra
    cases v with
    | str s =>
      rw [addExtras, ih]
      split
      · rename_i known
        simp only [List.mem_cons, Prod.mk.injEq, Value.str.injEq]
        constructor
        · rintro (old | ⟨s', later⟩)
          · exact .inl old
          · exact .inr ⟨s', .inr later⟩
        · rintro (old | ⟨s', ⟨rfl, rfl⟩ | later⟩)
          · exact .inl old
          · exact .inl known
          · exact .inr ⟨s', later⟩
      · simp only [mem_keys_set, List.mem_cons, Prod.mk.injEq, Value.str.injEq, exists_or,
          exists_and_left, exists_eq, and_true]
        tauto
    | null => exact (ih attrs).trans (by simp)
    | bool b => exact (ih attrs).trans (by simp)
    | num q => exact (ih attrs).trans (by simp)
    | arr items => exact (ih attrs).trans (by simp)
    | obj members => exact (ih attrs).trans (by simp)

theorem mem_ofList {items : List (String × String)} (there : name ∈ (ofList items).keys) :
    name ∈ items.map Prod.fst := by
  rw [ofList, mem_keys_foldl] at there
  rcases there with impossible | ⟨s, member⟩
  · exact absurd impossible List.not_mem_nil
  · exact List.mem_map.mpr ⟨_, member, rfl⟩

variable {cto : CTO} {fmt : OutputFormat}

theorem mem_ownAttrs {uid cotType time start stale : String}
    (there : name ∈ (ownAttrs cto uid cotType time start stale).keys) : name ∈ ownNames := by
  have base (required : name ∈ (ofList (requiredAttrs uid cotType time start stale)).keys) :
      name ∈ ownNames :=
    (by decide : ["version", "uid", "type", "time", "start", "stale"] ⊆ ownNames)
      (mem_ofList required)
  unfold ownAttrs at there
  split at there
  · rcases (mem_keys_set _ _ _).mp there with rfl | required
    · decide
    · exact base required
  · exact base there

theorem mem_trackAttrs {k : Kinematics} (there : name ∈ (trackAttrs py k).map Prod.fst) :
    name ∈ ownNames := by
  unfold trackAttrs at there
  cases course : k.courseDeg <;> cases speed : k.speedMps <;> rw [course, speed] at there
  · cases there
  · exact (by decide : ["speed"] ⊆ ownNames) there
  · exact (by decide : ["course"] ⊆ ownNames) there
  · exact (by decide : ["course", "speed"] ⊆ ownNames) there

theorem mem_typedElements (there : name ∈ namesAll (typedElements py cto)) : name ∈ ownNames := by
  have contact (there : name ∈ namesAll (contactElement cto).toList) : name ∈ ownNames := by
    unfold contactElement at there
    cases callsign : truthyStr cto.callsign with
    | none =>
      rw [callsign] at there
      cases there
    | some s =>
      rw [callsign] at there
      exact (by decide : ["contact", "callsign"] ⊆ ownNames) there
  have track (there : name ∈ namesAll (trackElement py cto).toList) : name ∈ ownNames := by
    unfold trackElement at there
    cases kinematics : cto.kinematics with
    | none =>
      rw [kinematics] at there
      cases there
    | some k =>
      rw [kinematics, Option.bind_some] at there
      split at there
      · cases there
      · simp only [Option.toList_some, namesAll, names, List.append_nil, List.mem_cons] at there
        rcases there with rfl | attribute_
        · decide
        · exact mem_trackAttrs (mem_ofList attribute_)
  have remarks (there : name ∈ namesAll (remarksElement cto).toList) : name ∈ ownNames := by
    unfold remarksElement at there
    cases text : truthyStr cto.remarks with
    | none =>
      rw [text] at there
      cases there
    | some s =>
      rw [text] at there
      exact (by decide : ["remarks"] ⊆ ownNames) there
  rw [typedElements, namesAll_append, namesAll_append, List.mem_append, List.mem_append] at there
  rcases there with (here | here) | here
  · exact contact here
  · exact track here
  · exact remarks here

/-- The stored detail again, but for some of its elements. -/
def restoredBut (cto : CTO) (skip : List String) : List Element :=
  match cto.attributes.get? "cot_detail" with
  | some (.obj stored) => emitItems (stored.filter (fun i => i.1 ∉ skip))
  | _ => []

theorem mem_restoredBut {skip : List String} :
    name ∈ namesAll (restoredBut cto skip) ↔
      ∃ stored, cto.attributes.get? "cot_detail" = some (.obj stored) ∧
        ∃ i ∈ stored, i.1 ∉ skip ∧ NamedIn name i.1 i.2 := by
  unfold restoredBut
  split
  · rename_i stored kept
    simp only [kept, Option.some.injEq, Value.obj.injEq, exists_eq_left', mem_names_emitItems,
      List.mem_filter, decide_eq_true_eq, and_assoc]
  · rename_i other
    refine iff_of_false List.not_mem_nil ?_
    rintro ⟨stored, kept, _⟩
    exact other stored kept

theorem mem_detail_iff :
    name ∈ namesAll (restoredBut cto (skipped py cto fmt)) ↔
      ∃ stored tag node, cto.attributes.get? "cot_detail" = some (.obj stored) ∧
        (tag, node) ∈ stored ∧ tag ∉ skipped py cto fmt ∧ NamedIn name tag node := by
  rw [mem_restoredBut]
  constructor
  · rintro ⟨stored, kept, i, member, restored, inside⟩
    exact ⟨stored, i.1, i.2, kept, member, restored, inside⟩
  · rintro ⟨stored, tag, node, kept, member, restored, inside⟩
    exact ⟨stored, kept, (tag, node), member, restored, inside⟩

theorem mem_names_restored :
    name ∈ namesAll (restored cto) ↔ BringsName py cto .cotProtobuf name := by
  have same : restored cto = restoredBut cto (skipped py cto .cotProtobuf) := rfl
  rw [same, mem_detail_iff]
  constructor
  · rintro ⟨stored, tag, node, kept, member, restored, inside⟩
    exact .detail kept member restored inside
  · intro brings
    cases brings with
    | extra xml => cases xml
    | detail kept member restored inside => exact ⟨_, _, _, kept, member, restored, inside⟩

theorem mem_eventAttrs {uid cotType time start stale : String} :
    name ∈ (eventAttrs cto uid cotType time start stale).keys ↔
      name ∈ (ownAttrs cto uid cotType time start stale).keys ∨ ∃ extras s,
        cto.attributes.get? "cot_event_extras" = some (.obj extras) ∧ (name, .str s) ∈ extras := by
  rw [eventAttrs_eq]
  split
  · rename_i extras stored
    rw [mem_addExtras]
    simp [stored]
  · rename_i other
    constructor
    · exact .inl
    · rintro (own | ⟨extras, s, stored, _⟩)
      · exact own
      · exact absurd stored (other extras)

/-- The names in a generated event are those of egress and those that the attributes bring. -/
theorem mem_names_event {time start stale : String} {lon lat : Rat}
    (there : name ∈ namesAll [buildEvent py cto time start stale lon lat]) :
    name ∈ ownNames ∨ BringsName py cto .cotXml name := by
  have detail : detailElement py cto = .mk "detail" .empty none
    (typedElements py cto ++ restoredBut cto (skipped py cto .cotXml)) := rfl
  have no_key : name ∉ (Dict.empty : Dict String String).keys := List.not_mem_nil
  simp only [buildEvent, pointElement, detail, namesAll, names, List.append_nil, namesAll_append,
    List.mem_append, List.mem_cons, List.cons_append, mem_eventAttrs, mem_detail_iff, no_key,
    false_or] at there
  rcases there with rfl | (own | ⟨extras, s, stored, there⟩) | rfl | point | rfl | typed |
    ⟨stored, tag, node, kept, member, restored, inside⟩
  · exact .inl (by decide)
  · exact .inl (mem_ownAttrs own)
  · exact .inr (.extra rfl stored there)
  · exact .inl (by decide)
  · exact .inl ((by decide : ["lat", "lon", "hae", "le", "ce"] ⊆ ownNames) (mem_ofList point))
  · exact .inl (by decide)
  · exact .inl (mem_typedElements typed)
  · exact .inr (.detail kept member restored inside)

theorem mem_of_bringsName {time start stale : String} {lon lat : Rat}
    (brings : BringsName py cto .cotXml name) :
    name ∈ namesAll [buildEvent py cto time start stale lon lat] := by
  have detail : detailElement py cto = .mk "detail" .empty none
    (typedElements py cto ++ restoredBut cto (skipped py cto .cotXml)) := rfl
  simp only [buildEvent, pointElement, detail, namesAll, names, List.append_nil, namesAll_append,
    List.mem_append, List.mem_cons, List.cons_append, mem_eventAttrs, mem_detail_iff]
  cases brings with
  | extra _ stored there => exact .inr (.inl (.inr ⟨_, _, stored, there⟩))
  | detail kept member restored inside =>
    exact .inr (.inr (.inr (.inr (.inr (.inr (.inr
      ⟨_, _, _, kept, member, restored, inside⟩))))))

end Names

section Total

variable {t : Translators} {cto : CTO} {fmt : OutputFormat}

theorem checked_ok_iff {A : Type} {written : List Element} {a b : A} :
    checked cto written a = .ok b ↔
      (∀ q ∈ floated cto, tooLarge q = false) ∧ (∀ name ∈ namesAll written, refused name = false) ∧
        a = b := by
  unfold checked
  split
  · rename_i large
    simp only [reduceCtorEq, false_iff, not_and]
    intro none_large
    obtain ⟨q, among, large⟩ := List.any_eq_true.mp large
    exact absurd large (by simp [none_large q among])
  · rename_i none_large
    split
    · rename_i bad
      simp only [reduceCtorEq, false_iff, not_and]
      intro _ none_bad
      obtain ⟨name, among, bad⟩ := List.any_eq_true.mp bad
      exact absurd bad (by simp [none_bad name among])
    · rename_i none_bad
      simp_all

theorem isNumber_coordinate {v : Value} (py : Normalizers.Runtime) (numeric : isNumber v = true) :
    ∃ q, coordinate py v = .ok q := by
  cases v with
  | num q => exact ⟨q, rfl⟩
  | bool b => exact ⟨_, rfl⟩
  | null => cases numeric
  | str s => cases numeric
  | arr items => cases numeric
  | obj members => cases numeric

theorem coordinates_of_point (py : Normalizers.Runtime) (g : Geometry) (point : g.type = .point) :
    ∃ lon lat, raiseNone .typeError g.coordinates[0]? >>= coordinate py = .ok lon ∧
      raiseNone .typeError g.coordinates[1]? >>= coordinate py = .ok lat := by
  obtain ⟨x, y, rest, coordinates, first, second⟩ := g.point_numbers point
  obtain ⟨lon, lon_ok⟩ := isNumber_coordinate py first
  obtain ⟨lat, lat_ok⟩ := isNumber_coordinate py second
  rw [coordinates]
  exact ⟨lon, lat, lon_ok, lat_ok⟩

theorem coordinates_of_other (py : Normalizers.Runtime) (g : Geometry) (other : g.type ≠ .point) :
    raiseNone .typeError g.coordinates[0]? >>= coordinate py = .error .typeError := by
  obtain ⟨items, rest, coordinates⟩ := g.head_list other
  rw [coordinates]
  rfl

/-- What is written as XML, where the object is a point with times that can be converted. -/
theorem ctoToEvent_ok_iff (py : Normalizers.Runtime) (cto : CTO) :
    (∃ r, ctoToEvent py cto = .ok r) ↔ cto.geometry.type = .point ∧
      ∀ time ∈ timesOf cto, (astimezone py time).isSome = true := by
  constructor
  · rintro ⟨⟨event, lossy⟩, made⟩
    obtain ⟨w⟩ := ctoToEvent_eq_ok made
    refine ⟨?_, ?_⟩
    · by_contra other
      cases (coordinates_of_other py cto.geometry other).symm.trans w.lon_eq
    · intro time among
      simp only [timesOf, List.mem_cons, List.not_mem_nil, or_false] at among
      rcases among with rfl | rfl | rfl
      · rw [w.time_eq]; rfl
      · rw [w.start_eq]; rfl
      · rw [w.stale_eq]; rfl
  · rintro ⟨point, times⟩
    obtain ⟨lon, lat, lon_ok, lat_ok⟩ := coordinates_of_point py cto.geometry point
    simp only [timesOf, List.forall_mem_cons, Option.isSome_iff_exists] at times
    obtain ⟨⟨time, time_eq⟩, ⟨start, start_eq⟩, ⟨stale, stale_eq⟩, _⟩ := times
    exact ⟨_, ctoToEvent_ok py cto time_eq start_eq stale_eq lon_ok lat_ok⟩

theorem toMillis_ok_iff {time : Datetime} (since : 0 ≤ time.instant.tdiv 1000) :
    (∃ ms, toMillis time = .ok ms) ↔ (atOffset time.instant 0).isSome = true := by
  unfold toMillis
  cases utc : atOffset time.instant 0 with
  | none => simp
  | some u =>
    have same := (atOffset_eq_some utc).1
    simp [same, since]

theorem ctoToTakMessage_ok_iff (py : Normalizers.Runtime) (et : Etree) (cto : CTO)
    (since : ∀ time ∈ timesOf cto, 0 ≤ time.instant.tdiv 1000) :
    (∃ r, ctoToTakMessage py et cto = .ok r) ↔ cto.geometry.type = .point ∧
      ∀ time ∈ timesOf cto, (atOffset time.instant 0).isSome = true := by
  have fits : (∀ time ∈ timesOf cto, (atOffset time.instant 0).isSome = true) ↔
      ∀ time ∈ timesOf cto, ∃ ms, toMillis time = .ok ms :=
    forall₂_congr (fun time among => (toMillis_ok_iff (since time among)).symm)
  rw [fits]
  constructor
  · rintro ⟨⟨msg, lossy⟩, made⟩
    obtain ⟨ev, ⟨s⟩, _⟩ := ctoToTakMessage_eq_ok made
    refine ⟨?_, ?_⟩
    · by_contra other
      cases (coordinates_of_other py cto.geometry other).symm.trans s.lon_ok
    · intro time among
      simp only [timesOf, List.mem_cons, List.not_mem_nil, or_false] at among
      rcases among with rfl | rfl | rfl
      · exact ⟨_, s.time_ok⟩
      · exact ⟨_, s.start_ok⟩
      · exact ⟨_, s.stale_ok⟩
  · rintro ⟨point, times⟩
    obtain ⟨lon, lat, lon_ok, lat_ok⟩ := coordinates_of_point py cto.geometry point
    simp only [timesOf, List.forall_mem_cons] at times
    obtain ⟨⟨time, time_eq⟩, ⟨start, start_eq⟩, ⟨stale, stale_eq⟩, _⟩ := times
    refine ⟨({ cotEvent := some (pbEvent et cto time start stale lon lat) }, lossyFields cto), ?_⟩
    unfold ctoToTakMessage
    rw [time_eq, start_eq, stale_eq, lon_ok, lat_ok]
    rfl

theorem lossy_names (cto : CTO) :
    ("geometry_not_point" ∈ lossyFields cto ↔ cto.geometry.type ≠ .point) ∧
      ("cot_type_synthesized" ∈ lossyFields cto ↔
        cto.symbology.cotType = none ∨ cto.symbology.cotType = some "") := by
  have empty : truthyStr cto.symbology.cotType = none ↔
      cto.symbology.cotType = none ∨ cto.symbology.cotType = some "" := by
    unfold truthyStr
    cases cto.symbology.cotType with
    | none => simp
    | some s => simp
  unfold lossyFields
  rw [← empty]
  constructor
  · split_ifs <;> simp_all
  · split_ifs <;> simp_all

theorem egress_translate {r : List UInt8 × List String} (made : egress t cto fmt = .ok r) :
    translate t cto fmt = .ok r := by
  cases fmt with
  | cotXml =>
    obtain ⟨⟨event, lossy⟩, event_ok, rest⟩ := bind_ok made
    obtain ⟨_, _, rfl⟩ := checked_ok_iff.mp rest
    simp only [translate, ctoToCotXml, event_ok, Except.map]
  | cotProtobuf =>
    obtain ⟨⟨msg, lossy⟩, msg_ok, rest⟩ := bind_ok made
    obtain ⟨_, _, rfl⟩ := checked_ok_iff.mp rest
    simp only [translate, ctoToCotPb, msg_ok, Except.map]

theorem no_refused_event {time start stale : String} {lon lat : Rat} :
    (∀ name ∈ namesAll [buildEvent py cto time start stale lon lat], refused name = false) ↔
      ∀ name, BringsName py cto .cotXml name → refused name = false := by
  constructor
  · intro fine name brings
    exact fine name (mem_of_bringsName brings)
  · intro fine name there
    rcases mem_names_event there with own | brings
    · exact ownNames_not_refused name own
    · exact fine name brings

theorem translatable_of_egress (since : ∀ time ∈ timesOf cto, 0 ≤ time.instant.tdiv 1000)
    {bytes : List UInt8} {lossy : List String} (made : egress t cto fmt = .ok (bytes, lossy)) :
    lossy = lossyFields cto ∧ Translatable t cto fmt := by
  cases fmt with
  | cotXml =>
    obtain ⟨⟨event, lossy'⟩, event_ok, rest⟩ := bind_ok made
    obtain ⟨numbers, fine, pair⟩ := checked_ok_iff.mp rest
    obtain ⟨w⟩ := ctoToEvent_eq_ok event_ok
    obtain ⟨point, times⟩ := (ctoToEvent_ok_iff t.py cto).mp ⟨_, event_ok⟩
    rw [w.event_eq] at fine
    exact ⟨(Prod.mk.inj pair).2.symm.trans w.lossy_eq,
      point, times, numbers, no_refused_event.mp fine⟩
  | cotProtobuf =>
    obtain ⟨⟨msg, lossy'⟩, msg_ok, rest⟩ := bind_ok made
    obtain ⟨numbers, fine, pair⟩ := checked_ok_iff.mp rest
    obtain ⟨ev, _, _, lossy_eq⟩ := ctoToTakMessage_eq_ok msg_ok
    obtain ⟨point, times⟩ := (ctoToTakMessage_ok_iff t.py t.et cto since).mp ⟨_, msg_ok⟩
    refine ⟨(Prod.mk.inj pair).2.symm.trans lossy_eq, point, times, numbers, ?_⟩
    intro name brings
    exact fine name (mem_names_restored.mpr brings)

theorem egress_of_translatable (since : ∀ time ∈ timesOf cto, 0 ≤ time.instant.tdiv 1000)
    (fit : Translatable t cto fmt) : ∃ bytes, egress t cto fmt = .ok (bytes, lossyFields cto) := by
  cases fmt with
  | cotXml =>
    obtain ⟨⟨event, lossy⟩, event_ok⟩ := (ctoToEvent_ok_iff t.py cto).mpr ⟨fit.point, fit.times⟩
    obtain ⟨w⟩ := ctoToEvent_eq_ok event_ok
    refine ⟨Text.encode (t.et.tostring event), ?_⟩
    unfold egress
    rw [event_ok, ok_bind, ← w.lossy_eq]
    refine checked_ok_iff.mpr ⟨fit.numbers, ?_, rfl⟩
    rw [w.event_eq]
    exact no_refused_event.mpr fit.names
  | cotProtobuf =>
    obtain ⟨⟨msg, lossy⟩, msg_ok⟩ :=
      (ctoToTakMessage_ok_iff t.py t.et cto since).mpr ⟨fit.point, fit.times⟩
    obtain ⟨ev, _, _, lossy_eq⟩ := ctoToTakMessage_eq_ok msg_ok
    refine ⟨Listeners.encodeFrame (t.pb.serializeToString msg), ?_⟩
    unfold egress
    rw [msg_ok, ok_bind, ← lossy_eq]
    exact checked_ok_iff.mpr
      ⟨fit.numbers, fun name there => fit.names name (mem_names_restored.mp there), rfl⟩

/-- The translation ends with bytes exactly for a point whose times have a date, whose numbers are
floats and whose attributes bring no name that cannot be written. -/
theorem translated_iff_translatable (t : Translators) (cto : CTO) (fmt : OutputFormat)
    (since : ∀ time ∈ timesOf cto, 0 ≤ time.instant.tdiv 1000) :
    Translated t cto fmt ↔ Translatable t cto fmt := by
  constructor
  · rintro ⟨bytes, lossy, made, _⟩
    exact (translatable_of_egress since made).2
  · intro fit
    obtain ⟨bytes, made⟩ := egress_of_translatable since fit
    exact ⟨bytes, lossyFields cto, made, lossy_names cto⟩

end Total

theorem newYear_since : 0 ≤ newYear.instant.tdiv 1000 := by decide +kernel

/-- A report with a point, as XML. -/
theorem translated_iff_translatable_report :
    Translated reportTranslators (reportCto unsurveyed []) .cotXml ↔
      Translatable reportTranslators (reportCto unsurveyed []) .cotXml := by
  refine translated_iff_translatable reportTranslators (reportCto unsurveyed []) .cotXml ?_
  intro time among
  simp only [timesOf, List.mem_cons, List.not_mem_nil, or_false] at among
  rcases among with rfl | rfl | rfl <;> exact newYear_since

def lineCto : CTO :=
  { reportCto unsurveyed [] with
    geometry := ⟨.lineString, [.arr [.num 11, .num 48], .arr [.num 12, .num 49]], rfl⟩ }

/-- The line is lost with an exception, in both formats. -/
theorem line_not_translated :
    (∀ time ∈ timesOf lineCto, 0 ≤ time.instant.tdiv 1000) ∧
      ∀ fmt, egress reportTranslators lineCto fmt = .error .typeError ∧
        ¬ Translated reportTranslators lineCto fmt := by
  have raised (fmt : OutputFormat) : egress reportTranslators lineCto fmt = .error .typeError := by
    have lon := coordinates_of_other plainRuntime lineCto.geometry (by decide)
    cases fmt with
    | cotXml =>
      have time : formatIso plainRuntime newYear = .ok (zulu newYear) :=
        formatIso_of_some (by decide +kernel)
      have event_time : formatIso plainRuntime lineCto.eventTime = .ok (zulu newYear) := time
      have start : formatIso plainRuntime (lineCto.validFrom.getD lineCto.eventTime) =
        .ok (zulu newYear) := time
      have stale : formatIso plainRuntime (lineCto.validTo.getD lineCto.eventTime) =
        .ok (zulu newYear) := time
      have event : ctoToEvent plainRuntime lineCto = .error .typeError := by
        unfold ctoToEvent
        rw [event_time, start, stale, lon]
        rfl
      exact congrArg (· >>= _) event
    | cotProtobuf =>
      have time : toMillis newYear = .ok 1704067200000 := by decide +kernel
      have event_time : toMillis lineCto.eventTime = .ok 1704067200000 := time
      have start : toMillis (lineCto.validFrom.getD lineCto.eventTime) = .ok 1704067200000 := time
      have stale : toMillis (lineCto.validTo.getD lineCto.eventTime) = .ok 1704067200000 := time
      have message (et : Etree) : ctoToTakMessage plainRuntime et lineCto = .error .typeError := by
        unfold ctoToTakMessage
        rw [event_time, start, stale, lon]
        rfl
      exact congrArg (· >>= _) (message _)
  refine ⟨?_, fun fmt => ⟨raised fmt, ?_⟩⟩
  · intro time among
    simp only [timesOf, List.mem_cons, List.not_mem_nil, or_false] at among
    rcases among with rfl | rfl | rfl <;> exact newYear_since
  · rintro ⟨bytes, lossy, made, _⟩
    cases (raised fmt).symm.trans made

end TacticalGateway.Routes
