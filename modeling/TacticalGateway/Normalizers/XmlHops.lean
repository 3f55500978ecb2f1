import TacticalGateway.Normalizers.DetailOrder
import TacticalGateway.Normalizers.XmlFields
import TacticalGateway.Normalizers.XmlLoss

/-! An event on its way through several gateways: what the second one writes, all later ones write
again. -/
namespace TacticalGateway.Normalizers
open ElementTree Decimal Grouping
open Json (Value)

section Second

variable {py : Runtime} {cto : CTO} {e : Element} {lossy : List String}

/-- What the next gateway makes of a generated event. -/
def Written.object (w : Written py cto e lossy) (intake : Intake) : CTO :=
  buildCto py (reread e) intake (rereadHeader w) w.time w.start w.stale

/-- The event that it generates. -/
def Written.event (w : Written py cto e lossy) (intake : Intake) : Element :=
  buildEvent py (w.object intake) (zulu w.time) (zulu w.start) (zulu w.stale)
    (py.reprinted 7 w.lon) (py.reprinted 7 w.lat)

theorem astimezone_again {t u : Datetime} (converted : astimezone py t = some u) :
    astimezone py u = some u := by
  have same := astimezone_instant converted
  rw [astimezone] at converted ⊢
  rw [same]
  exact converted

def Written.next (w : Written py cto e lossy) (intake : Intake) :
    Written py (w.object intake) (w.event intake) (lossyFields (w.object intake)) where
  time := w.time
  start := w.start
  stale := w.stale
  lon := py.reprinted 7 w.lon
  lat := py.reprinted 7 w.lat
  time_eq := astimezone_again w.time_eq
  start_eq := astimezone_again w.start_eq
  stale_eq := astimezone_again w.stale_eq
  lon_eq := rfl
  lat_eq := rfl
  event_eq := rfl
  lossy_eq := rfl

theorem Written.generated (w : Written py cto e lossy) (intake : Intake) :
    ctoToEvent py (w.object intake) = .ok (w.event intake, lossyFields (w.object intake)) :=
  ctoToEvent_ok py (w.object intake) (w.next intake).time_eq (w.next intake).start_eq
    (w.next intake).stale_eq rfl rfl

theorem truthyStr_ne_empty {s : Option String} {value : String} (shown : truthyStr s = some value) :
    value ≠ "" := by
  simpa using (Option.filter_eq_some_iff.mp shown).2

theorem egressUid_ne_empty (cto : CTO) : egressUid cto ≠ "" := by
  rw [egressUid]
  cases shown : truthyStr cto.sourceUid with
  | none => exact uuidText_ne_empty cto.uid
  | some uid => exact truthyStr_ne_empty shown

theorem egressType_ne_empty (cto : CTO) : egressType cto ≠ "" := by
  rw [egressType]
  cases shown : truthyStr cto.symbology.cotType with
  | none =>
    intro same
    have chars := congrArg String.toList same
    simp [String.toList_append] at chars
  | some cotType => exact truthyStr_ne_empty shown

theorem egressUid_object (w : Written py cto e lossy) (intake : Intake) :
    egressUid (w.object intake) = egressUid cto :=
  egressUid_built.mpr (egressUid_ne_empty cto)

theorem egressType_object (w : Written py cto e lossy) (intake : Intake) :
    egressType (w.object intake) = egressType cto :=
  egressType_built.mpr (egressType_ne_empty cto)

theorem event_intake (w : Written py cto e lossy) (intake other : Intake) :
    w.event intake = w.event other := by
  have same : egressUid (w.object intake) = egressUid (w.object other) := by
    rw [egressUid_object, egressUid_object]
  rw [Written.event, Written.event, buildEvent, buildEvent, same]
  rfl

theorem altitude_object (exact : py.Exact) (w : Written py cto e lossy) (intake : Intake) :
    (w.object intake).altitude = some
      { valueM := (cto.altitude.map (fun a => rounded 2 a.valueM)).getD 9999999
        accuracyM := (cto.altitude.bind Altitude.accuracyM).bind
          (fun q => accuracy (rounded 2 q)) } := by
  obtain ⟨_, _, hae, le, _⟩ := get_point py cto w.lon w.lat
  have vertical := accuracy_text exact (cto.altitude.bind Altitude.accuracyM)
  rw [← leText] at vertical
  obtain ⟨limit, limit_eq, vertical⟩ := Option.map_eq_some_iff.mp vertical
  have value : py.float (haeText py cto) =
      some ((cto.altitude.map (fun a => rounded 2 a.valueM)).getD 9999999) := by
    unfold haeText
    cases cto.altitude with
    | none => exact py.float_sentinel
    | some a => exact float_format exact a.valueM (by decide)
  change altitudeOf py (reread (pointElement py cto w.lon w.lat)) = _
  simp only [altitudeOf, hae, le, value, limit_eq, Option.map_some, vertical]

theorem accuracy_twice (q : Option Rat) :
    (q.bind (fun q => accuracy (rounded 2 q))).bind (fun q => accuracy (rounded 2 q)) =
      q.bind (fun q => accuracy (rounded 2 q)) := by
  cases q with
  | none => rfl
  | some q =>
    rw [Option.bind_some]
    by_cases small : rounded 2 q < 9999999
    · rw [accuracy, if_pos small, Option.bind_some, rounded_rounded, accuracy, if_pos small]
    · rw [accuracy, if_neg small]
      rfl

theorem rounded_sentinel : rounded 2 9999999 = 9999999 := by decide +kernel

theorem altitude_twice (exact : py.Exact) (w : Written py cto e lossy)
    (intake second : Intake) :
    ((w.next intake).object second).altitude = (w.object intake).altitude := by
  have value (a : Option Altitude) :
      rounded 2 ((a.map (fun a => rounded 2 a.valueM)).getD 9999999) =
        (a.map (fun a => rounded 2 a.valueM)).getD 9999999 := by
    cases a with
    | none => exact rounded_sentinel
    | some a => exact rounded_rounded 2 a.valueM
  rw [altitude_object exact, altitude_object exact]
  simp only [Option.map_some, Option.getD_some, Option.bind_some, value, accuracy_twice]

theorem horizontalAccuracy_object (exact : py.Exact) (w : Written py cto e lossy)
    (intake : Intake) :
    (w.object intake).attributes.get? "cot_horizontal_accuracy_m" =
      (((cto.attributes.get? "cot_horizontal_accuracy_m").bind number).bind
        (fun q => accuracy (rounded 2 q))).map Value.num := by
  obtain ⟨_, _, _, _, ce⟩ := get_point py cto w.lon w.lat
  have horizontal :=
    accuracy_text exact ((cto.attributes.get? "cot_horizontal_accuracy_m").bind number)
  rw [← ceText] at horizontal
  obtain ⟨limit, limit_eq, horizontal⟩ := Option.map_eq_some_iff.mp horizontal
  refine (get?_attributesOf py (reread e) (rereadHeader w).point).2.2.2.trans ?_
  change (horizontalAccuracy py (reread (pointElement py cto w.lon w.lat))).map Value.num = _
  rw [horizontalAccuracy, ce, Option.bind_some, limit_eq, Option.bind_some, horizontal]

theorem horizontalAccuracy_twice (exact : py.Exact) (w : Written py cto e lossy)
    (intake second : Intake) :
    ((w.next intake).object second).attributes.get? "cot_horizontal_accuracy_m" =
      (w.object intake).attributes.get? "cot_horizontal_accuracy_m" := by
  have back (q : Option Rat) : (q.map Value.num).bind number = q := by cases q <;> rfl
  rw [horizontalAccuracy_object exact, horizontalAccuracy_object exact, back, accuracy_twice]

theorem point_twice (exact : py.Exact) (w : Written py cto e lossy) (intake second : Intake)
    (lon lat : Rat) :
    pointElement py ((w.next intake).object second) lon lat =
      pointElement py (w.object intake) lon lat := by
  rw [pointElement, pointElement, pointAttrs, pointAttrs, altitude_twice exact,
    horizontalAccuracy_twice exact]

end Second
section Fields

variable {py : Runtime} {root : Element} {intake second : Intake} {h : Header} {t s u : Datetime}
  {e : Element} {lossy : List String}

/-- The attributes that stand before the extra ones. -/
def howAttrs (how : Option String) (uid cotType time start stale : String) : Dict String String :=
  match how with
  | some how => (ofList (requiredAttrs uid cotType time start stale)).set "how" how
  | none => ofList (requiredAttrs uid cotType time start stale)

theorem known_howAttrs (how : Option String) (uid cotType time start stale : String) :
    ∀ key ∈ (howAttrs how uid cotType time start stale).keys, key ∈ knownEventAttrs := by
  have required : (ofList (requiredAttrs uid cotType time start stale)).keys =
      ["version", "uid", "type", "time", "start", "stale"] := by
    rw [Dict.keys, items_ofList (distinct_requiredAttrs uid cotType time start stale)]
    rfl
  intro key member
  unfold howAttrs at member
  split at member
  · rw [Dict.keys_set, required, if_neg (by decide)] at member
    revert key
    decide
  · rw [required] at member
    revert key
    decide

theorem get?_howAttrs (how : Option String) (uid cotType time start stale : String) :
    (howAttrs how uid cotType time start stale).get? "how" = how := by
  unfold howAttrs
  split
  · exact Dict.get?_set_self _ _ _
  · rw [Dict.get?, items_ofList (distinct_requiredAttrs uid cotType time start stale)]
    rfl

theorem items_eventAttrs_built (uid cotType time start stale : String) :
    (eventAttrs (buildCto py root intake h t s u) uid cotType time start stale).items =
      (howAttrs (root.get "how") uid cotType time start stale).items ++ (extrasOf root).items := by
  obtain ⟨-, extras, how, -⟩ := get?_attributesOf py root h.point
  have own : ownAttrs (buildCto py root intake h t s u) uid cotType time start stale =
      howAttrs (root.get "how") uid cotType time start stale := by
    have how : (buildCto py root intake h t s u).attributes.get? "cot_how" = _ := how
    unfold ownAttrs howAttrs
    rw [how]
    cases root.get "how" <;> rfl
  have extras : (buildCto py root intake h t s u).attributes.get? "cot_event_extras" = _ := extras
  rw [eventAttrs_eq, extras, own]
  split
  · rename_i items found
    split at found
    · cases found
    · cases found
      refine addExtras_fresh _ _ (distinct_extras root.attrib) ?_
      intro i member known
      have unknown := (List.mem_filter.mp member).2
      simp only [decide_eq_true_eq] at unknown
      exact unknown (known_howAttrs _ _ _ _ _ _ i.1 known)
  · rename_i other
    by_cases none_there : (extrasOf root).items = []
    · rw [none_there, List.append_nil]
    · rw [if_neg none_there] at other
      exact absurd rfl (other _)

theorem eventAttrs_twice (w : Written py (buildCto py root intake h t s u) e lossy)
    (uid cotType time start stale : String) :
    eventAttrs (w.object second) uid cotType time start stale =
      eventAttrs (buildCto py root intake h t s u) uid cotType time start stale := by
  have attrib : (reread e).attrib.items =
      (howAttrs (root.get "how") (egressUid (buildCto py root intake h t s u))
        (egressType (buildCto py root intake h t s u)) (zulu w.time) (zulu w.start)
          (zulu w.stale)).items ++ (extrasOf root).items := by
    rw [attrib_reread]
    exact (congrArg (fun e => e.attrib.items) w.event_eq).trans (items_eventAttrs_built _ _ _ _ _)
  have unknown : ∀ i ∈ (extrasOf root).items, i.1 ∉ knownEventAttrs := by
    intro i member
    simpa using (List.mem_filter.mp member).2
  have extras : (extrasOf (reread e)).items = (extrasOf root).items := by
    change (reread e).attrib.items.filter (fun i => i.1 ∉ knownEventAttrs) = _
    rw [attrib, List.filter_append, List.filter_eq_nil_iff.mpr, List.nil_append,
      List.filter_eq_self.mpr]
    · intro i member
      simpa using unknown i member
    · intro i member
      simpa using known_howAttrs _ _ _ _ _ _ i.1 (List.mem_map_of_mem member)
  have how : (reread e).get "how" = root.get "how" := by
    have others : (extrasOf root).items.find? (fun i => i.1 = "how") = none := by
      rw [List.find?_eq_none]
      intro i member named
      have same : i.1 = "how" := by simpa using named
      exact unknown i member (same ▸ by decide)
    rw [Element.get, Dict.get?, attrib, List.find?_append, others, Option.or_none, ← Dict.get?,
      get?_howAttrs]
  refine Dict.ext_items ?_
  rw [items_eventAttrs_built, Written.object, items_eventAttrs_built, how, extras]

end Fields
section Detail

variable {py : Runtime} {root : Element} {intake second : Intake} {h : Header} {t s u : Datetime}
  {e : Element} {lossy : List String}

/-- The course and the speed in the digits that are printed. -/
def roundedTrack (k : Kinematics) : Kinematics :=
  { k with courseDeg := k.courseDeg.map (rounded 2), speedMps := k.speedMps.map (rounded 2) }

theorem roundedTrack_twice (k : Kinematics) : roundedTrack (roundedTrack k) = roundedTrack k := by
  have twice (q : Option Rat) : (q.map (rounded 2)).map (rounded 2) = q.map (rounded 2) := by
    cases q with
    | none => rfl
    | some q => exact congrArg some (rounded_rounded 2 q)
  simp only [roundedTrack, twice]

theorem trackKinematics_written (exact : py.Exact) {k : Kinematics}
    (flat : k.verticalRateMps = none) :
    trackKinematics py (reread (.mk "track" (ofList (trackAttrs py k)) none [])) =
      some (roundedTrack k) := by
  have course := get?_trackAttrs py k "course"
  have speed := get?_trackAttrs py k "speed"
  rw [if_pos rfl] at course
  rw [if_neg (by decide), if_pos rfl] at speed
  simp only [trackKinematics, Element.get, attrib_reread, Element.attrib_mk, course, speed,
    optionalFloat_format exact, roundedTrack, flat]

theorem trackElement_eq_none_iff (py : Runtime) (cto : CTO) :
    trackElement py cto = none ↔
      ∀ k ∈ cto.kinematics, k.courseDeg = none ∧ k.speedMps = none := by
  unfold trackElement
  cases cto.kinematics with
  | none => simp
  | some k =>
    rw [Option.bind_some]
    split
    · rename_i empty
      simpa [trackAttrs] using empty
    · rename_i full
      simpa [trackAttrs] using full

theorem kinematics_object (exact : py.Exact)
    (w : Written py (buildCto py root intake h t s u) e lossy) :
    (w.object second).kinematics =
      if trackElement py (buildCto py root intake h t s u) = none then
        (buildCto py root intake h t s u).kinematics
      else (buildCto py root intake h t s u).kinematics.map roundedTrack := by
  have typed : (buildCto py root intake h t s u).kinematics =
    (root.find "detail").bind (kinematicsOf py) := rfl
  change ((reread e).find "detail").bind (kinematicsOf py) = _
  rw [find_detail w, Option.bind_some, kinematicsOf,
    find_typed (get?_attributesOf py root h.point).1 (tags_typed py _).2.1]
  cases element : trackElement py (buildCto py root intake h t s u) with
  | some track =>
    obtain ⟨k, there, made⟩ := Option.bind_eq_some_iff.mp element
    have flat : k.verticalRateMps = none := by
      obtain ⟨d, _, kinematics⟩ := Option.bind_eq_some_iff.mp (typed ▸ there)
      obtain ⟨track, _, read⟩ := Option.bind_eq_some_iff.mp kinematics
      exact trackKinematics_eq_some read
    rw [if_neg (by simp), there]
    split at made
    · cases made
    · cases made
      exact trackKinematics_written exact flat
  | none =>
    rw [if_pos rfl, typed]
    cases root.find "detail" with
    | none => rfl
    | some d =>
      change ((d.find "track").map returned).bind _ = (d.find "track").bind _
      cases d.find "track" with
      | none => rfl
      | some track => exact trackKinematics_returned py track

theorem trackElement_object (exact : py.Exact)
    (w : Written py (buildCto py root intake h t s u) e lossy)
    (second : Intake) : trackElement py (w.object second) = none ↔
      trackElement py (buildCto py root intake h t s u) = none := by
  rw [trackElement_eq_none_iff, kinematics_object exact w]
  split
  · rw [trackElement_eq_none_iff]
  · rw [trackElement_eq_none_iff]
    cases (buildCto py root intake h t s u).kinematics with
    | none => simp
    | some k => simp [roundedTrack]

theorem kinematics_twice (exact : py.Exact)
    (w : Written py (buildCto py root intake h t s u) e lossy) (first : Intake) :
    ((w.next first).object second).kinematics = (w.object first).kinematics := by
  have later : ((w.next first).object second).kinematics =
      if trackElement py (w.object first) = none then (w.object first).kinematics
      else (w.object first).kinematics.map roundedTrack := kinematics_object exact (w.next first)
  by_cases untyped : trackElement py (w.object first) = none
  · rw [later, if_pos untyped]
  · have typed := mt (trackElement_object exact w first).mpr untyped
    rw [later, if_neg untyped, kinematics_object exact w, if_neg typed, Option.map_map]
    congr 1
    funext k
    exact roundedTrack_twice k

theorem keys_ofList {items : List (String × String)} (distinct : (items.map Prod.fst).Nodup) :
    (ofList items).keys = items.map Prod.fst := by
  rw [Dict.keys, items_ofList distinct]

theorem unmarked_typed (py : Runtime) (cto : CTO) :
    ∀ e ∈ typedElements py cto, unmarked e = true := by
  have leaf {tag : String} {text : Option String} (attrs : List (String × String))
      (distinct : (attrs.map Prod.fst).Nodup)
      (names : ∀ i ∈ attrs, i.1 ∈ ["callsign", "course", "speed"]) :
      unmarked (.mk tag (ofList attrs) text []) = true := by
    rw [unmarked_iff]
    refine ⟨?_, nofun⟩
    intro name there
    rw [Element.attrib_mk, keys_ofList distinct] at there
    obtain ⟨i, member, rfl⟩ := List.mem_map.mp there
    have known := names i member
    generalize i.1 = name at known
    revert name
    decide
  intro e member
  rw [typedElements, List.mem_append, List.mem_append] at member
  rcases member with (contact | track) | remarks
  · obtain ⟨callsign, _, rfl⟩ := Option.map_eq_some_iff.mp (Option.mem_toList.mp contact)
    exact leaf _ (by simp) (by simp)
  · obtain ⟨k, _, made⟩ := Option.bind_eq_some_iff.mp (Option.mem_toList.mp track)
    split at made
    · cases made
    · cases made
      refine leaf (trackAttrs py k) ?_ ?_
      · unfold trackAttrs
        cases k.courseDeg <;> cases k.speedMps <;> simp
      · unfold trackAttrs
        cases k.courseDeg <;> cases k.speedMps <;> simp
  · obtain ⟨text, _, rfl⟩ := Option.map_eq_some_iff.mp (Option.mem_toList.mp remarks)
    exact leaf [] (by simp) (by simp)

/-- What a stored subtree holds beside the typed elements. -/
def unclaimed (py : Runtime) (cto : CTO) (detail : Option Element) : List Element :=
  ((detail.map Element.children).getD []).filter
    (fun e => e.tag ∉ (typedElements py cto).map Element.tag)

theorem children_detail (py : Runtime) (cto : CTO) {detail : Option Element}
    (stored : cto.attributes.get? "cot_detail" =
      detail.map (fun detail => .obj (detailToAttributes detail).items)) :
    (detailElement py cto).children =
      typedElements py cto ++ (grouped Element.tag (unclaimed py cto detail)).map again := by
  unfold detailElement unclaimed
  dsimp only
  rw [Element.children_mk, stored]
  cases detail with
  | none => rfl
  | some detail =>
    simp only [Option.map_some, Option.getD_some]
    rw [emit_without]

theorem settled_detail (py : Runtime) (cto : CTO) {detail : Option Element}
    (stored : cto.attributes.get? "cot_detail" =
      detail.map (fun detail => .obj (detailToAttributes detail).items)) :
    ∀ x ∈ (reread (detailElement py cto)).children, Settled x := by
  intro x member
  rw [children_reread, children_detail py cto stored] at member
  obtain ⟨y, among, rfl⟩ := List.mem_map.mp member
  refine ⟨(unmarked_reread y).mpr ?_, reread_reread y⟩
  rcases List.mem_append.mp among with typed | emitted
  · exact unmarked_typed py cto y typed
  · obtain ⟨z, _, rfl⟩ := List.mem_map.mp emitted
    exact unmarked_again z

theorem callsign_twice (exact : py.Exact)
    (w : Written py (buildCto py root intake h t s u) e lossy) :
    (w.object second).callsign = (buildCto py root intake h t s u).callsign :=
  (find_detail_built exact w).1

theorem remarks_twice (w : Written py (buildCto py root intake h t s u) e lossy) (first : Intake) :
    truthyStr ((w.next first).object second).remarks = truthyStr (w.object first).remarks := by
  have settled := settled_detail py (buildCto py root intake h t s u)
    (get?_attributesOf py root h.point).1
  have here : (w.object first).remarks =
      remarksOf (reread (detailElement py (buildCto py root intake h t s u))) := by
    change ((reread e).find "detail").bind remarksOf = _
    rw [find_detail w, Option.bind_some]
  have stored : (w.object first).attributes.get? "cot_detail" =
      (some (reread (detailElement py (buildCto py root intake h t s u)))).map
        (fun detail => .obj (detailToAttributes detail).items) := by
    refine (get?_attributesOf py (reread e) (rereadHeader w).point).1.trans ?_
    rw [find_detail w]
  have later : ((w.next first).object second).remarks =
      remarksOf (reread (detailElement py (w.object first))) := by
    change ((reread (w.event first)).find "detail").bind remarksOf = _
    rw [find_detail (w.next first), Option.bind_some]
  rw [later, remarksOf, find_typed stored (tags_typed py _).2.2.1, remarksElement, Option.bind_some]
  rw [remarksOf] at here
  cases shown : truthyStr (w.object first).remarks with
  | some text =>
    rw [(Option.filter_eq_some_iff.mp shown).1] at here
    obtain ⟨x, found, read⟩ := Option.bind_eq_some_iff.mp here.symm
    split at read
    · rename_i s own
      split at read
      · cases read
      · cases read
        have full := truthyStr_ne_empty shown
        have plain := (settled x (List.mem_of_find?_eq_some found)).text_read own
        have back := rereadText_of_not_mem full (not_mem_strip plain)
        simp only [Option.map_some, Option.some_or, Option.bind_some, text_reread,
          Element.text_mk, back, if_neg full, strip_strip, truthyStr_some]
    · cases read
  | none =>
    simp only [Option.map_none, Option.none_or]
    cases found : (reread (detailElement py (buildCto py root intake h t s u))).find "remarks" with
    | none => rfl
    | some x =>
      have text := (settled x (List.mem_of_find?_eq_some found)).storedText
      have nothing : storedText x = none := by
        rw [found, Option.bind_some] at here
        rw [text]
        cases own : x.text with
        | none => rfl
        | some s =>
          rw [own] at here
          dsimp only at here
          rw [Option.bind_some, if_neg]
          by_cases empty : s = ""
          · rw [empty]
            decide
          · rw [if_neg empty] at here
            rw [here, truthyStr_some] at shown
            split at shown
            · rename_i blank
              simp [blank]
            · cases shown
      have gone : (returned x).text = none := by
        rw [returned, text_reread, again, Element.text_mk, textOf_nodeDict, nothing]
        rfl
      simp only [Option.map_some, Option.bind_some, gone]
      rfl

theorem typed_twice (exact : py.Exact)
    (w : Written py (buildCto py root intake h t s u) e lossy) (first : Intake) :
    typedElements py ((w.next first).object second) = typedElements py (w.object first) := by
  have callsign : ((w.next first).object second).callsign = (w.object first).callsign :=
    callsign_twice exact (w.next first)
  simp only [typedElements, contactElement, trackElement, remarksElement, callsign,
    kinematics_twice exact w first, remarks_twice w first]

theorem filter_claimed (py : Runtime) (cto : CTO) (others : List Element)
    (apart : ∀ x ∈ others, x.tag ∉ (typedElements py cto).map Element.tag) :
    ((typedElements py cto ++ others).map reread).filter
        (fun e => e.tag ∉ (typedElements py cto).map Element.tag) = others.map reread := by
  rw [List.map_append, List.filter_append, List.filter_eq_nil_iff.mpr, List.nil_append,
    List.filter_eq_self.mpr]
  · intro x member
    obtain ⟨y, among, rfl⟩ := List.mem_map.mp member
    simpa using apart y among
  · intro x member
    obtain ⟨y, among, rfl⟩ := List.mem_map.mp member
    simp only [tag_reread, decide_eq_true_eq, not_not]
    exact List.mem_map_of_mem among

theorem detail_twice (exact : py.Exact)
    (w : Written py (buildCto py root intake h t s u) e lossy) (first : Intake) :
    detailElement py ((w.next first).object second) = detailElement py (w.object first) := by
  have settled := settled_detail py (buildCto py root intake h t s u)
    (get?_attributesOf py root h.point).1
  have stored : (w.object first).attributes.get? "cot_detail" =
      (some (reread (detailElement py (buildCto py root intake h t s u)))).map
        (fun detail => .obj (detailToAttributes detail).items) := by
    refine (get?_attributesOf py (reread e) (rereadHeader w).point).1.trans ?_
    rw [find_detail w]
  have again_stored : ((w.next first).object second).attributes.get? "cot_detail" =
      (some (reread (detailElement py (w.object first)))).map
        (fun detail => .obj (detailToAttributes detail).items) := by
    have read := get?_attributesOf py (reread (w.event first)) (rereadHeader (w.next first)).point
    refine read.1.trans ?_
    rw [find_detail (w.next first)]
  have back : (grouped Element.tag (unclaimed py ((w.next first).object second)
      (some (reread (detailElement py (w.object first)))))).map again =
        (grouped Element.tag (unclaimed py (w.object first)
          (some (reread (detailElement py (buildCto py root intake h t s u)))))).map again := by
    conv_lhs => rw [unclaimed, typed_twice exact w first, Option.map_some, Option.getD_some,
      children_reread, children_detail py _ stored]
    rw [filter_claimed py _ _ ?_, List.map_map]
    · change (grouped Element.tag ((grouped Element.tag _).map returned)).map again = _
      rw [grouped_map tag_returned, grouped_grouped, List.map_map]
      refine List.map_congr_left fun x among => ?_
      have member := (List.mem_filter.mp (mem_grouped.mp among)).1
      exact (settled x member).again_returned
    · intro x member
      obtain ⟨y, among, rfl⟩ := List.mem_map.mp member
      simpa using (List.mem_filter.mp (mem_grouped.mp among)).2
  refine Element.ext_parts rfl rfl rfl ?_
  rw [children_detail py _ again_stored, children_detail py _ stored, typed_twice exact w first,
    back]

end Detail
section Hops

variable {py : Runtime} {root : Element} {first : Intake} {h : Header} {t s u : Datetime}
  {e : Element} {lossy : List String}

/-- The third event is the second one. -/
theorem event_twice (exact : py.Exact)
    (w : Written py (buildCto py root first h t s u) e lossy)
    (intake second : Intake) : (w.next intake).event second = w.event intake := by
  have attrs (uid cotType time start stale : String) :
      eventAttrs ((w.next intake).object second) uid cotType time start stale =
        eventAttrs (w.object intake) uid cotType time start stale :=
    eventAttrs_twice (w.next intake) uid cotType time start stale
  change buildEvent py ((w.next intake).object second) (zulu w.time) (zulu w.start) (zulu w.stale)
      (py.reprinted 7 (py.reprinted 7 w.lon)) (py.reprinted 7 (py.reprinted 7 w.lat)) =
    buildEvent py (w.object intake) (zulu w.time) (zulu w.start) (zulu w.stale)
      (py.reprinted 7 w.lon) (py.reprinted 7 w.lat)
  have again (q : Rat) : py.reprinted 7 (py.reprinted 7 q) = py.reprinted 7 q := by
    simp only [exact.reprinted _ (by decide : 0 < 7), rounded_rounded]
  rw [again, again, buildEvent, buildEvent, egressUid_object, egressType_object, attrs,
    point_twice exact, detail_twice exact w intake]

theorem foldlM_settled {A B E : Type} {f : A → B → Except E A} {a b : A}
    (first : ∀ x, f a x = .ok b) (later : ∀ x, f b x = .ok b) {l : List B} (some_step : l ≠ []) :
    l.foldlM f a = .ok b := by
  have stays (rest : List B) : rest.foldlM f b = .ok b := by
    induction rest with
    | nil => rfl
    | cons x rest ih =>
      rw [List.foldlM_cons, later x]
      exact ih
  obtain ⟨x, rest, rfl⟩ := List.exists_cons_of_ne_nil some_step
  rw [List.foldlM_cons, first x]
  exact stays rest

/-- One gateway: what a route of it writes, in XML, of what its XML listener reads. -/
def forward (py : Runtime) (et : Etree) (xml : List UInt8) (intake : Intake) :
    Except Exn (List UInt8) := do
  let cto ← cotXmlToCto py et xml intake
  let (out, _) ← ctoToCotXml py et cto
  return out

theorem forward_eq_ok {et : Etree} {xml out : List UInt8} {intake : Intake}
    (sent : forward py et xml intake = .ok out) :
    ∃ cto e lossy, cotXmlToCto py et xml intake = .ok cto ∧ ctoToEvent py cto = .ok (e, lossy) ∧
      out = Text.encode (et.tostring e) := by
  obtain ⟨cto, read, sent⟩ := bind_ok sent
  obtain ⟨⟨bytes, lossy⟩, written, sent⟩ := bind_ok sent
  obtain ⟨e, made, rfl⟩ := ctoToCotXml_eq_ok_iff.mp written
  exact ⟨cto, e, lossy, read, made, (Except.ok.inj sent).symm⟩

/-- A gateway that reads a generated event writes the next one. -/
theorem forward_generated {et : Etree} {cto : CTO} (w : Written py cto e lossy) (intake : Intake)
    (reads : et.fromstring (Text.encode (et.tostring e)) = .ok (reread e)) :
    forward py et (Text.encode (et.tostring e)) intake =
      .ok (Text.encode (et.tostring (w.event intake))) := by
  have written : ctoToCotXml py et (w.object intake) =
      .ok (Text.encode (et.tostring (w.event intake)), lossyFields (w.object intake)) :=
    ctoToCotXml_eq_ok_iff.mpr ⟨w.event intake, w.generated intake, rfl⟩
  rw [forward, cotXmlToCto_generated w intake reads, ok_bind, ← Written.object, written]
  rfl

theorem cotXmlToCto_built {et : Etree} {xml : List UInt8} {intake : Intake} {cto : CTO}
    (read : cotXmlToCto py et xml intake = .ok cto) :
    ∃ root h t s u, cto = buildCto py root intake h t s u := by
  unfold cotXmlToCto at read
  split at read
  · cases read
  · split at read
    · cases read
    · obtain ⟨h, t, s, u, -, -, -, -, built⟩ := eventToCto_eq_ok read
      exact ⟨_, h, t, s, u, built⟩

/-- An event that one gateway has forwarded goes through any number of others, and from the second
one on it is the same bytes: decimals are exact, all gateways run in one zone, and `Etree` is
assumed to read back what is generated of what it reads. -/
theorem forwarded_settles (py : Runtime) (exact : py.Exact) (et : Etree)
    (reads : ∀ xml intake cto e lossy, cotXmlToCto py et xml intake = .ok cto →
      ctoToEvent py cto = .ok (e, lossy) →
        et.fromstring (Text.encode (et.tostring e)) = .ok (reread e))
    (xml out : List UInt8) (first : Intake) (sent : forward py et xml first = .ok out) :
    ∃ settled, ∀ intakes, intakes ≠ [] → intakes.foldlM (forward py et) out = .ok settled := by
  obtain ⟨cto, e, lossy, read, made, rfl⟩ := forward_eq_ok sent
  obtain ⟨root, h, t, s, u, rfl⟩ := cotXmlToCto_built read
  obtain ⟨w⟩ := ctoToEvent_eq_ok made
  have back := reads xml first _ e lossy read made
  have second (intake : Intake) : forward py et (Text.encode (et.tostring e)) intake =
      .ok (Text.encode (et.tostring (w.event first))) := by
    rw [forward_generated w intake back, event_intake w intake first]
  have later (intake : Intake) : forward py et (Text.encode (et.tostring (w.event first))) intake =
      .ok (Text.encode (et.tostring (w.event first))) := by
    have again := reads _ first _ _ _ (cotXmlToCto_generated w first back) (w.generated first)
    rw [forward_generated (w.next first) intake again, event_twice exact w first intake]
  exact ⟨Text.encode (et.tostring (w.event first)), fun intakes => foldlM_settled second later⟩

end Hops
section Known

variable {py : Runtime} {root : Element} {first : Intake} {h : Header} {t s u : Datetime}
  {e : Element} {lossy : List String}

/-- A parser that knows one element. -/
def knownEtree (x : Element) : Etree where
  fromstring := fun xml =>
    if xml = Text.encode (writeElement x) then .ok (reread x)
    else .error (.parseError "not well-formed (invalid token)")
  tostring := writeElement

theorem knownEtree_known (x : Element) :
    (knownEtree x).fromstring (Text.encode ((knownEtree x).tostring x)) = .ok (reread x) :=
  if_pos rfl

theorem knownEtree_reads (exact : py.Exact)
    (w : Written py (buildCto py root first h t s u) e lossy)
    (intake : Intake) (xml : List UInt8) (second : Intake) (cto : CTO) (x : Element)
    (lost : List String) (read : cotXmlToCto py (knownEtree (w.event intake)) xml second = .ok cto)
    (made : ctoToEvent py cto = .ok (x, lost)) :
    (knownEtree (w.event intake)).fromstring
      (Text.encode ((knownEtree (w.event intake)).tostring x)) = .ok (reread x) := by
  have known := knownEtree_known (w.event intake)
  by_cases here : xml = Text.encode ((knownEtree (w.event intake)).tostring (w.event intake))
  · rw [here, cotXmlToCto_generated (w.next intake) second known] at read
    cases read
    rw [← Written.object, (w.next intake).generated second] at made
    rw [← (Prod.mk.inj (Except.ok.inj made)).1, event_twice exact w intake second]
    exact known
  · have unknown : (knownEtree (w.event intake)).fromstring xml =
        .error (.parseError "not well-formed (invalid token)") := if_neg here
    rw [cotXmlToCto, unknown] at read
    cases read

theorem forward_known (exact : py.Exact)
    (w : Written py (buildCto py root first h t s u) e lossy)
    (intake second : Intake) :
    forward py (knownEtree (w.event intake))
        (Text.encode ((knownEtree (w.event intake)).tostring (w.event intake))) second =
      .ok (Text.encode ((knownEtree (w.event intake)).tostring (w.event intake))) := by
  have sent := forward_generated (w.next intake) second (knownEtree_known (w.event intake))
  rwa [event_twice exact w intake second] at sent

end Known

/-- A report without an altitude, as one gateway writes it. -/
def reportWritten : Written plainRuntime (reportCto unsurveyed []) (reportEvent unsurveyed [])
    (lossyFields (reportCto unsurveyed [])) where
  time := newYear
  start := newYear
  stale := newYear
  lon := 45 / 4
  lat := 97 / 2
  time_eq := by decide +kernel
  start_eq := by decide +kernel
  stale_eq := by decide +kernel
  lon_eq := rfl
  lat_eq := rfl
  event_eq := rfl
  lossy_eq := rfl

/-- The report behind the second gateway, where it has the sentinel for an altitude. -/
theorem forwarded_settles_report :
    ∃ settled, ∀ intakes, intakes ≠ [] →
      intakes.foldlM (forward plainRuntime (knownEtree (reportWritten.event reportIntake)))
        (Text.encode (writeElement (reportWritten.event reportIntake))) = .ok settled :=
  forwarded_settles plainRuntime plainRuntime_exact _
    (knownEtree_reads plainRuntime_exact reportWritten reportIntake) _ _ reportIntake
    (forward_known plainRuntime_exact reportWritten reportIntake reportIntake)

end TacticalGateway.Normalizers
