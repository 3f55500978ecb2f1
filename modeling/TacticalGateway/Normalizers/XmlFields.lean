import TacticalGateway.Normalizers.XmlEgress

/-! Which typed fields survive a round through CoT XML: parsed, generated and parsed again. -/
namespace TacticalGateway.Normalizers
open ElementTree Decimal
open Json (Value)

section Detail

variable {py : Runtime} {cto : CTO} {detail : Option Element}

theorem find_typed
    (stored : cto.attributes.get? "cot_detail" =
      detail.map (fun detail => .obj (detailToAttributes detail).items))
    {tag : String} {typed : Option Element}
    (own : (typedElements py cto).filter (fun e => e.tag = tag) = typed.toList) :
    (reread (detailElement py cto)).find tag =
      (typed.map reread).or ((detail.bind (fun detail => detail.find tag)).map returned) := by
  have listed := typed_listed own
  have filtered := filter_detailElement py cto detail stored tag
  rw [Element.find, ← List.head?_filter, filtered, own]
  cases typed with
  | some e => rfl
  | none =>
    rw [if_neg (by simp [listed])]
    simp only [Option.toList_none, List.map_nil, List.nil_append, List.head?_map, List.head?_filter,
      Option.map_none, Option.none_or]
    cases detail with
    | none => rfl
    | some d => rfl

theorem get_returned (e : Element) (name : String)
    (plain : "_".toList.isPrefixOf name.toList = false) (text : name ≠ "_text")
    (children : name ≠ "_children") : (returned e).get name = e.get name := by
  have other := get?_nodeDict_other e text children
  rw [Element.get, get?_attrib_returned, other, Element.get]
  cases e.attrib.get? name with
  | none => rfl
  | some s => exact if_neg (Bool.eq_false_iff.mp plain)

theorem callsign_reread
    (stored : cto.attributes.get? "cot_detail" =
      detail.map (fun detail => .obj (detailToAttributes detail).items))
    (typed : cto.callsign = detail.bind callsignOf) :
    callsignOf (reread (detailElement py cto)) = cto.callsign := by
  rw [callsignOf, find_typed stored (tags_typed py cto).1, contactElement]
  cases shown : truthyStr cto.callsign with
  | some callsign =>
    have whole : cto.callsign = some callsign := (Option.filter_eq_some_iff.mp shown).1
    exact whole.symm
  | none =>
    rw [typed]
    cases detail with
    | none => rfl
    | some d =>
      change ((d.find "contact").map returned).bind _ = (d.find "contact").bind _
      cases d.find "contact" with
      | none => rfl
      | some contact => exact get_returned contact "callsign" (by decide) (by decide) (by decide)

def printedKinematics (k : Kinematics) : Option Rat × Option Rat × Option Rat :=
  (k.courseDeg.map (rounded 2), k.speedMps.map (rounded 2), k.verticalRateMps.map (rounded 2))

theorem float_format (exact : py.Exact) {digits : Nat} (q : Rat) (positive : 0 < digits) :
    py.float (py.format digits q) = some (rounded digits q) := by
  rw [float_printed py q positive, exact.reprinted q positive]

theorem optionalFloat_format (exact : py.Exact) (q : Option Rat) :
    optionalFloat py (q.map (py.format 2)) = some (q.map (rounded 2)) := by
  cases q with
  | none => rfl
  | some q =>
    have written := format_ne_empty py q (by decide : 0 < 2)
    rw [Option.map_some, optionalFloat, if_neg written, float_format exact q (by decide)]
    rfl

theorem trackKinematics_eq_some {py : Runtime} {track : Element} {k : Kinematics}
    (made : trackKinematics py track = some k) : k.verticalRateMps = none := by
  unfold trackKinematics at made
  split at made
  · cases made
    rfl
  · cases made

theorem trackKinematics_reread (exact : py.Exact) {k : Kinematics}
    (flat : k.verticalRateMps = none) :
    (trackKinematics py (reread (.mk "track" (ofList (trackAttrs py k)) none []))).map
      printedKinematics =
      some (printedKinematics k) := by
  have course := get?_trackAttrs py k "course"
  have speed := get?_trackAttrs py k "speed"
  rw [if_pos rfl] at course
  rw [if_neg (by decide), if_pos rfl] at speed
  have again (q : Option Rat) : (q.map (rounded 2)).map (rounded 2) = q.map (rounded 2) := by
    cases q with
    | none => rfl
    | some q => exact congrArg some (rounded_rounded 2 q)
  simp only [trackKinematics, Element.get, attrib_reread, Element.attrib_mk, course, speed,
    optionalFloat_format exact, Option.map_some, printedKinematics, again, flat, Option.map_none]

theorem trackKinematics_returned (py : Runtime) (track : Element) :
    trackKinematics py (returned track) = trackKinematics py track := by
  have course := get_returned track "course" (by decide) (by decide) (by decide)
  have speed := get_returned track "speed" (by decide) (by decide) (by decide)
  rw [trackKinematics, course, speed, trackKinematics]

theorem kinematics_reread (exact : py.Exact)
    (stored : cto.attributes.get? "cot_detail" =
      detail.map (fun detail => .obj (detailToAttributes detail).items))
    (typed : cto.kinematics = detail.bind (kinematicsOf py)) :
    (kinematicsOf py (reread (detailElement py cto))).map printedKinematics =
      cto.kinematics.map printedKinematics := by
  rw [kinematicsOf, find_typed stored (tags_typed py cto).2.1]
  cases element : trackElement py cto with
  | some track =>
    obtain ⟨k, there, made⟩ := Option.bind_eq_some_iff.mp element
    have flat : k.verticalRateMps = none := by
      obtain ⟨d, _, kinematics⟩ := Option.bind_eq_some_iff.mp (typed ▸ there)
      obtain ⟨track, _, read⟩ := Option.bind_eq_some_iff.mp kinematics
      exact trackKinematics_eq_some read
    split at made
    · cases made
    · cases made
      rw [there]
      exact trackKinematics_reread exact flat
  | none =>
    rw [typed]
    cases detail with
    | none => rfl
    | some d =>
      change (((d.find "track").map returned).bind _).map _ = ((d.find "track").bind _).map _
      cases d.find "track" with
      | none => rfl
      | some track =>
        exact congrArg (Option.map printedKinematics) (trackKinematics_returned py track)

end Detail

def printedAltitude (a : Altitude) :
    Rat × Option Rat := (rounded 2 a.valueM, a.accuracyM.map (rounded 2))

theorem optionMap_rounded_eq_iff {q : Option Rat} :
    (q.bind (fun q => accuracy (rounded 2 q))).map (rounded 2) = q.map (rounded 2) ↔
      ∀ p ∈ q, rounded 2 p < 9999999 := by
  cases q with
  | none => simp
  | some q =>
    simp only [Option.bind_some, accuracy, Option.mem_some_iff, forall_eq']
    split
    · rename_i small
      simp [small, rounded_rounded]
    · rename_i large
      simp [large]

theorem accuracy_text {py : Runtime} (exact : py.Exact) (q : Option Rat) :
    (py.float ((q.map (py.format 2)).getD "9999999")).map accuracy =
      some (q.bind (fun q => accuracy (rounded 2 q))) := by
  cases q with
  | none =>
    rw [Option.map_none, Option.getD_none, py.float_sentinel]
    exact congrArg some (if_neg (lt_irrefl _))
  | some q =>
    rw [Option.map_some, Option.getD_some, float_format exact q (by decide)]
    rfl

/-- An altitude is written by its value and read again; none at all is written as the sentinel,
which is read as an altitude. -/
theorem altitude_reread {py : Runtime} (exact : py.Exact) (cto : CTO) (lon lat : Rat) :
    (altitudeOf py (reread (pointElement py cto lon lat))).map printedAltitude =
        cto.altitude.map printedAltitude ↔
      ∃ a, cto.altitude = some a ∧ ∀ q ∈ a.accuracyM, rounded 2 q < 9999999 := by
  obtain ⟨_, _, hae, le, _⟩ := get_point py cto lon lat
  have vertical := accuracy_text exact (cto.altitude.bind Altitude.accuracyM)
  rw [← leText] at vertical
  obtain ⟨limit, limit_eq, vertical⟩ := Option.map_eq_some_iff.mp vertical
  rw [altitudeOf, hae, le]
  cases there : cto.altitude with
  | none =>
    have sentinel : py.float (haeText py cto) = some 9999999 := by
      rw [haeText, there, py.float_sentinel]
    simp [sentinel, limit_eq]
  | some a =>
    have value : py.float (haeText py cto) = some (rounded 2 a.valueM) := by
      rw [haeText, there]
      exact float_format exact _ (by decide)
    simp only [value, limit_eq, vertical, there, Option.map_some, printedAltitude, rounded_rounded,
      Option.bind_some,
      Option.some.injEq, Prod.mk.injEq, true_and, optionMap_rounded_eq_iff, exists_eq_left']

theorem horizontalAccuracy_reread {py : Runtime} (exact : py.Exact) (cto : CTO) (lon lat : Rat)
    {q : Option Rat}
    (stored : (cto.attributes.get? "cot_horizontal_accuracy_m").bind number = q) :
    (horizontalAccuracy py (reread (pointElement py cto lon lat))).map (rounded 2) =
      q.map (rounded 2) ↔
      ∀ p ∈ q, rounded 2 p < 9999999 := by
  obtain ⟨_, _, _, _, ce⟩ := get_point py cto lon lat
  have horizontal := accuracy_text exact q
  obtain ⟨limit, limit_eq, horizontal⟩ := Option.map_eq_some_iff.mp horizontal
  rw [horizontalAccuracy, ce, ceText, stored, Option.bind_some, limit_eq, Option.bind_some,
    horizontal, optionMap_rounded_eq_iff]

/-- A number of a JSON value as it is printed. -/
def printedNumber (digits : Nat) : Value → Value
  | .num q => .num (rounded digits q)
  | v => v

/-- The typed fields agree, instants as instants and numbers in the printed digits. -/
structure Agrees (c d : CTO) : Prop where
  sourceUid : d.sourceUid = c.sourceUid
  symbology : d.symbology = c.symbology
  callsign : d.callsign = c.callsign
  eventTime : d.eventTime.instant = c.eventTime.instant
  validFrom : d.validFrom.map Datetime.instant = c.validFrom.map Datetime.instant
  validTo : d.validTo.map Datetime.instant = c.validTo.map Datetime.instant
  altitude : d.altitude.map printedAltitude = c.altitude.map printedAltitude
  kinematics : d.kinematics.map printedKinematics = c.kinematics.map printedKinematics
  horizontalAccuracy : (d.attributes.get? "cot_horizontal_accuracy_m").map (printedNumber 2) =
    (c.attributes.get? "cot_horizontal_accuracy_m").map (printedNumber 2)
  geometryType : d.geometry.type = c.geometry.type
  coordinates : d.geometry.coordinates.map (printedNumber 7) =
    c.geometry.coordinates.map (printedNumber 7)

/-- The events whose typed fields come back. -/
structure Representable (py : Runtime) (root : Element) : Prop where
  sourceUid : root.get "uid" ≠ some ""
  cotType : root.get "type" ≠ some ""
  times : ∀ name ∈ ["time", "start", "stale"], ∀ s ∈ root.get name, ∀ t,
    parseIso py s = .ok (.aware t) → (astimezone py t).isSome
  altitude : ∀ point ∈ root.find "point", ∃ hae value, point.get "hae" = some hae ∧
    py.float hae = some value ∧
      ∀ le ∈ point.get "le", ∃ q, py.float le = some q ∧ (q < 9999999 → rounded 2 q < 9999999)
  horizontalAccuracy : ∀ point ∈ root.find "point", ∀ ce ∈ point.get "ce", ∀ q,
    py.float ce = some q → q < 9999999 → rounded 2 q < 9999999

theorem accuracy_small_iff (q : Rat) :
    (∀ p, accuracy q = some p → rounded 2 p < 9999999) ↔ (q < 9999999 → rounded 2 q < 9999999) := by
  unfold accuracy
  split
  · rename_i small
    simp [small]
  · rename_i large
    simp [large]

theorem altitudeOf_small_iff (py : Runtime) (point : Element) :
    (∃ a, altitudeOf py point = some a ∧ ∀ q ∈ a.accuracyM, rounded 2 q < 9999999) ↔
      ∃ hae value, point.get "hae" = some hae ∧ py.float hae = some value ∧
        ∀ le ∈ point.get "le", ∃ q, py.float le = some q ∧
          (q < 9999999 → rounded 2 q < 9999999) := by
  unfold altitudeOf
  cases point.get "hae" with
  | none => simp
  | some hae =>
    cases value_eq : py.float hae with
    | none => simp [value_eq]
    | some value =>
      cases point.get "le" with
      | none => simp [value_eq]
      | some le =>
        cases limit_eq : py.float le with
        | none => simp [value_eq, limit_eq]
        | some q => simp [value_eq, limit_eq, accuracy_small_iff]

theorem horizontalAccuracy_small_iff (py : Runtime) (point : Element) :
    (∀ p ∈ horizontalAccuracy py point, rounded 2 p < 9999999) ↔
      ∀ ce ∈ point.get "ce", ∀ q, py.float ce = some q → q < 9999999 → rounded 2 q < 9999999 := by
  unfold horizontalAccuracy
  cases point.get "ce" with
  | none => simp
  | some ce =>
    cases limit_eq : py.float ce with
    | none => simp [limit_eq]
    | some q =>
      simp [limit_eq, accuracy_small_iff]

theorem map_printed (digits : Nat) (q : Option Rat) :
    (q.map Value.num).map (printedNumber digits) = (q.map (rounded digits)).map Value.num := by
  cases q <;> rfl

theorem num_injective : Function.Injective Value.num := fun _ _ same => Value.num.inj same

section RoundTrip

variable {py : Runtime} {root : Element} {intake second : Intake} {h : Header} {t s u : Datetime}
  {e : Element} {lossy : List String}

theorem egressUid_built :
    egressUid (buildCto py root intake h t s u) = h.sourceUid ↔ h.sourceUid ≠ "" :=
  egressUid_eq_iff rfl

theorem egressType_built :
    egressType (buildCto py root intake h t s u) = h.cotType ↔ h.cotType ≠ "" := by
  have typed : egressType (buildCto py root intake h t s u) =
      (truthyStr (some h.cotType)).getD
        ("a-" ++ keyOf affiliationMap (parseCotType h.cotType).1 "u" ++ "-" ++
          keyOf dimensionMap (parseCotType h.cotType).2 "G") := rfl
  rw [typed, truthyStr_some]
  by_cases empty : h.cotType = ""
  · have synthesized (a d : String) : "a-" ++ a ++ "-" ++ d ≠ "" := by
      intro same
      have chars := congrArg String.toList same
      simp [String.toList_append] at chars
    rw [if_pos empty, empty]
    exact iff_of_false (synthesized _ _) (fun differs => differs rfl)
  · rw [if_neg empty]
    simp [empty]

theorem ctoToEvent_built_iff :
    (∃ e lossy, ctoToEvent py (buildCto py root intake h t s u) = .ok (e, lossy)) ↔
      (astimezone py t).isSome ∧ (astimezone py s).isSome ∧ (astimezone py u).isSome := by
  constructor
  · rintro ⟨e, lossy, made⟩
    obtain ⟨w⟩ := ctoToEvent_eq_ok made
    exact ⟨Option.isSome_of_eq_some w.time_eq, Option.isSome_of_eq_some w.start_eq,
      Option.isSome_of_eq_some w.stale_eq⟩
  · rintro ⟨time, start, stale⟩
    obtain ⟨time, time_eq⟩ := Option.isSome_iff_exists.mp time
    obtain ⟨start, start_eq⟩ := Option.isSome_iff_exists.mp start
    obtain ⟨stale, stale_eq⟩ := Option.isSome_iff_exists.mp stale
    exact ⟨_, _, ctoToEvent_ok py (buildCto py root intake h t s u) time_eq start_eq
      stale_eq rfl rfl⟩

theorem find_detail_built (exact : py.Exact)
    (w : Written py (buildCto py root intake h t s u) e lossy) :
    ((reread e).find "detail").bind callsignOf = (buildCto py root intake h t s u).callsign ∧
      (((reread e).find "detail").bind (kinematicsOf py)).map printedKinematics =
        (buildCto py root intake h t s u).kinematics.map printedKinematics := by
  have stored := (get?_attributesOf py root h.point).1
  rw [find_detail w]
  constructor
  · apply callsign_reread stored
    rfl
  · apply kinematics_reread exact stored
    rfl

theorem symbology_reread (w : Written py (buildCto py root intake h t s u) e lossy) :
    (buildCto py (reread e) second (rereadHeader w) w.time w.start w.stale).symbology =
        (buildCto py root intake h t s u).symbology ↔ h.cotType ≠ "" := by
  constructor
  · intro same
    exact egressType_built.mp (Option.some.inj (congrArg Symbology.cotType same))
  · intro typed
    have same : egressType (buildCto py root intake h t s u) = h.cotType :=
      egressType_built.mpr typed
    exact congrArg (fun cotType => ({
      cotType := some cotType
      affiliation := (parseCotType cotType).1
      battleDimension := (parseCotType cotType).2 } : Symbology)) same

theorem horizontalAccuracy_built (exact : py.Exact)
    (w : Written py (buildCto py root intake h t s u) e lossy) :
    ((buildCto py (reread e) second (rereadHeader w) w.time w.start w.stale).attributes.get?
          "cot_horizontal_accuracy_m").map (printedNumber 2) =
        ((buildCto py root intake h t s u).attributes.get? "cot_horizontal_accuracy_m").map
          (printedNumber 2) ↔
      ∀ q ∈ horizontalAccuracy py h.point, rounded 2 q < 9999999 := by
  have here : (buildCto py root intake h t s u).attributes.get? "cot_horizontal_accuracy_m" =
      (horizontalAccuracy py h.point).map .num := (get?_attributesOf py root h.point).2.2.2
  have there :
    (buildCto py (reread e) second (rereadHeader w) w.time w.start w.stale).attributes.get?
        "cot_horizontal_accuracy_m" =
      (horizontalAccuracy py
        (reread (pointElement py (buildCto py root intake h t s u) w.lon w.lat))).map .num :=
    (get?_attributesOf py (reread e) (rereadHeader w).point).2.2.2
  have stored : ((buildCto py root intake h t s u).attributes.get? "cot_horizontal_accuracy_m").bind
      number = horizontalAccuracy py h.point := by
    rw [here]
    cases horizontalAccuracy py h.point <;> rfl
  rw [← horizontalAccuracy_reread exact (buildCto py root intake h t s u) w.lon w.lat stored,
    here, there,
    map_printed, map_printed]
  exact (Option.map_injective num_injective).eq_iff

theorem agrees_built_iff (exact : py.Exact)
    (w : Written py (buildCto py root intake h t s u) e lossy) :
    Agrees (buildCto py root intake h t s u)
        (buildCto py (reread e) second (rereadHeader w) w.time w.start w.stale) ↔
      h.sourceUid ≠ "" ∧ h.cotType ≠ "" ∧
        (∃ a, altitudeOf py h.point = some a ∧ ∀ q ∈ a.accuracyM, rounded 2 q < 9999999) ∧
        ∀ q ∈ horizontalAccuracy py h.point, rounded 2 q < 9999999 := by
  have lon : w.lon = h.lon := (Except.ok.inj w.lon_eq).symm
  have lat : w.lat = h.lat := (Except.ok.inj w.lat_eq).symm
  have altitude := altitude_reread exact (buildCto py root intake h t s u) w.lon w.lat
  constructor
  · intro agrees
    refine ⟨egressUid_built.mp (Option.some.inj agrees.sourceUid), ?_,
      altitude.mp agrees.altitude, ?_⟩
    · exact (symbology_reread w).mp agrees.symbology
    · exact (horizontalAccuracy_built exact w).mp agrees.horizontalAccuracy
  · rintro ⟨uid, cotType, vertical, small⟩
    exact {
      sourceUid := congrArg some (egressUid_built.mpr uid)
      symbology := (symbology_reread w).mpr cotType
      callsign := (find_detail_built exact w).1
      eventTime := astimezone_instant w.time_eq
      validFrom := congrArg some (astimezone_instant w.start_eq)
      validTo := congrArg some (astimezone_instant w.stale_eq)
      altitude := altitude.mpr vertical
      kinematics := (find_detail_built exact w).2
      horizontalAccuracy := (horizontalAccuracy_built exact w).mpr small
      geometryType := rfl
      coordinates := by
        change [Value.num (rounded 7 (py.reprinted 7 w.lon)),
          Value.num (rounded 7 (py.reprinted 7 w.lat))] =
            [Value.num (rounded 7 h.lon), Value.num (rounded 7 h.lat)]
        rw [exact.reprinted w.lon (by decide), exact.reprinted w.lat (by decide), rounded_rounded,
          rounded_rounded, lon, lat] }

theorem agrees_returned_iff (exact : py.Exact) {et : Etree}
    (reads : ∀ e lossy, ctoToEvent py (buildCto py root intake h t s u) = .ok (e, lossy) →
      et.fromstring (Text.encode (et.tostring e)) = .ok (reread e)) :
    (∃ out lossy d, ctoToCotXml py et (buildCto py root intake h t s u) = .ok (out, lossy) ∧
        cotXmlToCto py et out second = .ok d ∧ Agrees (buildCto py root intake h t s u) d) ↔
      ((astimezone py t).isSome ∧ (astimezone py s).isSome ∧ (astimezone py u).isSome) ∧
        h.sourceUid ≠ "" ∧ h.cotType ≠ "" ∧
        (∃ a, altitudeOf py h.point = some a ∧ ∀ q ∈ a.accuracyM, rounded 2 q < 9999999) ∧
        ∀ q ∈ horizontalAccuracy py h.point, rounded 2 q < 9999999 := by
  constructor
  · rintro ⟨out, lossy, d, sent, received, agrees⟩
    obtain ⟨e, made, rfl⟩ := ctoToCotXml_eq_ok_iff.mp sent
    obtain ⟨w⟩ := ctoToEvent_eq_ok made
    rw [cotXmlToCto_generated w second (reads e lossy made)] at received
    rw [← Except.ok.inj received] at agrees
    exact ⟨ctoToEvent_built_iff.mp ⟨e, lossy, made⟩, (agrees_built_iff exact w).mp agrees⟩
  · rintro ⟨times, kept⟩
    obtain ⟨e, lossy, made⟩ : ∃ e lossy, ctoToEvent py (buildCto py root intake h t s u) =
      .ok (e, lossy) :=
      ctoToEvent_built_iff.mpr times
    obtain ⟨w⟩ := ctoToEvent_eq_ok made
    have back := cotXmlToCto_generated w second (reads e lossy made)
    exact ⟨_, lossy, _, ctoToCotXml_eq_ok_iff.mpr ⟨e, made, rfl⟩, back,
      (agrees_built_iff exact w).mpr kept⟩

end RoundTrip

theorem representable_iff {py : Runtime} {root : Element} {h : Header} {t s u : Datetime}
    (read : Reads py root h) (time : h.eventTime = .aware t) (start : h.start = .aware s)
    (stale : h.stale = .aware u) :
    Representable py root ↔
      ((astimezone py t).isSome ∧ (astimezone py s).isSome ∧ (astimezone py u).isSome) ∧
        h.sourceUid ≠ "" ∧ h.cotType ≠ "" ∧
        (∃ a, altitudeOf py h.point = some a ∧ ∀ q ∈ a.accuracyM, rounded 2 q < 9999999) ∧
        ∀ q ∈ horizontalAccuracy py h.point, rounded 2 q < 9999999 := by
  obtain ⟨time_text, time_attr, time_read⟩ := read.eventTime
  obtain ⟨start_text, start_attr, start_read⟩ := read.start
  obtain ⟨stale_text, stale_attr, stale_read⟩ := read.stale
  rw [time] at time_read
  rw [start] at start_read
  rw [stale] at stale_read
  rw [altitudeOf_small_iff, horizontalAccuracy_small_iff]
  constructor
  · intro r
    refine ⟨⟨?_, ?_, ?_⟩, ?_, ?_, r.altitude _ read.point, r.horizontalAccuracy _ read.point⟩
    · exact r.times "time" (by simp) time_text time_attr t time_read
    · exact r.times "start" (by simp) start_text start_attr s start_read
    · exact r.times "stale" (by simp) stale_text stale_attr u stale_read
    · exact fun empty => r.sourceUid (empty ▸ read.sourceUid)
    · exact fun empty => r.cotType (empty ▸ read.cotType)
  · rintro ⟨⟨first, second, third⟩, uid, cotType, vertical, horizontal⟩
    have one {text value : String} {x y : Datetime} {found : Option String}
      (attr : found = some text)
        (parsed : parseIso py text = .ok (.aware x)) (there : value ∈ found)
        (again : parseIso py value = .ok (.aware y)) : y = x := by
      rw [attr] at there
      rw [← Option.mem_some_iff.mp there, parsed] at again
      exact (Timestamp.aware.inj (Except.ok.inj again)).symm
    refine ⟨?_, ?_, ?_, ?_, ?_⟩
    · rw [read.sourceUid]
      exact fun empty => uid (Option.some.inj empty)
    · rw [read.cotType]
      exact fun empty => cotType (Option.some.inj empty)
    · intro name listed value there y parsed
      simp only [List.mem_cons, List.not_mem_nil, or_false] at listed
      rcases listed with rfl | rfl | rfl
      · rw [one time_attr time_read there parsed]
        exact first
      · rw [one start_attr start_read there parsed]
        exact second
      · rw [one stale_attr stale_read there parsed]
        exact third
    · intro point there
      rw [read.point] at there
      exact Option.mem_some_iff.mp there ▸ vertical
    · intro point there
      rw [read.point] at there
      exact Option.mem_some_iff.mp there ▸ horizontal

/-- Parsed, generated and parsed again, an event keeps its typed fields exactly when it is
representable: decimals are exact, and `Etree` is assumed to read back the event that is
generated. -/
theorem typed_fields_return_iff (py : Runtime) (exact : py.Exact) (et : Etree) (xml : List UInt8)
    (root : Element) (intake second : Intake) (c : CTO) (event : et.fromstring xml = .ok root)
    (parsed : cotXmlToCto py et xml intake = .ok c)
    (reads : ∀ e lossy, ctoToEvent py c = .ok (e, lossy) →
      et.fromstring (Text.encode (et.tostring e)) = .ok (reread e)) :
    (∃ out lossy d, ctoToCotXml py et c = .ok (out, lossy) ∧ cotXmlToCto py et out second = .ok d ∧
      Agrees c d) ↔ Representable py root := by
  obtain ⟨h, t, s, u, read, time, start, stale, built⟩ :=
    eventToCto_eq_ok (cotXmlToCto_eq_ok parsed event)
  rw [representable_iff read time start stale, built]
  exact agrees_returned_iff exact (built ▸ reads)

def surveyed : List (String × String) :=
  [("lat", "48.5"), ("lon", "11.25"), ("hae", "519.5"), ("ce", "9.5"), ("le", "4.75")]

theorem typed_fields_return_surveyed :
    ∃ out lossy d, ctoToCotXml plainRuntime (reportEtree surveyed []) (reportCto surveyed []) =
        .ok (out, lossy) ∧
      cotXmlToCto plainRuntime (reportEtree surveyed []) out reportIntake = .ok d ∧
      Agrees (reportCto surveyed []) d := by
  refine (typed_fields_return_iff plainRuntime plainRuntime_exact (reportEtree surveyed [])
    (document (report surveyed [])) (report surveyed []) reportIntake reportIntake
    (reportCto surveyed []) report_event (report_parsed report_event rfl rfl) report_rereads).mpr ?_
  refine (representable_iff (report_reads rfl rfl) rfl rfl rfl).mpr ⟨⟨?_, ?_, ?_⟩, ?_, ?_, ?_, ?_⟩
  · decide +kernel
  · decide +kernel
  · decide +kernel
  · exact (by decide : "UNIT-7" ≠ "")
  · exact (by decide : "a-f-G" ≠ "")
  · refine (altitudeOf_small_iff _ _).mpr ⟨"519.5", 1039 / 2, rfl, by decide +kernel, ?_⟩
    rintro le there
    rw [← Option.mem_some_iff.mp (there : le ∈ some "4.75")]
    exact ⟨19 / 4, by decide +kernel, fun _ => by decide +kernel⟩
  · refine (horizontalAccuracy_small_iff _ _).mpr ?_
    rintro ce there q read _
    have value : plainRuntime.float "9.5" = some (19 / 2) := by decide +kernel
    rw [← Option.mem_some_iff.mp (there : ce ∈ some "9.5"), value] at read
    rw [← Option.some.inj read]
    decide +kernel

/-- A position without an altitude comes back with the sentinel as its altitude. -/
theorem typed_fields_lost_unsurveyed :
    cotXmlToCto plainRuntime (reportEtree unsurveyed []) (document (report unsurveyed []))
        reportIntake = .ok (reportCto unsurveyed []) ∧
      (∀ e lossy, ctoToEvent plainRuntime (reportCto unsurveyed []) = .ok (e, lossy) →
        (reportEtree unsurveyed []).fromstring
          (Text.encode ((reportEtree unsurveyed []).tostring e)) = .ok (reread e)) ∧
      ¬ ∃ out lossy d, ctoToCotXml plainRuntime (reportEtree unsurveyed [])
        (reportCto unsurveyed []) =
          .ok (out, lossy) ∧
        cotXmlToCto plainRuntime (reportEtree unsurveyed []) out reportIntake = .ok d ∧
        Agrees (reportCto unsurveyed []) d := by
  refine ⟨report_parsed report_event rfl rfl, report_rereads, ?_⟩
  intro returned
  obtain ⟨_, _, _, ⟨a, there, _⟩, _⟩ :=
    (agrees_returned_iff plainRuntime_exact report_rereads).mp returned
  cases there

end TacticalGateway.Normalizers
