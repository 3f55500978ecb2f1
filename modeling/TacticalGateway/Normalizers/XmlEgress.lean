import TacticalGateway.Normalizers.CotXml
import TacticalGateway.Schema.Codec

/-! What a generated event says when it is read again: every attribute and every element that
egress writes, as ingest sees it. -/
namespace TacticalGateway.Normalizers
open ElementTree Decimal
open Json (Value)

theorem replaceSuffix_back (s : String) (absent : 'Z' ∉ s.toList) :
    replaceSuffix "Z" "+00:00" (replaceSuffix "+00:00" "Z" s) = s := by
  have zulu : ("Z" : String).toList = ['Z'] := rfl
  by_cases ends : "+00:00".toList.isSuffixOf s.toList
  · obtain ⟨front, whole⟩ := List.isSuffixOf_iff_suffix.mp ends
    have cut : s.toList.take (s.toList.length - "+00:00".toList.length) = front := by
      rw [← whole, List.length_append, Nat.add_sub_cancel, List.take_left]
    have marked : replaceSuffix "+00:00" "Z" s = String.ofList front ++ "Z" := by
      rw [replaceSuffix, if_pos ends, cut]
    have text : (String.ofList front ++ "Z").toList = front ++ ['Z'] := by
      rw [String.toList_append, String.toList_ofList, zulu]
    have last : "Z".toList.isSuffixOf (String.ofList front ++ "Z").toList = true := by
      rw [text, zulu]
      exact List.isSuffixOf_iff_suffix.mpr (List.suffix_append front ['Z'])
    rw [marked, replaceSuffix, if_pos last, text, zulu, List.length_append, Nat.add_sub_cancel,
      List.take_left]
    apply String.toList_injective
    rw [String.toList_append, String.toList_ofList, whole]
  · have kept : replaceSuffix "+00:00" "Z" s = s := if_neg ends
    have other : ¬ "Z".toList.isSuffixOf s.toList = true := by
      intro last
      obtain ⟨front, whole⟩ := List.isSuffixOf_iff_suffix.mp last
      exact absent (whole ▸ List.mem_append_right _ List.mem_cons_self)
    rw [kept, replaceSuffix, if_neg other]

theorem z_not_mem_isoformat (t : Datetime) : 'Z' ∉ t.isoformat.toList := by
  intro member
  exact absurd (isoChar_isoformat t _ member) (by decide)

section Times

variable {py : Runtime}

theorem astimezone_instant {t u : Datetime} (converted : astimezone py t = some u) :
    u.instant = t.instant := by
  obtain ⟨_, _, inner⟩ := Option.bind_eq_some_iff.mp converted
  obtain ⟨offset, _, there⟩ := Option.bind_eq_some_iff.mp inner
  exact (atOffset_eq_some there).1

theorem formatIso_eq_ok {t : Datetime} {s : String} (written : formatIso py t = .ok s) :
    ∃ u, astimezone py t = some u ∧ s = zulu u := by
  unfold formatIso at written
  split at written
  · rename_i u converted
    exact ⟨u, converted, (Except.ok.inj written).symm⟩
  · cases written

theorem formatIso_of_some {t u : Datetime} (converted : astimezone py t = some u) :
    formatIso py t = .ok (zulu u) := by
  rw [formatIso, converted]

theorem parseIso_written (u : Datetime) :
    parseIso py (zulu u) = .ok (.aware u) := by
  rw [parseIso, zulu, replaceSuffix_back _ (z_not_mem_isoformat u), py.fromisoformat_isoformat]
  rfl

end Times

theorem items_ofList {items : List (String × String)} (distinct : (items.map Prod.fst).Nodup) :
    (ofList items).items = items :=
  items_foldl_set items .empty distinct (fun _ _ => List.not_mem_nil)

theorem get?_ofList {items : List (String × String)} (distinct : (items.map Prod.fst).Nodup)
    {name value : String} (listed : (name, value) ∈ items) :
      (ofList items).get? name = some value := by
  rw [Dict.get?, items_ofList distinct]
  cases found : items.find? (fun i => i.1 = name) with
  | none => exact absurd (List.find?_eq_none.mp found _ listed) (by simp)
  | some i =>
    have same : i.1 = name := by simpa using List.find?_some found
    have one := List.inj_on_of_nodup_map distinct (List.mem_of_find?_eq_some found) listed same
    rw [one]
    rfl

theorem get?_ofList_single (name value key : String) :
    (ofList [(name, value)]).get? key = if key = name then some value else none := by
  by_cases same : key = name
  · rw [if_pos same, same]
    exact Dict.get?_set_self (.empty : Dict String String) name value
  · rw [if_neg same]
    exact Dict.get?_set_ne (.empty : Dict String String) value same

theorem float_printed (py : Runtime) {digits : Nat} (q : Rat) (positive : 0 < digits) :
    py.float (py.format digits q) = some (py.reprinted digits q) := by
  obtain ⟨p, read⟩ := Option.isSome_iff_exists.mp (py.float_format digits q positive)
  rw [Runtime.reprinted, read, Option.getD_some]

theorem Runtime.Exact.reprinted {py : Runtime} (exact : py.Exact) {digits : Nat} (q : Rat)
    (positive : 0 < digits) : py.reprinted digits q = rounded digits q := by
  have read := float_printed py q positive
  rw [exact.format, exact.float digits q positive] at read
  exact (Option.some.inj read).symm

theorem format_ne_empty (py : Runtime) {digits : Nat} (q : Rat) (positive : 0 < digits) :
    py.format digits q ≠ "" := by
  intro empty
  have read := float_printed py q positive
  rw [empty, py.float_empty] at read
  cases read

theorem get?_trackAttrs (py : Runtime) (k : Kinematics) (key : String) :
    (ofList (trackAttrs py k)).get? key =
      if key = "course" then k.courseDeg.map (py.format 2)
      else if key = "speed" then k.speedMps.map (py.format 2) else none := by
  unfold trackAttrs
  cases k.courseDeg with
  | none =>
    cases k.speedMps with
    | none => simp [ofList, Dict.get?, Dict.empty]
    | some speed =>
      refine (get?_ofList_single "speed" (py.format 2 speed) key).trans ?_
      by_cases is_course : key = "course" <;> simp [is_course]
  | some course =>
    cases k.speedMps with
    | none =>
      refine (get?_ofList_single "course" (py.format 2 course) key).trans ?_
      simp
    | some speed =>
      by_cases is_speed : key = "speed"
      · rw [is_speed]
        exact Dict.get?_set_self (ofList [("course", py.format 2 course)]) "speed"
          (py.format 2 speed)
      · refine (Dict.get?_set_ne (ofList [("course", py.format 2 course)]) (py.format 2 speed)
          is_speed).trans ?_
        rw [get?_ofList_single, if_neg is_speed]
        rfl

theorem keys_subset_addExtras (attrs : Dict String String)
    (extras : List (String × Value)) {key : String}
    (present : key ∈ attrs.keys) : (addExtras attrs extras).get? key = attrs.get? key := by
  induction extras generalizing attrs with
  | nil => rfl
  | cons extra extras ih =>
    obtain ⟨name, v⟩ := extra
    cases v with
    | str s =>
      rw [addExtras]
      by_cases known : name ∈ attrs.keys
      · rw [if_pos known, ih attrs present]
      · have apart : key ≠ name := fun same => known (same ▸ present)
        have still : key ∈ (attrs.set name s).keys := by
          rw [Dict.mem_keys_iff, Dict.get?_set_ne _ _ apart, ← Dict.mem_keys_iff]
          exact present
        rw [if_neg known, ih _ still, Dict.get?_set_ne _ _ apart]
    | _ => exact ih attrs present

def requiredAttrs (uid cotType time start stale : String) : List (String × String) :=
  [("version", "2.0"), ("uid", uid), ("type", cotType), ("time", time), ("start", start),
    ("stale", stale)]

section Attributes

variable (cto : CTO) (uid cotType time start stale : String)

theorem distinct_requiredAttrs :
    ((requiredAttrs uid cotType time start stale).map Prod.fst).Nodup := by
  simp [requiredAttrs]

/-- The attributes before the extra ones. -/
def ownAttrs : Dict String String :=
  match cto.attributes.get? "cot_how" with
  | some (.str how) => (ofList (requiredAttrs uid cotType time start stale)).set "how" how
  | _ => ofList (requiredAttrs uid cotType time start stale)

theorem eventAttrs_eq : eventAttrs cto uid cotType time start stale =
    match cto.attributes.get? "cot_event_extras" with
    | some (.obj extras) => addExtras (ownAttrs cto uid cotType time start stale) extras
    | _ => ownAttrs cto uid cotType time start stale := rfl

theorem get?_required {name value : String}
    (listed : (name, value) ∈ requiredAttrs uid cotType time start stale) :
    (eventAttrs cto uid cotType time start stale).get? name = some value := by
  have base := get?_ofList (distinct_requiredAttrs uid cotType time start stale) listed
  have how : name ≠ "how" := by
    rintro rfl
    simp [requiredAttrs] at listed
  have own : (ownAttrs cto uid cotType time start stale).get? name = some value := by
    unfold ownAttrs
    split
    · rw [Dict.get?_set_ne _ _ how, base]
    · exact base
  rw [eventAttrs_eq]
  split
  · rw [keys_subset_addExtras _ _ ((Dict.mem_keys_iff _ _).mpr (by rw [own]; rfl)), own]
  · exact own

end Attributes

theorem uuidText_ne_empty (uid : UUID) : uuidText uid ≠ "" := by
  intro empty
  have back := readUuid_uuidText uid
  rw [empty] at back
  cases back

theorem truthyStr_some (s : String) : truthyStr (some s) = if s = "" then none else some s := by
  unfold truthyStr
  by_cases empty : s = ""
  · rw [if_pos empty, Option.filter_some, if_neg (by simp [empty])]
  · rw [if_neg empty, Option.filter_some, if_pos (by simp [empty])]

theorem egressUid_eq_iff {cto : CTO} {uid : String} (typed : cto.sourceUid = some uid) :
    egressUid cto = uid ↔ uid ≠ "" := by
  rw [egressUid, typed, truthyStr_some]
  by_cases empty : uid = ""
  · rw [if_pos empty, empty]
    simp [uuidText_ne_empty]
  · rw [if_neg empty]
    simp [empty]

def haeText (py : Runtime) (cto : CTO) : String :=
  match cto.altitude with
  | some altitude => py.format 2 altitude.valueM
  | none => "9999999"

def leText (py : Runtime) (cto : CTO) : String :=
  ((cto.altitude.bind Altitude.accuracyM).map (py.format 2)).getD "9999999"

def ceText (py : Runtime) (cto : CTO) : String :=
  (((cto.attributes.get? "cot_horizontal_accuracy_m").bind number).map (py.format 2)).getD
    "9999999"

theorem items_pointAttrs (py : Runtime) (cto : CTO) (lon lat : Rat) :
    (pointAttrs py cto lon lat).items =
      [("lat", py.format 7 lat), ("lon", py.format 7 lon), ("hae", haeText py cto),
        ("le", leText py cto), ("ce", ceText py cto)] := by
  apply items_ofList
  simp

theorem get_point (py : Runtime) (cto : CTO) (lon lat : Rat) :
    (reread (pointElement py cto lon lat)).get "lat" = some (py.format 7 lat) ∧
      (reread (pointElement py cto lon lat)).get "lon" = some (py.format 7 lon) ∧
      (reread (pointElement py cto lon lat)).get "hae" = some (haeText py cto) ∧
      (reread (pointElement py cto lon lat)).get "le" = some (leText py cto) ∧
      (reread (pointElement py cto lon lat)).get "ce" = some (ceText py cto) := by
  have items := items_pointAttrs py cto lon lat
  simp only [Element.get, attrib_reread, pointElement, Element.attrib_mk, Dict.get?, items]
  simp

/-- The times of a generated event, in the zone of the process, and its coordinates. -/
structure Written (py : Runtime) (cto : CTO) (e : Element) (lossy : List String) where
  time : Datetime
  start : Datetime
  stale : Datetime
  lon : Rat
  lat : Rat
  time_eq : astimezone py cto.eventTime = some time
  start_eq : astimezone py (cto.validFrom.getD cto.eventTime) = some start
  stale_eq : astimezone py (cto.validTo.getD cto.eventTime) = some stale
  lon_eq : raiseNone .typeError cto.geometry.coordinates[0]? >>= coordinate py = .ok lon
  lat_eq : raiseNone .typeError cto.geometry.coordinates[1]? >>= coordinate py = .ok lat
  event_eq : e = buildEvent py cto (zulu time)
    (zulu start) (zulu stale) lon lat
  lossy_eq : lossy = lossyFields cto

theorem bind_ok {A B : Type} {x : Except Exn A} {f : A → Except Exn B} {b : B}
    (h : x >>= f = .ok b) :
    ∃ a, x = .ok a ∧ f a = .ok b := by
  cases x with
  | error e => cases h
  | ok a => exact ⟨a, rfl, h⟩

theorem ok_bind {A B : Type} (a : A) (f : A → Except Exn B) : (Except.ok a >>= f) = f a := rfl

theorem ctoToEvent_eq_ok {py : Runtime} {cto : CTO} {e : Element} {lossy : List String}
    (made : ctoToEvent py cto = .ok (e, lossy)) : Nonempty (Written py cto e lossy) := by
  obtain ⟨time, time_ok, made⟩ := bind_ok made
  obtain ⟨start, start_ok, made⟩ := bind_ok made
  obtain ⟨stale, stale_ok, made⟩ := bind_ok made
  obtain ⟨lon, lon_ok, made⟩ := bind_ok made
  obtain ⟨lat, lat_ok, made⟩ := bind_ok made
  obtain ⟨t, t_eq, time_text⟩ := formatIso_eq_ok time_ok
  obtain ⟨u, u_eq, start_text⟩ := formatIso_eq_ok start_ok
  obtain ⟨v, v_eq, stale_text⟩ := formatIso_eq_ok stale_ok
  have pair := Prod.mk.inj (Except.ok.inj made)
  rw [time_text, start_text, stale_text] at pair
  exact ⟨⟨t, u, v, lon, lat, t_eq, u_eq, v_eq, lon_ok, lat_ok, pair.1.symm, pair.2.symm⟩⟩

theorem ctoToEvent_ok (py : Runtime) (cto : CTO) {time start stale : Datetime} {lon lat : Rat}
    (time_eq : astimezone py cto.eventTime = some time)
    (start_eq : astimezone py (cto.validFrom.getD cto.eventTime) = some start)
    (stale_eq : astimezone py (cto.validTo.getD cto.eventTime) = some stale)
    (lon_eq : raiseNone .typeError cto.geometry.coordinates[0]? >>= coordinate py = .ok lon)
    (lat_eq : raiseNone .typeError cto.geometry.coordinates[1]? >>= coordinate py = .ok lat) :
    ctoToEvent py cto =
      .ok (buildEvent py cto (zulu time) (zulu start) (zulu stale) lon lat, lossyFields cto) := by
  rw [ctoToEvent, formatIso_of_some time_eq, formatIso_of_some start_eq, formatIso_of_some stale_eq,
    lon_eq, lat_eq]
  rfl

section Reread

variable {py : Runtime} {cto : CTO} {e : Element} {lossy : List String}

theorem find_point (w : Written py cto e lossy) :
    (reread e).find "point" = some (reread (pointElement py cto w.lon w.lat)) := by
  simp only [Element.find, w.event_eq, buildEvent, children_reread, Element.children_mk,
    List.map_cons, List.map_nil,
    List.find?_cons, tag_reread, pointElement, Element.tag_mk, decide_true]

theorem find_detail (w : Written py cto e lossy) :
    (reread e).find "detail" = some (reread (detailElement py cto)) := by
  have tag : (detailElement py cto).tag = "detail" := rfl
  simp only [Element.find, w.event_eq, buildEvent, children_reread, Element.children_mk,
    List.map_cons, List.map_nil,
    List.find?_cons, tag_reread, pointElement, Element.tag_mk, tag]
  simp

def rereadHeader (w : Written py cto e lossy) : Header :=
  { cotType := egressType cto
    sourceUid := egressUid cto
    eventTime := .aware w.time
    start := .aware w.start
    stale := .aware w.stale
    point := reread (pointElement py cto w.lon w.lat)
    lat := py.reprinted 7 w.lat
    lon := py.reprinted 7 w.lon }

theorem readHeader_reread (w : Written py cto e lossy) :
    readHeader py (reread e) = .ok (rereadHeader w) := by
  have attr {name value : String}
    (listed : (name, value) ∈ requiredAttrs (egressUid cto) (egressType cto)
      (zulu w.time) (zulu w.start)
      (zulu w.stale)) : requireAttr (reread e) name = .ok value := by
    have own : (reread e).get name = some value := by
      rw [Element.get, attrib_reread, w.event_eq, buildEvent]
      exact get?_required cto _ _ _ _ _ listed
    rw [requireAttr, own]
  obtain ⟨lat, lon, _⟩ := get_point py cto w.lon w.lat
  have lat_ok : requireAttr (reread (pointElement py cto w.lon w.lat)) "lat" =
      .ok (py.format 7 w.lat) := by
    rw [requireAttr, lat]
  have lon_ok : requireAttr (reread (pointElement py cto w.lon w.lat)) "lon" =
      .ok (py.format 7 w.lon) := by
    rw [requireAttr, lon]
  have type_ok : requireAttr (reread e) "type" = .ok (egressType cto) :=
    attr (by simp [requiredAttrs])
  have uid_ok : requireAttr (reread e) "uid" = .ok (egressUid cto) := attr (by simp [requiredAttrs])
  have time_ok := attr (List.mem_cons_of_mem _ (List.mem_cons_of_mem _ (List.mem_cons_of_mem _
    List.mem_cons_self)))
  have start_ok := attr (List.mem_cons_of_mem _ (List.mem_cons_of_mem _ (List.mem_cons_of_mem _
    (List.mem_cons_of_mem _ List.mem_cons_self))))
  have stale_ok := attr (List.mem_cons_of_mem _ (List.mem_cons_of_mem _ (List.mem_cons_of_mem _
    (List.mem_cons_of_mem _ (List.mem_cons_of_mem _ List.mem_cons_self)))))
  rw [readHeader, type_ok, uid_ok, time_ok, start_ok, stale_ok, find_point w]
  simp only [ok_bind, parseIso_written, raiseNone, lat_ok, lon_ok,
    float_printed py w.lat (by decide : 0 < 7), float_printed py w.lon (by decide : 0 < 7)]
  rfl

theorem eventToCto_reread (w : Written py cto e lossy) (intake : Intake) :
    eventToCto py (reread e) intake =
      .ok (buildCto py (reread e) intake (rereadHeader w) w.time w.start w.stale) := by
  rw [eventToCto, readHeader_reread w]
  rfl

theorem tag_reread_event (w : Written py cto e lossy) : (reread e).tag = "event" := by
  rw [tag_reread, w.event_eq]
  rfl

theorem cotXmlToCto_generated {et : Etree} (w : Written py cto e lossy) (intake : Intake)
    (reads : et.fromstring (Text.encode (et.tostring e)) = .ok (reread e)) :
    cotXmlToCto py et (Text.encode (et.tostring e)) intake =
      .ok (buildCto py (reread e) intake (rereadHeader w) w.time w.start w.stale) := by
  rw [cotXmlToCto, reads]
  dsimp only
  rw [if_neg (by simp [tag_reread_event w]), eventToCto_reread w]

theorem ctoToCotXml_eq_ok_iff {et : Etree} {out : List UInt8} :
    ctoToCotXml py et cto = .ok (out, lossy) ↔
      ∃ e, ctoToEvent py cto = .ok (e, lossy) ∧ out = Text.encode (et.tostring e) := by
  unfold ctoToCotXml
  cases ctoToEvent py cto with
  | error _ => simp [Except.map]
  | ok result => simp [Except.map, Prod.ext_iff, and_comm, eq_comm]

end Reread

section Parsed

variable {py : Runtime} {root : Element} {intake : Intake} {h : Header} {t s u : Datetime}

/-- Where the fields of a header are read. -/
structure Reads (py : Runtime) (root : Element) (h : Header) : Prop where
  cotType : root.get "type" = some h.cotType
  sourceUid : root.get "uid" = some h.sourceUid
  eventTime : ∃ s, root.get "time" = some s ∧ parseIso py s = .ok h.eventTime
  start : ∃ s, root.get "start" = some s ∧ parseIso py s = .ok h.start
  stale : ∃ s, root.get "stale" = some s ∧ parseIso py s = .ok h.stale
  point : root.find "point" = some h.point
  lat : ∃ s, h.point.get "lat" = some s ∧ py.float s = some h.lat
  lon : ∃ s, h.point.get "lon" = some s ∧ py.float s = some h.lon

theorem requireAttr_eq_ok {e : Element} {name value : String}
    (there : requireAttr e name = .ok value) :
    e.get name = some value := by
  unfold requireAttr at there
  split at there
  · rename_i found
    rw [found, Except.ok.inj there]
  · cases there

theorem raiseNone_eq_ok {A : Type} {e : Exn} {x : Option A} {a : A}
    (there : raiseNone e x = .ok a) :
    x = some a := by
  cases x with
  | none => cases there
  | some b => exact congrArg some (Except.ok.inj there)

theorem readHeader_eq_ok (read : readHeader py root = .ok h) : Reads py root h := by
  obtain ⟨cotType, type_ok, read⟩ := bind_ok read
  obtain ⟨sourceUid, uid_ok, read⟩ := bind_ok read
  obtain ⟨eventTime, time_ok, read⟩ := bind_ok read
  obtain ⟨start, start_ok, read⟩ := bind_ok read
  obtain ⟨stale, stale_ok, read⟩ := bind_ok read
  obtain ⟨point, point_ok, read⟩ := bind_ok read
  obtain ⟨lat, lat_ok, read⟩ := bind_ok read
  obtain ⟨lon, lon_ok, read⟩ := bind_ok read
  have parsed {name : String} {t : Timestamp} (ok : requireAttr root name >>= parseIso py = .ok t) :
      ∃ s, root.get name = some s ∧ parseIso py s = .ok t := by
    obtain ⟨s, there, parsed⟩ := bind_ok ok
    exact ⟨s, requireAttr_eq_ok there, parsed⟩
  have floated {name : String} {q : Rat}
      (ok : (requireAttr point name >>= fun s => raiseNone .valueError (py.float s)) = .ok q) :
      ∃ s, point.get name = some s ∧ py.float s = some q := by
    obtain ⟨s, there, parsed⟩ := bind_ok ok
    exact ⟨s, requireAttr_eq_ok there, raiseNone_eq_ok parsed⟩
  rw [← Except.ok.inj read]
  exact {
    cotType := requireAttr_eq_ok type_ok
    sourceUid := requireAttr_eq_ok uid_ok
    eventTime := parsed time_ok
    start := parsed start_ok
    stale := parsed stale_ok
    point := raiseNone_eq_ok point_ok
    lat := floated lat_ok
    lon := floated lon_ok }

theorem readHeader_of_reads (reads : Reads py root h) : readHeader py root = .ok h := by
  obtain ⟨cotType, sourceUid, ⟨time, time_attr, time_ok⟩, ⟨start, start_attr, start_ok⟩,
    ⟨stale, stale_attr, stale_ok⟩, point, ⟨lat, lat_attr, lat_ok⟩, ⟨lon, lon_attr, lon_ok⟩⟩ := reads
  simp only [readHeader, requireAttr, cotType, sourceUid, time_attr, start_attr, stale_attr, point,
    raiseNone, ok_bind, time_ok, start_ok, stale_ok, lat_attr, lat_ok, lon_attr, lon_ok]
  rfl

theorem mustBeAware_eq_ok {x : Timestamp} (aware : mustBeAware x = .ok t) : x = .aware t := by
  cases x with
  | aware u => rw [Except.ok.inj aware]
  | naive _ => cases aware

theorem eventToCto_eq_ok {c : CTO} (parsed : eventToCto py root intake = .ok c) :
    ∃ h t s u, Reads py root h ∧ h.eventTime = .aware t ∧ h.start = .aware s ∧ h.stale = .aware u ∧
      c = buildCto py root intake h t s u := by
  obtain ⟨h, read, parsed⟩ := bind_ok parsed
  obtain ⟨t, time, parsed⟩ := bind_ok parsed
  obtain ⟨s, start, parsed⟩ := bind_ok parsed
  obtain ⟨u, stale, parsed⟩ := bind_ok parsed
  exact ⟨h, t, s, u, readHeader_eq_ok read, mustBeAware_eq_ok time, mustBeAware_eq_ok start,
    mustBeAware_eq_ok stale, (Except.ok.inj parsed).symm⟩

theorem eventToCto_of_reads (reads : Reads py root h) (time : h.eventTime = .aware t)
    (start : h.start = .aware s) (stale : h.stale = .aware u) :
    eventToCto py root intake = .ok (buildCto py root intake h t s u) := by
  rw [eventToCto, readHeader_of_reads reads, ok_bind, headedCto, time, start, stale]
  rfl

theorem cotXmlToCto_eq_ok {et : Etree} {xml : List UInt8} {c : CTO}
    (parsed : cotXmlToCto py et xml intake = .ok c) (event : et.fromstring xml = .ok root) :
    eventToCto py root intake = .ok c := by
  rw [cotXmlToCto, event] at parsed
  split at parsed
  · cases parsed
  · rename_i other same
    cases Except.ok.inj same
    split at parsed
    · cases parsed
    · exact parsed

theorem get?_setSome_self (attributes : Attributes) (name : String) (value : Option Value)
    (absent : attributes.get? name = none) : (setSome attributes name value).get? name = value := by
  cases value with
  | none => exact absent
  | some v => exact Dict.get?_set_self _ _ _

theorem get?_setSome_ne (attributes : Attributes) {name other : String} (value : Option Value)
    (apart : other ≠ name) : (setSome attributes name value).get? other =
    attributes.get? other := by
  cases value with
  | none => rfl
  | some v => exact Dict.get?_set_ne _ _ apart

theorem get?_attributesOf (py : Runtime) (root point : Element) :
    (attributesOf py root point).get? "cot_detail" =
        (root.find "detail").map (fun detail => .obj (detailToAttributes detail).items) ∧
      (attributesOf py root point).get? "cot_event_extras" =
        (if (extrasOf root).items = [] then none
          else some (.obj (strAttrib (extrasOf root)).items)) ∧
      (attributesOf py root point).get? "cot_how" = (root.get "how").map .str ∧
      (attributesOf py root point).get? "cot_horizontal_accuracy_m" =
        (horizontalAccuracy py point).map .num := by
  unfold attributesOf
  dsimp only
  refine ⟨?_, ?_, ?_, ?_⟩
  · rw [get?_setSome_ne _ _ (by decide), get?_setSome_ne _ _ (by decide),
      get?_setSome_ne _ _ (by decide), get?_setSome_self _ _ _ rfl]
  · rw [get?_setSome_ne _ _ (by decide), get?_setSome_ne _ _ (by decide), get?_setSome_self]
    exact get?_setSome_ne _ _ (by decide)
  · rw [get?_setSome_ne _ _ (by decide), get?_setSome_self]
    rw [get?_setSome_ne _ _ (by decide), get?_setSome_ne _ _ (by decide)]
    rfl
  · rw [get?_setSome_self]
    rw [get?_setSome_ne _ _ (by decide), get?_setSome_ne _ _ (by decide),
      get?_setSome_ne _ _ (by decide)]
    rfl

theorem filter_detailElement (py : Runtime) (cto : CTO) (detail : Option Element)
    (stored : cto.attributes.get? "cot_detail" =
      detail.map (fun detail => .obj (detailToAttributes detail).items)) (tag : String) :
    (reread (detailElement py cto)).children.filter (fun e => e.tag = tag) =
      ((typedElements py cto).filter (fun e => e.tag = tag)).map reread ++
        (if tag ∈ (typedElements py cto).map Element.tag then []
          else ((detail.map Element.children).getD []).filter
            (fun e => e.tag = tag) |>.map returned) := by
  have tags : (fun e : Element => decide (e.tag = tag)) ∘ reread =
      fun e => decide (e.tag = tag) := by
    funext e
    simp
  rw [children_reread, List.filter_map, tags]
  unfold detailElement
  dsimp only
  rw [Element.children_mk, List.filter_append, List.map_append, stored]
  congr 1
  cases detail with
  | none => simp
  | some detail =>
    simp only [Option.map_some, Option.getD_some]
    rw [filter_emit_detail]
    split
    · rfl
    · rw [List.map_map]
      rfl

theorem typed_listed {py : Runtime} {cto : CTO} {tag : String} {typed : Option Element}
    (own : (typedElements py cto).filter (fun e => e.tag = tag) = typed.toList) :
    tag ∈ (typedElements py cto).map Element.tag ↔ typed ≠ none := by
  constructor
  · rintro there rfl
    obtain ⟨e, member, same⟩ := List.mem_map.mp there
    exact absurd same (by simpa using List.filter_eq_nil_iff.mp own e member)
  · intro made
    obtain ⟨e, rfl⟩ := Option.ne_none_iff_exists'.mp made
    have member : e ∈ (typedElements py cto).filter (fun e => e.tag = tag) := by simp [own]
    obtain ⟨there, same⟩ := List.mem_filter.mp member
    have tagged : e.tag = tag := by simpa using same
    exact tagged ▸ List.mem_map_of_mem there

theorem tags_typed (py : Runtime) (cto : CTO) :
    (typedElements py cto).filter (fun e => e.tag = "contact") = (contactElement cto).toList ∧
      (typedElements py cto).filter (fun e => e.tag = "track") = (trackElement py cto).toList ∧
      (typedElements py cto).filter (fun e => e.tag = "remarks") = (remarksElement cto).toList ∧
      ∀ tag, tag ≠ "contact" → tag ≠ "track" → tag ≠ "remarks" →
        (typedElements py cto).filter (fun e => e.tag = tag) = [] := by
  have contact : ∀ e ∈ (contactElement cto).toList, e.tag = "contact" := by
    intro e member
    obtain ⟨_, _, rfl⟩ := Option.map_eq_some_iff.mp (Option.mem_toList.mp member)
    rfl
  have track : ∀ e ∈ (trackElement py cto).toList, e.tag = "track" := by
    intro e member
    obtain ⟨k, _, made⟩ := Option.bind_eq_some_iff.mp (Option.mem_toList.mp member)
    split at made
    · cases made
    · cases made
      rfl
  have remarks : ∀ e ∈ (remarksElement cto).toList, e.tag = "remarks" := by
    intro e member
    obtain ⟨_, _, rfl⟩ := Option.map_eq_some_iff.mp (Option.mem_toList.mp member)
    rfl
  have own {es : List Element} {name : String} (all : ∀ e ∈ es, e.tag = name) :
      es.filter (fun e => e.tag = name) = es :=
    List.filter_eq_self.mpr (fun e member => by simpa using all e member)
  have other {es : List Element} {name tag : String} (all : ∀ e ∈ es, e.tag = name)
    (apart : tag ≠ name) :
      es.filter (fun e => e.tag = tag) = [] :=
    List.filter_eq_nil_iff.mpr (fun e member => by simpa [all e member] using apart.symm)
  unfold typedElements
  simp only [List.filter_append]
  refine ⟨?_, ?_, ?_, ?_⟩
  · rw [own contact, other track (by decide), other remarks (by decide), List.append_nil,
      List.append_nil]
  · rw [other contact (by decide), own track, other remarks (by decide), List.nil_append,
      List.append_nil]
  · rw [other contact (by decide), other track (by decide), own remarks]
    rfl
  · intro tag not_contact not_track not_remarks
    rw [other contact not_contact, other track not_track, other remarks not_remarks]
    rfl

end Parsed

/-- Plain decimals, the datetimes of `isoformat` and the zone of UTC. -/
def plainRuntime : Runtime where
  float := readDecimal
  format := fixed
  fromisoformat := fun s => (Reader.fromisoformat s).map .aware
  localOffset := fun _ => some 0
  float_empty := by decide
  float_format _ q positive := by rw [readDecimal_fixed positive q]; rfl
  float_sentinel := by decide
  fromisoformat_isoformat t := by rw [Reader.fromisoformat_isoformat]; rfl

theorem plainRuntime_exact : plainRuntime.Exact where
  format _ _ := rfl
  float _ q positive := readDecimal_fixed positive q

def writeAttrs (attrib : List (String × String)) : String :=
  Text.join "" (attrib.map (fun i => " " ++ i.1 ++ "=\"" ++ i.2 ++ "\""))

mutual

/-- A serializer for names and texts without a character that has to be escaped. -/
def writeElement : Element → String
  | .mk tag attrib none [] => "<" ++ tag ++ writeAttrs attrib.items ++ " />"
  | .mk tag attrib text children =>
    "<" ++ tag ++ writeAttrs attrib.items ++ ">" ++ text.getD "" ++ writeElements children ++
      "</" ++ tag ++ ">"

def writeElements : List Element → String
  | [] => ""
  | e :: es => writeElement e ++ writeElements es

end

theorem encode_injective {s t : String} (same : Text.encode s = Text.encode t) : s = t := by
  have decoded := congrArg Text.decode same
  rw [Text.decode_encode, Text.decode_encode] at decoded
  exact Option.some.inj decoded

def document (root : Element) : List UInt8 :=
  Text.encode ("<?xml version=\"1.0\"?>" ++ writeElement root)

/-- A parser that knows a document that is received and the event that is generated. -/
def exchange (root generated : Element) : Etree where
  fromstring := fun xml =>
    if xml = Text.encode (writeElement generated) then .ok (reread generated)
    else if xml = document root then .ok root
    else .error (.parseError "not well-formed (invalid token)")
  tostring := writeElement

theorem exchange_generated (root generated : Element) :
    (exchange root generated).fromstring (Text.encode (writeElement generated)) =
      .ok (reread generated) := if_pos rfl

theorem exchange_root {root generated : Element}
    (other : document root ≠ Text.encode (writeElement generated)) :
    (exchange root generated).fromstring (document root) = .ok root :=
  (if_neg other).trans (if_pos rfl)

def report (point : List (String × String)) (detail : List Element) : Element :=
  .mk "event" (ofList (requiredAttrs "UNIT-7" "a-f-G" (zulu newYear) (zulu newYear) (zulu newYear)))
    none
    [.mk "point" (ofList point) none [], .mk "detail" .empty none detail]

def reportIntake : Intake :=
  { uid := 1
    sourceSystem := "tak"
    receivedAt := newYear
    rawPointer := ⟨String.ofList (List.replicate 64 '0'), "", 0, newYear, rfl⟩ }

def reportHeader (point : List (String × String)) : Header :=
  { cotType := "a-f-G"
    sourceUid := "UNIT-7"
    eventTime := .aware newYear
    start := .aware newYear
    stale := .aware newYear
    point := .mk "point" (ofList point) none []
    lat := 97 / 2
    lon := 45 / 4 }

def reportCto (point : List (String × String)) (detail : List Element) : CTO :=
  buildCto plainRuntime (report point detail) reportIntake
    (reportHeader point) newYear newYear newYear

def reportEvent (point : List (String × String)) (detail : List Element) : Element :=
  buildEvent plainRuntime (reportCto point detail) (zulu newYear) (zulu newYear) (zulu newYear)
    (45 / 4) (97 / 2)

def reportEtree (point : List (String × String)) (detail : List Element) : Etree :=
  exchange (report point detail) (reportEvent point detail)

def unsurveyed : List (String × String) := [("lat", "48.5"), ("lon", "11.25")]

section Report

variable {point : List (String × String)} {detail : List Element}

theorem report_attr {name value : String}
    (listed : (name, value) ∈
      requiredAttrs "UNIT-7" "a-f-G" (zulu newYear) (zulu newYear) (zulu newYear)) :
    (report point detail).get name = some value :=
  get?_ofList (distinct_requiredAttrs _ _ _ _ _) listed

theorem float_lat : plainRuntime.float "48.5" = some (97 / 2) := by decide +kernel

theorem float_lon : plainRuntime.float "11.25" = some (45 / 4) := by decide +kernel

theorem report_reads (lat : (ofList point).get? "lat" = some "48.5")
    (lon : (ofList point).get? "lon" = some "11.25") :
    Reads plainRuntime (report point detail) (reportHeader point) where
  cotType := report_attr (List.mem_cons_of_mem _ (List.mem_cons_of_mem _ List.mem_cons_self))
  sourceUid := report_attr (List.mem_cons_of_mem _ List.mem_cons_self)
  eventTime :=
    ⟨_, report_attr (List.mem_cons_of_mem _ (List.mem_cons_of_mem _ (List.mem_cons_of_mem _
    List.mem_cons_self))), parseIso_written newYear⟩
  start := ⟨_, report_attr (List.mem_cons_of_mem _ (List.mem_cons_of_mem _ (List.mem_cons_of_mem _
    (List.mem_cons_of_mem _ List.mem_cons_self)))), parseIso_written newYear⟩
  stale := ⟨_, report_attr (List.mem_cons_of_mem _ (List.mem_cons_of_mem _ (List.mem_cons_of_mem _
    (List.mem_cons_of_mem _ (List.mem_cons_of_mem _ List.mem_cons_self))))),
      parseIso_written newYear⟩
  point := rfl
  lat := ⟨_, lat, float_lat⟩
  lon := ⟨_, lon, float_lon⟩

theorem report_event : (reportEtree point detail).fromstring (document (report point detail)) =
    .ok (report point detail) := by
  have other : document (report point detail) ≠
      Text.encode (writeElement (reportEvent point detail)) := by
    intro same
    have second := congrArg (fun s => s.toList[1]?) (encode_injective same)
    simp only [String.toList_append, reportEvent, buildEvent, writeElement, List.append_assoc]
      at second
    have marks : some '?' = some 'e' := second
    cases marks
  exact exchange_root other

theorem report_parsed {et : Etree} {xml : List UInt8}
    (event : et.fromstring xml = .ok (report point detail))
    (lat : (ofList point).get? "lat" = some "48.5")
    (lon : (ofList point).get? "lon" = some "11.25") :
    cotXmlToCto plainRuntime et xml reportIntake = .ok (reportCto point detail) := by
  rw [cotXmlToCto, event]
  exact eventToCto_of_reads (report_reads lat lon) rfl rfl rfl

theorem report_generated :
    ctoToEvent plainRuntime (reportCto point detail) =
      .ok (reportEvent point detail, lossyFields (reportCto point detail)) := by
  have there : astimezone plainRuntime newYear = some newYear := by decide +kernel
  exact ctoToEvent_ok plainRuntime (reportCto point detail) there there there rfl rfl

theorem report_rereads (e : Element) (lossy : List String)
    (made : ctoToEvent plainRuntime (reportCto point detail) = .ok (e, lossy)) :
    (reportEtree point detail).fromstring (Text.encode ((reportEtree point detail).tostring e)) =
      .ok (reread e) := by
  rw [report_generated] at made
  rw [← (Prod.mk.inj (Except.ok.inj made)).1]
  exact exchange_generated _ _

end Report

end TacticalGateway.Normalizers
