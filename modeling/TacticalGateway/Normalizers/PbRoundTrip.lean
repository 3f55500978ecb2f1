import TacticalGateway.Normalizers.CotPb
import TacticalGateway.Normalizers.XmlLoss

/-! What survives a round through the protobuf form. -/
namespace TacticalGateway.Normalizers
open ElementTree
open Json (Value Same)

/-- What the CTOs of both normalizers have in common. -/
structure Normalized (c : CTO) : Prop where
  sourceUid : ∃ uid, c.sourceUid = some uid
  cotType : ∃ cotType, c.symbology.cotType = some cotType
  validFrom : ∃ t, c.validFrom = some t
  validTo : ∃ t, c.validTo = some t
  point : ∃ lon lat, c.geometry.type = .point ∧ c.geometry.coordinates = [.num lon, .num lat]
  accuracy : ∀ a ∈ c.altitude, ∀ q ∈ a.accuracyM, q < 9999999
  how : ∃ how : Option String, c.attributes.get? "cot_how" = how.map .str
  horizontal : ∃ q : Option Rat, c.attributes.get? "cot_horizontal_accuracy_m" = q.map .num ∧
    ∀ p ∈ q, p < 9999999
  detail : ∃ detail : Option Element, c.attributes.get? "cot_detail" =
    detail.map (fun detail => .obj (detailToAttributes detail).items)

theorem accuracy_lt {q p : Rat} (kept : accuracy q = some p) : p < 9999999 := by
  unfold accuracy at kept
  split at kept
  · cases Option.some.inj kept
    assumption
  · cases kept

theorem normalized_xml {py : Runtime} {et : Etree} {xml : List UInt8} {intake : Intake} {c : CTO}
    (parsed : cotXmlToCto py et xml intake = .ok c) : Normalized c := by
  obtain ⟨root, event⟩ : ∃ root, et.fromstring xml = .ok root := by
    cases event : et.fromstring xml with
    | error _ =>
      rw [cotXmlToCto, event] at parsed
      cases parsed
    | ok root => exact ⟨root, rfl⟩
  obtain ⟨h, t, s, u, _, _, _, _, built⟩ := eventToCto_eq_ok (cotXmlToCto_eq_ok parsed event)
  obtain ⟨detail, _, how, horizontal⟩ := get?_attributesOf py root h.point
  rw [built]
  exact {
    sourceUid := ⟨_, rfl⟩
    cotType := ⟨_, rfl⟩
    validFrom := ⟨_, rfl⟩
    validTo := ⟨_, rfl⟩
    point := ⟨_, _, rfl, rfl⟩
    accuracy := by
      intro a there q known
      have there : altitudeOf py h.point = some a := there
      unfold altitudeOf at there
      split at there
      · cases there
      · split at there
        · cases Option.some.inj there
          cases known
        · obtain ⟨limit, _, rfl⟩ := Option.map_eq_some_iff.mp there
          exact accuracy_lt known
        · cases there
    how := ⟨_, how⟩
    horizontal := by
      refine ⟨_, horizontal, ?_⟩
      intro p there
      obtain ⟨ce, _, read⟩ := Option.bind_eq_some_iff.mp there
      obtain ⟨q, _, kept⟩ := Option.bind_eq_some_iff.mp read
      exact accuracy_lt kept
    detail := ⟨_, detail⟩ }

theorem collect_append (result : Dict String Value) (es : List Element) (e : Element) :
    collect result (es ++ [e]) = addNode (collect result es) e.tag (nodeOf e) := by
  induction es generalizing result with
  | nil => rfl
  | cons first es ih => exact ih (addNode result first.tag (nodeOf first))

theorem setDefault_stored (detail : Option Element) (tag : String) {node : List (String × String)}
    (distinct : (node.map Prod.fst).Nodup) :
    ∃ more : Element, setDefault (detail.map detailToAttributes) tag node =
      some (detailToAttributes more) := by
  let children := (detail.map Element.children).getD []
  have stored : (detail.map detailToAttributes).getD .empty = collect .empty children := by
    cases detail <;> rfl
  by_cases known : tag ∈ (collect .empty children).keys
  · refine ⟨.mk "detail" .empty none children, ?_⟩
    rw [setDefault, stored, if_pos known]
    rfl
  · refine ⟨.mk "detail" .empty none (children ++ [.mk tag (ofList node) none []]), ?_⟩
    have absent := (Dict.get?_eq_none_iff (collect .empty children) tag).mpr known
    have whole : nodeOf (.mk tag (ofList node) none []) =
        .obj (node.map (fun i => (i.1, .str i.2))) := by
      change Value.obj ((ofList node).items.map _) = _
      rw [items_ofList distinct]
    rw [setDefault, stored, if_neg known, detailToAttributes, Element.children_mk, collect_append,
      Element.tag_mk, whole, addNode, absent]

theorem foldl_setDefault_stored (nodes : List (String × List (String × String)))
    (distinct : ∀ n ∈ nodes, (n.2.map Prod.fst).Nodup) (detail : Option Element) :
    ∃ more : Option Element,
      nodes.foldl (fun detail node => setDefault detail node.1 node.2)
        (detail.map detailToAttributes) =
        more.map detailToAttributes := by
  induction nodes generalizing detail with
  | nil => exact ⟨detail, rfl⟩
  | cons n nodes ih =>
    obtain ⟨more, made⟩ := setDefault_stored detail n.1 (distinct n List.mem_cons_self)
    rw [List.foldl_cons, made]
    exact ih (fun m later => distinct m (List.mem_cons_of_mem n later)) (some more)

theorem distinct_typedNodes (d : Proto.Detail) : ∀ n ∈ typedNodes d, (n.2.map Prod.fst).Nodup := by
  intro n member
  simp only [typedNodes, List.mem_append, Option.mem_toList, Option.map_eq_some_iff] at member
  rcases member with ((⟨_, _, rfl⟩ | ⟨_, _, rfl⟩) | ⟨_, _, rfl⟩) | ⟨_, _, rfl⟩ <;> simp

theorem pbDetail_stored (et : Etree) (d : Proto.Detail) :
    ∃ detail : Option Element, pbDetail et d = detail.map detailToAttributes := by
  have parsed : ∃ detail : Option Element, xmlDetailOf et d.xmlDetail =
      detail.map detailToAttributes := by
    unfold xmlDetailOf
    split
    · exact ⟨none, rfl⟩
    · split
      · rename_i detail _
        exact ⟨some detail, rfl⟩
      · exact ⟨none, rfl⟩
  obtain ⟨detail, same⟩ := parsed
  rw [pbDetail, same]
  exact foldl_setDefault_stored (typedNodes d) (distinct_typedNodes d) detail

theorem get?_pbAttributes (et : Etree) (ev : Proto.CotEvent) :
    (pbAttributes et ev).get? "cot_detail" =
        (ev.detail.bind (pbDetail et)).map (fun detail => .obj detail.items) ∧
      (pbAttributes et ev).get? "cot_how" = (truthyStr (some ev.how)).map .str ∧
      (pbAttributes et ev).get? "cot_horizontal_accuracy_m" =
        (if ev.ce ≠ 0 ∧ ev.ce < 9999999 then some ev.ce else none).map .num := by
  unfold pbAttributes
  dsimp only
  refine ⟨?_, ?_, ?_⟩
  · rw [get?_setSome_ne _ _ (by decide), get?_setSome_ne _ _ (by decide), get?_setSome_self]
    exact get?_setSome_ne _ _ (by decide)
  · rw [get?_setSome_ne _ _ (by decide), get?_setSome_self]
    rw [get?_setSome_ne _ _ (by decide), get?_setSome_ne _ _ (by decide)]
    rfl
  · rw [get?_setSome_self]
    · split <;> rfl
    · rw [get?_setSome_ne _ _ (by decide), get?_setSome_ne _ _ (by decide),
        get?_setSome_ne _ _ (by decide)]
      rfl

theorem pbAltitude_accuracy (ev : Proto.CotEvent) :
    ∀ a ∈ pbAltitude ev, ∀ q ∈ a.accuracyM, q < 9999999 := by
  intro a there q known
  unfold pbAltitude at there
  split at there
  · cases Option.some.inj there
    split at known
    · rename_i bounds
      cases Option.some.inj known
      exact bounds.2
    · cases known
  · cases there

theorem normalized_buildPbCto (et : Etree) (ev : Proto.CotEvent) (intake : Intake)
    (t s u : Datetime) :
    Normalized (buildPbCto et ev intake t s u) := by
  obtain ⟨detail, how, horizontal⟩ := get?_pbAttributes et ev
  exact {
    sourceUid := ⟨_, rfl⟩
    cotType := ⟨_, rfl⟩
    validFrom := ⟨_, rfl⟩
    validTo := ⟨_, rfl⟩
    point := ⟨_, _, rfl, rfl⟩
    accuracy := pbAltitude_accuracy ev
    how := ⟨_, how⟩
    horizontal := by
      refine ⟨_, horizontal, ?_⟩
      intro p there
      split at there
      · rename_i bounds
        cases Option.some.inj there
        exact bounds.2
      · cases there
    detail := by
      cases here : ev.detail with
      | none =>
        rw [here] at detail
        exact ⟨none, detail⟩
      | some d =>
        obtain ⟨stored, same⟩ := pbDetail_stored et d
        refine ⟨stored, ?_⟩
        rw [here, Option.bind_some, same, Option.map_map] at detail
        exact detail }

theorem cotPbToCto_eq_ok {pb : Protobuf} {et : Etree} {payload : List UInt8}
    {intake : Intake} {c : CTO}
    (parsed : cotPbToCto pb et payload intake = .ok c) :
    ∃ ev t s u, c = buildPbCto et ev intake t s u := by
  obtain ⟨msg, _, parsed⟩ := bind_ok parsed
  obtain ⟨ev, _, parsed⟩ := bind_ok parsed
  obtain ⟨t, _, parsed⟩ := bind_ok parsed
  obtain ⟨s, _, parsed⟩ := bind_ok parsed
  obtain ⟨u, _, parsed⟩ := bind_ok parsed
  exact ⟨ev, t, s, u, (Except.ok.inj parsed).symm⟩

theorem normalized_pb {pb : Protobuf} {et : Etree} {payload : List UInt8}
    {intake : Intake} {c : CTO}
    (parsed : cotPbToCto pb et payload intake = .ok c) : Normalized c := by
  obtain ⟨ev, t, s, u, built⟩ := cotPbToCto_eq_ok parsed
  rw [built]
  exact normalized_buildPbCto et ev intake t s u

/-- A time on a whole millisecond, not before 1970. -/
def WholeMillis (t : Datetime) : Prop := 0 ≤ t.instant ∧ t.instant % 1000 = 0

theorem fromMillis_toMillis {t : Datetime} {ms : UInt64} (whole : WholeMillis t)
    (sent : toMillis t = .ok ms) : ∃ u, fromMillis ms = .ok u ∧ u.instant = t.instant := by
  unfold toMillis at sent
  cases converted : atOffset t.instant 0 with
  | none =>
    rw [converted] at sent
    cases sent
  | some utc =>
    rw [converted] at sent
    obtain ⟨same, _⟩ := atOffset_eq_some converted
    obtain ⟨positive, exact_millis⟩ := whole
    have bounds := (atOffset_isSome_iff (by decide)).mp (Option.isSome_of_eq_some converted)
    have truncated : utc.instant.tdiv 1000 = t.instant / 1000 := by
      rw [same, Int.tdiv_eq_ediv_of_nonneg positive]
    dsimp only at sent
    rw [truncated] at sent
    rw [if_pos (by omega)] at sent
    have size : (t.instant / 1000).toNat < 2 ^ 64 := by omega
    have back : (ms.toNat : Int) * 1000 = t.instant := by
      rw [← Except.ok.inj sent, UInt64.toNat_ofNat_of_lt' size]
      omega
    refine ⟨utc, ?_, same⟩
    rw [fromMillis, back, converted]
    rfl

structure Sent (py : Runtime) (et : Etree) (c : CTO) (ev : Proto.CotEvent) where
  time : UInt64
  start : UInt64
  stale : UInt64
  lon : Rat
  lat : Rat
  time_ok : toMillis c.eventTime = .ok time
  start_ok : toMillis (c.validFrom.getD c.eventTime) = .ok start
  stale_ok : toMillis (c.validTo.getD c.eventTime) = .ok stale
  lon_ok : raiseNone .typeError c.geometry.coordinates[0]? >>= coordinate py = .ok lon
  lat_ok : raiseNone .typeError c.geometry.coordinates[1]? >>= coordinate py = .ok lat
  event_eq : ev = pbEvent et c time start stale lon lat

theorem ctoToTakMessage_eq_ok {py : Runtime} {et : Etree} {c : CTO} {msg : Proto.TakMessage}
    {lossy : List String} (made : ctoToTakMessage py et c = .ok (msg, lossy)) :
    ∃ ev, Nonempty (Sent py et c ev) ∧ msg = { cotEvent := some ev } ∧ lossy = lossyFields c := by
  obtain ⟨time, time_ok, made⟩ := bind_ok made
  obtain ⟨start, start_ok, made⟩ := bind_ok made
  obtain ⟨stale, stale_ok, made⟩ := bind_ok made
  obtain ⟨lon, lon_ok, made⟩ := bind_ok made
  obtain ⟨lat, lat_ok, made⟩ := bind_ok made
  have pair := Prod.mk.inj (Except.ok.inj made)
  exact ⟨pbEvent et c time start stale lon lat,
    ⟨⟨time, start, stale, lon, lat, time_ok, start_ok, stale_ok, lon_ok, lat_ok, rfl⟩⟩,
    pair.1.symm, pair.2.symm⟩

theorem ctoToCotPb_eq_ok_iff {py : Runtime} {pb : Protobuf} {et : Etree} {c : CTO}
    {payload : List UInt8} {lossy : List String} :
    ctoToCotPb py pb et c = .ok (payload, lossy) ↔
      ∃ msg, ctoToTakMessage py et c = .ok (msg, lossy) ∧ payload = pb.serializeToString msg := by
  unfold ctoToCotPb
  cases ctoToTakMessage py et c with
  | error _ => simp [Except.map]
  | ok result => simp [Except.map, Prod.ext_iff, and_comm, eq_comm]

section Fields

variable {et : Etree} {c : CTO}

theorem egressDetail_bind {A : Type} (f : Proto.Detail → Option A) (empty : f {} = none) :
    (egressDetail et c).bind f =
      f { xmlDetail := innerXml et (restored c)
          contact := (truthyStr c.callsign).map (fun callsign => { callsign })
          track := c.kinematics.bind pbTrack } := by
  unfold egressDetail
  dsimp only
  split
  · rename_i nothing
    rw [nothing.1, nothing.2.1, nothing.2.2]
    exact empty.symm
  · rfl

theorem truthyStr_truthyStr (s : Option String) :
    (truthyStr s).bind (fun s => truthyStr (some s)) = truthyStr s := by
  cases s with
  | none => rfl
  | some s =>
    rw [truthyStr_some]
    split
    · rfl
    · rename_i full
      rw [Option.bind_some, truthyStr_some, if_neg full]

theorem callsign_sent : (egressDetail et c).bind pbCallsign = truthyStr c.callsign := by
  rw [egressDetail_bind pbCallsign rfl, pbCallsign, Option.bind_map]
  exact truthyStr_truthyStr c.callsign

theorem kinematics_sent :
    ((egressDetail et c).bind pbKinematics).bind Kinematics.courseDeg =
        (c.kinematics.bind Kinematics.courseDeg).bind nonzero ∧
      ((egressDetail et c).bind pbKinematics).bind Kinematics.speedMps =
        (c.kinematics.bind Kinematics.speedMps).bind nonzero := by
  rw [egressDetail_bind pbKinematics rfl, pbKinematics]
  dsimp only
  cases c.kinematics with
  | none => exact ⟨rfl, rfl⟩
  | some k =>
    simp only [Option.bind_some, pbTrack]
    cases k.courseDeg with
    | none =>
      cases k.speedMps with
      | none => exact ⟨rfl, rfl⟩
      | some speed => exact ⟨rfl, rfl⟩
    | some course =>
      cases k.speedMps with
      | none => exact ⟨rfl, rfl⟩
      | some speed => exact ⟨rfl, rfl⟩

theorem nonzero_eq_iff (q : Option Rat) : q.bind nonzero = q ↔ q ≠ some 0 := by
  cases q with
  | none => simp
  | some q =>
    rw [Option.bind_some, nonzero]
    by_cases zero : q = 0
    · simp [zero]
    · simp [zero]

theorem truthyStr_eq_iff (s : Option String) : truthyStr s = s ↔ s ≠ some "" := by
  cases s with
  | none => simp [truthyStr]
  | some s =>
    rw [truthyStr_some]
    by_cases empty : s = ""
    · simp [empty]
    · simp [empty]

end Fields

/-- The characters that XML allows. -/
def xmlChar (c : Char) : Bool :=
  c = '\t' || c = '\n' || c = '\r' || (' ' ≤ c && c ≠ '\ufffe' && c ≠ '\uffff')

mutual

/-- The attributes and the text of the element, and what is below it, have allowed characters
only. -/
def Readable : Element → Prop
  | .mk _ attrib text children =>
    (∀ i ∈ attrib.items, i.2.toList.all xmlChar) ∧ (∀ s ∈ text, s.toList.all xmlChar) ∧
      AllReadable children

def AllReadable : List Element → Prop
  | [] => True
  | e :: es => Readable e ∧ AllReadable es

end

/-- What is relied on of `ElementTree` for the embedded text of these elements. -/
structure ReadsBack (et : Etree) (es : List Element) : Prop where
  written : es ≠ [] → innerXml et es ≠ ""
  reads : (∀ e ∈ es, Readable e) →
    et.fromstring (Text.encode ("<detail>" ++ innerXml et es ++ "</detail>")) =
      .ok (.mk "detail" .empty none (es.map reread))
  rejects : (∃ e ∈ es, ¬ Readable e) → ∃ message,
    et.fromstring (Text.encode ("<detail>" ++ innerXml et es ++ "</detail>")) =
      .error (.parseError message)

/-- What a CTO records of the detail elements under a tag. -/
def storedNode (c : CTO) (tag : String) : Option Value :=
  match c.attributes.get? "cot_detail" with
  | some (.obj stored) => Json.lookup tag stored
  | _ => none

/-- The elements that the typed fields of the message stand for. -/
def Carried (c : CTO) (tag : String) : Prop :=
  (tag = "contact" ∧ truthyStr c.callsign ≠ none) ∨
    (tag = "track" ∧ (c.kinematics.bind Kinematics.courseDeg ≠ none ∨
      c.kinematics.bind Kinematics.speedMps ≠ none))

section Detail

variable {et : Etree} {c : CTO} {detail : Element}

theorem storedNode_eq
    (stored : c.attributes.get? "cot_detail" = some (.obj (detailToAttributes detail).items))
    (tag : String) : storedNode c tag = pack ((under detail tag).map nodeOf) := by
  rw [storedNode, stored]
  exact get?_detail detail tag

theorem under_restored
    (stored : c.attributes.get? "cot_detail" = some (.obj (detailToAttributes detail).items))
    (tag : String) :
    (restored c).filter (fun e => e.tag = tag) =
      if tag ∈ ["contact", "track"] then [] else (under detail tag).map again := by
  rw [restored, stored]
  exact filter_emit_detail detail ["contact", "track"] tag

theorem mem_restored_iff
    (stored : c.attributes.get? "cot_detail" = some (.obj (detailToAttributes detail).items))
    (e : Element) :
    e ∈ restored c ↔ ∃ d ∈ detail.children, d.tag ∉ ["contact", "track"] ∧ again d = e := by
  have tagged := under_restored stored e.tag
  constructor
  · intro member
    have there : e ∈ (restored c).filter (fun f => f.tag = e.tag) := by simp [member]
    rw [tagged] at there
    split at there
    · cases there
    · rename_i other
      obtain ⟨d, inside, rfl⟩ := List.mem_map.mp there
      obtain ⟨child, same⟩ := List.mem_filter.mp inside
      exact ⟨d, child, other, rfl⟩
  · rintro ⟨d, child, other, rfl⟩
    have tag : (again d).tag = d.tag := rfl
    rw [tag, if_neg other] at tagged
    have there : again d ∈ (restored c).filter (fun f => f.tag = d.tag) := by
      rw [tagged]
      exact List.mem_map_of_mem (mem_under.mpr ⟨child, rfl⟩)
    exact (List.mem_filter.mp there).1

theorem xmlDetailOf_restored (back : ReadsBack et (restored c)) :
    ((∀ e ∈ restored c, Readable e) → ∀ tag,
      ((xmlDetailOf et (innerXml et (restored c))).bind (fun d => d.get? tag)) =
        pack (((restored c).filter (fun e => e.tag = tag)).map (fun e => nodeOf (reread e)))) ∧
      ((∃ e ∈ restored c, ¬ Readable e) → xmlDetailOf et (innerXml et (restored c)) = none) := by
  constructor
  · intro readable tag
    by_cases nothing : restored c = []
    · rw [nothing]
      rfl
    · rw [xmlDetailOf, if_neg (back.written nothing), back.reads readable]
      dsimp only
      rw [Option.bind_some, get?_detail, Element.children_mk, List.filter_map, List.map_map]
      have tags : (fun e : Element => decide (e.tag = tag)) ∘ reread =
          fun e => decide (e.tag = tag) := by
        funext e
        simp
      rw [tags]
      rfl
  · rintro ⟨e, member, unreadable⟩
    have nothing : restored c ≠ [] := List.ne_nil_of_mem member
    obtain ⟨message, rejected⟩ := back.rejects ⟨e, member, unreadable⟩
    rw [xmlDetailOf, if_neg (back.written nothing), rejected]

theorem rel_none_right {a : Option Value} (same : Option.Rel Same a none) : a = none := by
  cases same
  rfl

theorem uncarried {tag : String} (other : tag ∉ ["contact", "track"]) : ¬ Carried c tag := by
  rintro (⟨rfl, _⟩ | ⟨rfl, _⟩)
  · exact other (by simp)
  · exact other (by simp)

theorem detail_sent_iff
    (stored : c.attributes.get? "cot_detail" = some (.obj (detailToAttributes detail).items))
    (back : ReadsBack et (restored c)) :
    (∀ tag, ¬ Carried c tag → Option.Rel Same (storedNode c tag)
        ((xmlDetailOf et (innerXml et (restored c))).bind (fun d => d.get? tag))) ↔
      ∀ e ∈ detail.children, (e.tag ∈ ["contact", "track"] → Carried c e.tag) ∧
        (e.tag ∉ ["contact", "track"] → Plain e ∧ Readable (again e)) := by
  obtain ⟨parsed, refused⟩ := xmlDetailOf_restored back
  have recorded {e : Element} (member : e ∈ detail.children) : storedNode c e.tag ≠ none := by
    rw [storedNode_eq stored, Ne, pack_eq_none_iff, List.map_eq_nil_iff]
    exact List.ne_nil_of_mem (mem_under.mpr ⟨member, rfl⟩)
  constructor
  · intro same
    have readable : ∀ e ∈ restored c, Readable e := by
      by_contra some_not
      push Not at some_not
      obtain ⟨e, member, unreadable⟩ := some_not
      obtain ⟨d, child, other, rfl⟩ := (mem_restored_iff stored e).mp member
      have lost := same d.tag (uncarried other)
      rw [refused ⟨_, member, unreadable⟩] at lost
      exact recorded child (rel_none_right lost)
    intro e member
    have kept (free : ¬ Carried c e.tag) := same e.tag free
    rw [parsed readable, under_restored stored] at kept
    constructor
    · intro typed
      by_contra free
      have lost := kept free
      rw [if_pos typed] at lost
      exact recorded member (rel_none_right lost)
    · intro other
      have here := kept (uncarried other)
      rw [if_neg other, storedNode_eq stored, List.map_map] at here
      have plain := (rel_pack (f := returned)).mp here e (mem_under.mpr ⟨member, rfl⟩)
      exact ⟨(plain_iff e).mpr plain,
        readable _ ((mem_restored_iff stored _).mpr ⟨e, member, other, rfl⟩)⟩
  · intro whole tag free
    have readable : ∀ e ∈ restored c, Readable e := by
      intro e member
      obtain ⟨d, child, other, rfl⟩ := (mem_restored_iff stored e).mp member
      exact ((whole d child).2 other).2
    rw [parsed readable, under_restored stored, storedNode_eq stored]
    by_cases typed : tag ∈ ["contact", "track"]
    · have absent : under detail tag = [] := by
        apply List.eq_nil_iff_forall_not_mem.mpr
        intro e there
        obtain ⟨member, tagged⟩ := mem_under.mp there
        exact free (tagged ▸ (whole e member).1 (tagged.symm ▸ typed))
      rw [if_pos typed, absent]
      exact .none
    · rw [if_neg typed, List.map_map]
      refine (rel_pack (f := returned)).mpr ?_
      intro e there
      obtain ⟨member, tagged⟩ := mem_under.mp there
      exact (plain_iff e).mp ((whole e member).2 (tagged.symm ▸ typed)).1

end Detail

/-- The typed fields and the instants; of the elements, those that no typed field stands
for. -/
structure PbAgrees (c d : CTO) : Prop where
  sourceUid : d.sourceUid = c.sourceUid
  cotType : d.symbology.cotType = c.symbology.cotType
  geometryType : d.geometry.type = c.geometry.type
  coordinates : d.geometry.coordinates = c.geometry.coordinates
  eventTime : d.eventTime.instant = c.eventTime.instant
  validFrom : d.validFrom.map Datetime.instant = c.validFrom.map Datetime.instant
  validTo : d.validTo.map Datetime.instant = c.validTo.map Datetime.instant
  callsign : d.callsign = c.callsign
  remarks : d.remarks = c.remarks
  altitude : d.altitude.map (fun a => (a.valueM, a.accuracyM)) =
    c.altitude.map (fun a => (a.valueM, a.accuracyM))
  course : d.kinematics.bind Kinematics.courseDeg = c.kinematics.bind Kinematics.courseDeg
  speed : d.kinematics.bind Kinematics.speedMps = c.kinematics.bind Kinematics.speedMps
  how : d.attributes.get? "cot_how" = c.attributes.get? "cot_how"
  horizontalAccuracy : d.attributes.get? "cot_horizontal_accuracy_m" =
    c.attributes.get? "cot_horizontal_accuracy_m"
  detail : ∀ tag, ¬ Carried c tag → Option.Rel Same (storedNode c tag) (storedNode d tag)

/-- The CTOs without an optional value that is zero or empty, without remarks, without a stored
contact or track that no typed field stands for, and with plain and readable elements beside. -/
structure Carriable (c : CTO) : Prop where
  sourceUid : c.sourceUid ≠ some ""
  callsign : c.callsign ≠ some ""
  remarks : c.remarks = none
  altitude : ∀ a ∈ c.altitude, a.accuracyM ≠ some 0 ∧ (a.valueM ≠ 0 ∨ a.accuracyM ≠ none)
  course : c.kinematics.bind Kinematics.courseDeg ≠ some 0
  speed : c.kinematics.bind Kinematics.speedMps ≠ some 0
  how : c.attributes.get? "cot_how" ≠ some (.str "")
  horizontalAccuracy : c.attributes.get? "cot_horizontal_accuracy_m" ≠ some (.num 0)
  detail : ∃ detail : Option Element,
    c.attributes.get? "cot_detail" =
      detail.map (fun detail => .obj (detailToAttributes detail).items) ∧
      ∀ d ∈ detail, ∀ e ∈ d.children, (e.tag ∈ ["contact", "track"] → Carried c e.tag) ∧
        (e.tag ∉ ["contact", "track"] → Plain e ∧ Readable (again e))

section RoundTrip

variable {py : Runtime} {et : Etree} {c : CTO} {ev : Proto.CotEvent} {intake : Intake}
    {t s u : Datetime}

theorem altitude_sent (sent : Sent py et c ev)
    (accurate : ∀ a ∈ c.altitude, ∀ q ∈ a.accuracyM, q < 9999999) :
    (pbAltitude ev).map (fun a => (a.valueM, a.accuracyM)) =
        c.altitude.map (fun a => (a.valueM, a.accuracyM)) ↔
      ∀ a ∈ c.altitude, a.accuracyM ≠ some 0 ∧ (a.valueM ≠ 0 ∨ a.accuracyM ≠ none) := by
  have hae : ev.hae = (c.altitude.map Altitude.valueM).getD 0 :=
    congrArg Proto.CotEvent.hae sent.event_eq
  have le : ev.le = (c.altitude.bind Altitude.accuracyM).getD 0 :=
    congrArg Proto.CotEvent.le sent.event_eq
  rw [pbAltitude, hae, le]
  cases there : c.altitude with
  | none => simp
  | some a =>
    cases limit : a.accuracyM with
    | none =>
      by_cases zero : a.valueM = 0
      · simp [limit, zero]
      · simp [limit, zero]
    | some q =>
      have small := accurate a there q limit
      by_cases none_left : q = 0
      · simp [limit, none_left]
      · simp [limit, none_left, small]

theorem horizontal_sent (sent : Sent py et c ev) {q : Option Rat}
    (stored : c.attributes.get? "cot_horizontal_accuracy_m" = q.map .num)
    (accurate : ∀ p ∈ q, p < 9999999) :
    (pbAttributes et ev).get? "cot_horizontal_accuracy_m" =
        c.attributes.get? "cot_horizontal_accuracy_m" ↔
      c.attributes.get? "cot_horizontal_accuracy_m" ≠ some (.num 0) := by
  have ce : ev.ce = ((c.attributes.get? "cot_horizontal_accuracy_m").bind number).getD 0 :=
    congrArg Proto.CotEvent.ce sent.event_eq
  rw [(get?_pbAttributes et ev).2.2, ce, stored]
  cases q with
  | none => simp
  | some q =>
    have small := accurate q rfl
    by_cases zero : q = 0
    · simp [number, zero]
    · simp [number, zero, small]

theorem how_sent (sent : Sent py et c ev) {how : Option String}
    (stored : c.attributes.get? "cot_how" = how.map .str) :
    (pbAttributes et ev).get? "cot_how" = c.attributes.get? "cot_how" ↔
      c.attributes.get? "cot_how" ≠ some (.str "") := by
  have text : ev.how = how.getD "" := by
    have own := congrArg Proto.CotEvent.how sent.event_eq
    rw [own, pbEvent, stored]
    cases how <;> rfl
  rw [(get?_pbAttributes et ev).2.1, text, stored, truthyStr_some]
  cases how with
  | none => simp
  | some how =>
    by_cases empty : how = ""
    · simp [empty]
    · simp [empty]

theorem type_sent (sent : Sent py et c ev) {cotType : String}
    (typed : c.symbology.cotType = some cotType)
    (lossless : lossyFields c = []) : some ev.type = c.symbology.cotType := by
  have own : ev.type = (truthyStr c.symbology.cotType).getD "a-u-G" :=
    congrArg Proto.CotEvent.type sent.event_eq
  have reported := (List.append_eq_nil_iff.mp lossless).1
  rw [typed, truthyStr_some] at reported
  by_cases empty : cotType = ""
  · simp [empty] at reported
  · rw [own, typed, truthyStr_some, if_neg empty]
    rfl

theorem coordinates_sent (sent : Sent py et c ev) {lon lat : Rat}
    (point : c.geometry.coordinates = [.num lon, .num lat]) :
    [Value.num ev.lon, Value.num ev.lat] = c.geometry.coordinates := by
  have lon_ok := sent.lon_ok
  have lat_ok := sent.lat_ok
  rw [point] at lon_ok lat_ok ⊢
  have lon_eq : ev.lon = sent.lon := congrArg Proto.CotEvent.lon sent.event_eq
  have lat_eq : ev.lat = sent.lat := congrArg Proto.CotEvent.lat sent.event_eq
  rw [lon_eq, lat_eq, ← Except.ok.inj lon_ok, ← Except.ok.inj lat_ok]

theorem storedNode_sent (sent : Sent py et c ev) (tag : String) :
    storedNode (buildPbCto et ev intake t s u) tag =
      (xmlDetailOf et (innerXml et (restored c))).bind (fun d => d.get? tag) := by
  have detail : ev.detail = egressDetail et c := congrArg Proto.CotEvent.detail sent.event_eq
  have recorded : (buildPbCto et ev intake t s u).attributes.get? "cot_detail" =
      (xmlDetailOf et (innerXml et (restored c))).map (fun detail => .obj detail.items) := by
    refine (get?_pbAttributes et ev).1.trans ?_
    rw [detail, egressDetail_bind (pbDetail et) rfl]
    rfl
  rw [storedNode, recorded]
  cases xmlDetailOf et (innerXml et (restored c)) <;> rfl

theorem pbAgrees_iff (normalized : Normalized c) (sent : Sent py et c ev)
    (lossless : lossyFields c = [])
    (back : ReadsBack et (restored c)) (time : t.instant = c.eventTime.instant)
    (start : s.instant = (c.validFrom.getD c.eventTime).instant)
    (stale : u.instant = (c.validTo.getD c.eventTime).instant) :
    PbAgrees c (buildPbCto et ev intake t s u) ↔ Carriable c := by
  obtain ⟨uid, uid_eq⟩ := normalized.sourceUid
  obtain ⟨cotType, type_eq⟩ := normalized.cotType
  obtain ⟨begins, from_eq⟩ := normalized.validFrom
  obtain ⟨ends, to_eq⟩ := normalized.validTo
  obtain ⟨lon, lat, point, coordinates⟩ := normalized.point
  obtain ⟨how, how_eq⟩ := normalized.how
  obtain ⟨horizontal, horizontal_eq, small⟩ := normalized.horizontal
  have event := sent.event_eq
  have uid_iff : some ev.uid = c.sourceUid ↔ c.sourceUid ≠ some "" := by
    have own : ev.uid = egressUid c := congrArg Proto.CotEvent.uid event
    rw [own, uid_eq, Option.some.injEq, egressUid_eq_iff uid_eq, Ne, Ne, Option.some.injEq]
  have detail_eq : ev.detail = egressDetail et c := congrArg Proto.CotEvent.detail event
  have callsign_iff : ev.detail.bind pbCallsign = c.callsign ↔ c.callsign ≠ some "" := by
    rw [detail_eq, callsign_sent, truthyStr_eq_iff]
  have course_iff : (ev.detail.bind pbKinematics).bind Kinematics.courseDeg =
      c.kinematics.bind Kinematics.courseDeg ↔ c.kinematics.bind Kinematics.courseDeg ≠ some 0 := by
    rw [detail_eq, kinematics_sent.1, nonzero_eq_iff]
  have speed_iff : (ev.detail.bind pbKinematics).bind Kinematics.speedMps =
      c.kinematics.bind Kinematics.speedMps ↔ c.kinematics.bind Kinematics.speedMps ≠ some 0 := by
    rw [detail_eq, kinematics_sent.2, nonzero_eq_iff]
  have altitude_iff := altitude_sent sent normalized.accuracy
  have how_iff := how_sent sent how_eq
  have horizontal_iff := horizontal_sent sent horizontal_eq small
  constructor
  · intro agrees
    exact {
      sourceUid := uid_iff.mp agrees.sourceUid
      callsign := callsign_iff.mp agrees.callsign
      remarks := agrees.remarks.symm
      altitude := altitude_iff.mp agrees.altitude
      course := course_iff.mp agrees.course
      speed := speed_iff.mp agrees.speed
      how := how_iff.mp agrees.how
      horizontalAccuracy := horizontal_iff.mp agrees.horizontalAccuracy
      detail := by
        obtain ⟨detail, stored⟩ := normalized.detail
        refine ⟨detail, stored, ?_⟩
        intro d there
        rw [Option.mem_def.mp there] at stored
        refine (detail_sent_iff stored back).mp ?_
        intro tag free
        rw [← storedNode_sent sent]
        exact agrees.detail tag free }
  · intro carriable
    exact {
      sourceUid := uid_iff.mpr carriable.sourceUid
      cotType := type_sent sent type_eq lossless
      geometryType := point.symm
      coordinates := coordinates_sent sent coordinates
      eventTime := time
      validFrom := by
        rw [from_eq] at start ⊢
        exact congrArg some start
      validTo := by
        rw [to_eq] at stale ⊢
        exact congrArg some stale
      callsign := callsign_iff.mpr carriable.callsign
      remarks := carriable.remarks.symm
      altitude := altitude_iff.mpr carriable.altitude
      course := course_iff.mpr carriable.course
      speed := speed_iff.mpr carriable.speed
      how := how_iff.mpr carriable.how
      horizontalAccuracy := horizontal_iff.mpr carriable.horizontalAccuracy
      detail := by
        intro tag free
        rw [storedNode_sent sent]
        obtain ⟨detail, detail_eq, whole⟩ := carriable.detail
        cases detail with
        | none =>
          have nothing : restored c = [] := by rw [restored, detail_eq]; rfl
          rw [storedNode, detail_eq, nothing]
          exact .none
        | some detail =>
          exact (detail_sent_iff detail_eq back).mpr (whole detail rfl) tag free }

end RoundTrip

theorem cotPbToCto_parsed {pb : Protobuf} (et : Etree) {ev : Proto.CotEvent} {payload : List UInt8}
    (intake : Intake) {t s u : Datetime}
    (parsed : pb.parseFromString payload = some { cotEvent := some ev })
    (time : fromMillis ev.sendTime = .ok t) (start : fromMillis ev.startTime = .ok s)
    (stale : fromMillis ev.staleTime = .ok u) :
    cotPbToCto pb et payload intake = .ok (buildPbCto et ev intake t s u) := by
  unfold cotPbToCto
  rw [parsed]
  unfold raiseNone
  dsimp only
  rw [ok_bind, ok_bind, pbEventToCto, time, ok_bind, start, ok_bind, stale, ok_bind]
  rfl

theorem agrees_sent_iff {py : Runtime} {pb : Protobuf} {et : Etree} {c : CTO} {payload : List UInt8}
    {intake : Intake} (normalized : Normalized c)
    (whole : ∀ t ∈ c.eventTime :: (c.validFrom.toList ++ c.validTo.toList), WholeMillis t)
    (sent : ctoToCotPb py pb et c = .ok (payload, []))
    (inverts : ∀ msg lossy, ctoToTakMessage py et c = .ok (msg, lossy) →
      pb.parseFromString (pb.serializeToString msg) = some msg)
    (back : ReadsBack et (restored c)) :
    (∃ d, cotPbToCto pb et payload intake = .ok d ∧ PbAgrees c d) ↔ Carriable c := by
  obtain ⟨msg, message, rfl⟩ := ctoToCotPb_eq_ok_iff.mp sent
  have parsed := inverts msg [] message
  obtain ⟨ev, ⟨s⟩, rfl, lossless⟩ := ctoToTakMessage_eq_ok message
  have whole_start : WholeMillis (c.validFrom.getD c.eventTime) := by
    cases there : c.validFrom with
    | none => exact whole _ List.mem_cons_self
    | some t => exact whole t (by simp [there])
  have whole_stale : WholeMillis (c.validTo.getD c.eventTime) := by
    cases there : c.validTo with
    | none => exact whole _ List.mem_cons_self
    | some t => exact whole t (by simp [there])
  obtain ⟨time, time_read, time_eq⟩ := fromMillis_toMillis (whole _ List.mem_cons_self) s.time_ok
  obtain ⟨start, start_read, start_eq⟩ := fromMillis_toMillis whole_start s.start_ok
  obtain ⟨stale, stale_read, stale_eq⟩ := fromMillis_toMillis whole_stale s.stale_ok
  have read : cotPbToCto pb et (pb.serializeToString { cotEvent := some ev }) intake =
      .ok (buildPbCto et ev intake time start stale) := by
    have sendTime : ev.sendTime = s.time := congrArg Proto.CotEvent.sendTime s.event_eq
    have startTime : ev.startTime = s.start := congrArg Proto.CotEvent.startTime s.event_eq
    have staleTime : ev.staleTime = s.stale := congrArg Proto.CotEvent.staleTime s.event_eq
    apply cotPbToCto_parsed et intake parsed
    · rw [sendTime, time_read]
    · rw [startTime, start_read]
    · rw [staleTime, stale_read]
  rw [read, ← pbAgrees_iff normalized s lossless.symm back time_eq start_eq stale_eq]
  constructor
  · rintro ⟨d, same, agrees⟩
    exact (Except.ok.inj same) ▸ agrees
  · exact fun agrees => ⟨_, rfl, agrees⟩

/-- A CTO of one of the two normalizers, sent without a reported loss and read again, keeps its
fields exactly when it is carriable. -/
theorem pb_fields_return_iff (py : Runtime) (pb : Protobuf) (et : Etree) (c : CTO)
    (payload : List UInt8) (intake : Intake)
    (made : (∃ xml intake, cotXmlToCto py et xml intake = .ok c) ∨
      ∃ received intake, cotPbToCto pb et received intake = .ok c)
    (whole : ∀ t ∈ c.eventTime :: (c.validFrom.toList ++ c.validTo.toList), WholeMillis t)
    (sent : ctoToCotPb py pb et c = .ok (payload, []))
    (inverts : ∀ msg lossy, ctoToTakMessage py et c = .ok (msg, lossy) →
      pb.parseFromString (pb.serializeToString msg) = some msg)
    (back : ReadsBack et (restored c)) :
    (∃ d, cotPbToCto pb et payload intake = .ok d ∧ PbAgrees c d) ↔ Carriable c := by
  rcases made with ⟨xml, _, parsed⟩ | ⟨received, _, parsed⟩
  · exact agrees_sent_iff (normalized_xml parsed) whole sent inverts back
  · exact agrees_sent_iff (normalized_pb parsed) whole sent inverts back

/-- The runtime as far as the wire form of one message goes. -/
def wire (msg : Proto.TakMessage) (bytes : List UInt8) : Protobuf where
  parseFromString := fun payload => if payload = bytes then some msg else none
  serializeToString := fun other => if other = msg then bytes else []

theorem wire_inverts (msg : Proto.TakMessage) (bytes : List UInt8) :
    (wire msg bytes).parseFromString ((wire msg bytes).serializeToString msg) = some msg := by
  unfold wire
  dsimp only
  rw [if_pos rfl, if_pos rfl]

theorem wire_sends {py : Runtime} {et : Etree} {c : CTO} {msg : Proto.TakMessage}
    (bytes : List UInt8)
    {lossy : List String} (made : ctoToTakMessage py et c = .ok (msg, lossy)) :
    ctoToCotPb py (wire msg bytes) et c = .ok (bytes, lossy) ∧
      ∀ other lossy, ctoToTakMessage py et c = .ok (other, lossy) →
        (wire msg bytes).parseFromString ((wire msg bytes).serializeToString other) =
          some other := by
  constructor
  · exact ctoToCotPb_eq_ok_iff.mpr ⟨msg, made, (if_pos rfl).symm⟩
  · intro other lossy again
    rw [made] at again
    rw [← (Prod.mk.inj (Except.ok.inj again)).1]
    exact wire_inverts msg bytes

/-- A parser that knows the embedded text of these elements beside. -/
def knowing (et : Etree) (es : List Element) : Etree where
  fromstring := fun xml =>
    if xml = Text.encode ("<detail>" ++ innerXml et es ++ "</detail>") then
      .ok (.mk "detail" .empty none (es.map reread))
    else et.fromstring xml
  tostring := et.tostring

theorem knowing_readsBack {et : Etree} {es : List Element} (written : ∀ e ∈ es, et.tostring e ≠ "")
    (readable : ∀ e ∈ es, Readable e) : ReadsBack (knowing et es) es where
  written := by
    intro full empty
    obtain ⟨e, rest, rfl⟩ := List.exists_cons_of_ne_nil full
    apply written e List.mem_cons_self
    cases rest with
    | nil => exact empty
    | cons f rest =>
      have chars := congrArg String.toList empty
      simp only [innerXml, List.map_cons, Text.join, String.toList_append, List.append_assoc]
        at chars
      exact String.toList_injective (List.append_eq_nil_iff.mp chars).1
  reads _ := if_pos rfl
  rejects := by
    rintro ⟨e, member, unreadable⟩
    exact absurd (readable e member) unreadable

theorem knowing_report {point : List (String × String)} {detail es : List Element} :
    (knowing (reportEtree point detail) es).fromstring (document (report point detail)) =
      .ok (report point detail) := by
  have other : document (report point detail) ≠
      Text.encode ("<detail>" ++ innerXml (reportEtree point detail) es ++ "</detail>") := by
    intro same
    have second := congrArg (fun s => s.toList[1]?) (encode_injective same)
    simp only [String.toList_append, List.append_assoc] at second
    have marks : some '?' = some 'd' := second
    cases marks
  unfold knowing
  dsimp only
  rw [if_neg other, report_event]

def reportMessage (et : Etree) (point : List (String × String)) (detail : List Element) :
    Proto.TakMessage :=
  { cotEvent := some (pbEvent et (reportCto point detail) 1704067200000 1704067200000 1704067200000
      (45 / 4) (97 / 2)) }

theorem report_message (et : Etree) (point : List (String × String)) (detail : List Element) :
    ctoToTakMessage plainRuntime et (reportCto point detail) =
      .ok (reportMessage et point detail, lossyFields (reportCto point detail)) := by
  have millis : toMillis newYear = .ok 1704067200000 := by decide +kernel
  have lon : raiseNone .typeError (reportCto point detail).geometry.coordinates[0]? >>=
      coordinate plainRuntime = .ok (45 / 4) := rfl
  have lat : raiseNone .typeError (reportCto point detail).geometry.coordinates[1]? >>=
      coordinate plainRuntime = .ok (97 / 2) := rfl
  have time : toMillis (reportCto point detail).eventTime = .ok 1704067200000 := millis
  have start :
    toMillis ((reportCto point detail).validFrom.getD (reportCto point detail).eventTime) =
      .ok 1704067200000 := millis
  have stale : toMillis ((reportCto point detail).validTo.getD (reportCto point detail).eventTime) =
      .ok 1704067200000 := millis
  rw [ctoToTakMessage, time, start, stale, lon, lat]
  rfl

def labelledBytes : List UInt8 :=
  [18, 90, 10, 5, 97, 45, 102, 45, 71, 42, 6, 85, 78, 73, 84, 45, 55, 48, 128, 232, 199, 146, 204, 49,
    56, 128, 232, 199, 146, 204, 49, 64, 128, 232, 199, 146, 204, 49, 81, 0, 0, 0, 0, 0, 64, 72, 64,
    89, 0, 0, 0, 0, 0, 128, 38, 64, 122, 34, 10, 23, 60, 95, 95, 103, 114, 111, 117, 112, 32, 110, 97,
    109, 101, 61, 34, 67, 121, 97, 110, 34, 32, 47, 62, 18, 7, 18, 5, 66, 82, 65, 86, 79]

def labelledEtree : Etree := knowing (reportEtree unsurveyed labelled) [again group]

theorem readable_group : Readable (again group) := by
  refine ⟨?_, fun s text => absurd text (Option.not_mem_none s), trivial⟩
  decide +kernel

theorem carriable_labelled : Carriable (reportCto unsurveyed labelled) := by
  obtain ⟨detail, _, how, horizontal⟩ :=
    get?_attributesOf plainRuntime (report unsurveyed labelled) (reportHeader unsurveyed).point
  exact {
    sourceUid := (by decide : some "UNIT-7" ≠ some "")
    callsign := (by decide : some "BRAVO" ≠ some "")
    remarks := rfl
    altitude := fun a there => absurd there (Option.not_mem_none a)
    course := (by decide : (none : Option Rat) ≠ some 0)
    speed := (by decide : (none : Option Rat) ≠ some 0)
    how := by
      have absent : (reportCto unsurveyed labelled).attributes.get? "cot_how" = none := how
      rw [absent]
      exact (Option.some_ne_none _).symm
    horizontalAccuracy := by
      have absent : (reportCto unsurveyed labelled).attributes.get? "cot_horizontal_accuracy_m" =
        none :=
        horizontal
      rw [absent]
      exact (Option.some_ne_none _).symm
    detail := by
      refine ⟨some (.mk "detail" .empty none labelled), detail, ?_⟩
      intro d there e member
      rw [← Option.mem_some_iff.mp there] at member
      simp only [Element.children_mk, labelled, List.mem_cons, List.not_mem_nil, or_false] at member
      rcases member with rfl | rfl
      · exact ⟨fun _ => .inl ⟨rfl, (by decide : truthyStr (some "BRAVO") ≠ none)⟩,
          fun other => absurd List.mem_cons_self other⟩
      · exact ⟨fun typed => absurd typed (by decide), fun _ => ⟨plain_group, readable_group⟩⟩ }

theorem whole_report (point : List (String × String)) (detail : List Element) :
    ∀ t ∈ (reportCto point detail).eventTime :: ((reportCto point detail).validFrom.toList ++
      (reportCto point detail).validTo.toList), WholeMillis t := by
  intro t listed
  have same : t = newYear := by simpa [reportCto, buildCto] using listed
  rw [same]
  exact ⟨by decide +kernel, by decide +kernel⟩

theorem pb_fields_return_labelled :
    ∃ d, cotPbToCto (wire (reportMessage labelledEtree unsurveyed labelled) labelledBytes)
      labelledEtree
        labelledBytes reportIntake = .ok d ∧ PbAgrees (reportCto unsurveyed labelled) d := by
  have written : ∀ e ∈ [again group], writeElement e ≠ "" := by
    intro e member
    rw [List.mem_singleton.mp member]
    decide +kernel
  have readable : ∀ e ∈ [again group], Readable e := by
    intro e member
    rw [List.mem_singleton.mp member]
    exact readable_group
  obtain ⟨sent, inverts⟩ := wire_sends labelledBytes
    (report_message labelledEtree unsurveyed labelled)
  exact (pb_fields_return_iff plainRuntime
    (wire (reportMessage labelledEtree unsurveyed labelled) labelledBytes) labelledEtree
    (reportCto unsurveyed labelled) labelledBytes reportIntake
    (.inl ⟨_, _, report_parsed knowing_report rfl rfl⟩)
      (whole_report unsurveyed labelled) sent inverts
    (knowing_readsBack written readable)).mpr carriable_labelled

def grounded : List (String × String) := [("lat", "48.5"), ("lon", "11.25"), ("hae", "0")]

def groundedBytes : List UInt8 :=
  [18, 54, 10, 5, 97, 45, 102, 45, 71, 42, 6, 85, 78, 73, 84, 45, 55, 48, 128, 232, 199, 146, 204, 49,
    56, 128, 232, 199, 146, 204, 49, 64, 128, 232, 199, 146, 204, 49, 81, 0, 0, 0, 0, 0, 64, 72, 64,
    89, 0, 0, 0, 0, 0, 128, 38, 64]

def groundedEtree : Etree := knowing (reportEtree grounded []) []

/-- An altitude of zero is taken for none at all. -/
theorem zero_altitude_lost :
    cotXmlToCto plainRuntime groundedEtree (document (report grounded [])) reportIntake =
        .ok (reportCto grounded []) ∧
      ctoToCotPb plainRuntime (wire (reportMessage groundedEtree grounded []) groundedBytes)
        groundedEtree (reportCto grounded []) = .ok (groundedBytes, []) ∧
      ReadsBack groundedEtree (restored (reportCto grounded [])) ∧
      ¬ ∃ d, cotPbToCto (wire (reportMessage groundedEtree grounded []) groundedBytes) groundedEtree
        groundedBytes reportIntake = .ok d ∧ PbAgrees (reportCto grounded []) d := by
  have parsed : cotXmlToCto plainRuntime groundedEtree
    (document (report grounded [])) reportIntake =
      .ok (reportCto grounded []) := report_parsed knowing_report rfl rfl
  have back : ReadsBack groundedEtree [] :=
    knowing_readsBack (fun _ member => absurd member List.not_mem_nil)
      (fun _ member => absurd member List.not_mem_nil)
  obtain ⟨sent, inverts⟩ := wire_sends groundedBytes (report_message groundedEtree grounded [])
  refine ⟨parsed, sent, back, ?_⟩
  intro returned
  have carriable := (agrees_sent_iff (normalized_xml parsed) (whole_report grounded []) sent inverts
    back).mp returned
  have zero : plainRuntime.float "0" = some 0 := by decide +kernel
  have altitude : (reportCto grounded []).altitude = some { valueM := 0 } := by
    change altitudeOf plainRuntime (reportHeader grounded).point = _
    have hae : (reportHeader grounded).point.get "hae" = some "0" := rfl
    have le : (reportHeader grounded).point.get "le" = none := rfl
    rw [altitudeOf, hae, le]
    dsimp only
    rw [zero]
  rcases (carriable.altitude _ altitude).2 with value | accuracy
  · exact value rfl
  · exact accuracy rfl

end TacticalGateway.Normalizers
