import TacticalGateway.Normalizers.PbRoundTrip
import TacticalGateway.Normalizers.XmlHops

/-! Messages on their way through several gateways: what the second one writes, all later ones
write again, and only the embedded text can differ from what the first one wrote. -/
namespace TacticalGateway.Normalizers
open ElementTree Grouping
open Json (Value)

section Scalars

theorem toMillis_fromMillis {ms : UInt64} {t : Datetime} (read : fromMillis ms = .ok t) :
    toMillis t = .ok ms := by
  have found : atOffset (ms.toNat * 1000) 0 = some t := raiseNone_eq_ok read
  have same := (atOffset_eq_some found).1
  have whole : t.instant.tdiv 1000 = (ms.toNat : Int) := by
    rw [same]
    exact Int.mul_tdiv_cancel _ (by omega)
  have converted : atOffset t.instant 0 = some t := by rw [same, found]
  unfold toMillis
  rw [converted]
  dsimp only
  rw [whole, if_pos (by omega), Int.toNat_natCast, UInt64.ofNat_toNat]

def known (q : Rat) : Rat := if q < 9999999 then q else 0

theorem known_known (q : Rat) : known (known q) = known q := by
  unfold known
  by_cases bound : q < 9999999
  · rw [if_pos bound, if_pos bound]
  · rw [if_neg bound, if_pos (by norm_num)]

theorem getD_known (q : Rat) : (if q ≠ 0 ∧ q < 9999999 then some q else none).getD 0 = known q := by
  unfold known
  by_cases zero : q = 0
  · simp [zero]
  · by_cases bound : q < 9999999
    · simp [zero, bound]
    · simp [bound]

def moving (track : Proto.Track) : Option Proto.Track :=
  if track.course = 0 ∧ track.speed = 0 then none else some track

theorem moving_moving (track : Option Proto.Track) :
    (track.bind moving).bind moving = track.bind moving := by
  cases track with
  | none => rfl
  | some track =>
    by_cases still : track.course = 0 ∧ track.speed = 0
    · simp [moving, still]
    · simp [moving, still]

theorem pbTrack_read (track : Proto.Track) :
    pbTrack { courseDeg := nonzero track.course, speedMps := nonzero track.speed } =
      moving track := by
  obtain ⟨speed, course⟩ := track
  by_cases no_course : course = 0
  · by_cases no_speed : speed = 0
    · simp [pbTrack, moving, nonzero, no_course, no_speed]
    · simp [pbTrack, moving, nonzero, no_course, no_speed]
  · by_cases no_speed : speed = 0
    · simp [pbTrack, moving, nonzero, no_course, no_speed]
    · simp [pbTrack, moving, nonzero, no_course, no_speed]

end Scalars
section Readable

theorem allReadable_iff (es : List Element) : AllReadable es ↔ ∀ e ∈ es, Readable e := by
  induction es with
  | nil => simp [AllReadable]
  | cons e es ih => rw [AllReadable, ih, List.forall_mem_cons]

theorem readable_iff (e : Element) : Readable e ↔
    (∀ i ∈ e.attrib.items, i.2.toList.all xmlChar) ∧ (∀ s ∈ e.text, s.toList.all xmlChar) ∧
      ∀ c ∈ e.children, Readable c := by
  obtain ⟨tag, attrib, text, children⟩ := e
  rw [Readable, allReadable_iff]
  rfl

theorem newlines_allowed {cs : List Char} (allowed : cs.all xmlChar = true) :
    (newlines cs).all xmlChar = true := by
  induction cs using newlines.induct with
  | case1 cs ih =>
    simp only [List.all_cons, Bool.and_eq_true] at allowed
    rw [newlines, List.all_cons, ih allowed.2.2]
    decide
  | case2 cs other ih =>
    simp only [List.all_cons, Bool.and_eq_true] at allowed
    rw [newlines, List.all_cons, ih allowed.2]
    · decide
    · exact other
  | case3 c cs other_end other ih =>
    simp only [List.all_cons, Bool.and_eq_true] at allowed
    rw [newlines, List.all_cons, allowed.1, ih allowed.2]
    · rfl
    · exact other_end
    · exact other
  | case4 => rfl

theorem strip_allowed {s : String} (allowed : s.toList.all xmlChar = true) :
    (strip s).toList.all xmlChar = true := by
  rw [strip, String.toList_ofList, List.all_eq_true]
  intro c member
  rw [stripChars, stripLeft, List.mem_reverse] at member
  have inner := (List.dropWhile_sublist _).mem member
  rw [List.mem_reverse, stripLeft] at inner
  exact List.all_eq_true.mp allowed c ((List.dropWhile_sublist _).mem inner)

theorem Readable.reread {e : Element} (readable : Readable e) : Readable (reread e) := by
  obtain ⟨attrib, text, below⟩ := (readable_iff e).mp readable
  rw [readable_iff, attrib_reread, text_reread, children_reread]
  refine ⟨attrib, ?_, ?_⟩
  · intro s own
    cases there : e.text with
    | none =>
      rw [there] at own
      cases own
    | some raw =>
      rw [there, rereadText] at own
      split at own
      · cases own
      · rw [← Option.mem_some_iff.mp own, String.toList_ofList]
        exact newlines_allowed (text raw there)
  · intro c member
    obtain ⟨d, among, rfl⟩ := List.mem_map.mp member
    have smaller : sizeOf d < sizeOf e := sizeOf_child among
    exact (below d among).reread
termination_by sizeOf e

theorem Settled.readable_again {x : Element} (settled : Settled x) (readable : Readable x) :
    Readable (again x) := by
  obtain ⟨attrib, text, below⟩ := (readable_iff x).mp readable
  rw [readable_iff, attrib_again settled.plain, children_again_grouped]
  refine ⟨attrib, ?_, ?_⟩
  · intro s own
    have stored : Normalizers.storedText x = some s := (textOf_nodeDict x).symm.trans own
    rw [settled.storedText] at stored
    obtain ⟨raw, there, shown⟩ := Option.bind_eq_some_iff.mp stored
    split at shown
    · rw [← Option.some.inj shown]
      exact strip_allowed (text raw there)
    · cases shown
  · intro c member
    obtain ⟨d, among, rfl⟩ := List.mem_map.mp member
    have inside : d ∈ x.children := mem_grouped.mp among
    have smaller : sizeOf d < sizeOf x := sizeOf_child inside
    exact (settled.child inside).readable_again (below d inside)
termination_by sizeOf x

end Readable
section Detail

variable {et : Etree} {d : Option Proto.Detail}

/-- A detail with nothing in it is not written. -/
def packed (d : Proto.Detail) : Option Proto.Detail := if d = {} then none else some d

theorem packed_bind {A : Type} (f : Proto.Detail → Option A) (empty : f {} = none)
    (d : Proto.Detail) : (packed d).bind f = f d := by
  unfold packed
  split
  · rename_i nothing
    rw [nothing]
    exact empty.symm
  · rfl

theorem getD_packed (d : Proto.Detail) : (packed d).getD {} = d := by
  unfold packed
  split
  · rename_i nothing
    exact nothing.symm
  · rfl

def contactOf (d : Option Proto.Detail) : Option Proto.Contact :=
  (d.bind pbCallsign).map (fun callsign => { callsign })

def trackOf (d : Option Proto.Detail) : Option Proto.Track :=
  (d.bind Proto.Detail.track).bind moving

def elementsOf (et : Etree) (d : Option Proto.Detail) : List Element :=
  match d.bind (pbDetail et) with
  | some stored => emitItems (stored.items.filter (fun i => i.1 ∉ ["contact", "track"]))
  | none => []

/-- The detail that is sent for one that was read. -/
def resentDetail (et : Etree) (d : Option Proto.Detail) : Option Proto.Detail :=
  packed { xmlDetail := innerXml et (elementsOf et d), contact := contactOf d, track := trackOf d }

theorem truthy_pbCallsign (d : Option Proto.Detail) :
    (d.bind pbCallsign).bind (fun s => truthyStr (some s)) = d.bind pbCallsign := by
  cases d with
  | none => rfl
  | some d =>
    rw [Option.bind_some, pbCallsign]
    cases d.contact with
    | none => rfl
    | some contact => exact truthyStr_truthyStr (some contact.callsign)

theorem contactOf_resent : contactOf (resentDetail et d) = contactOf d := by
  have shown : (resentDetail et d).bind pbCallsign = d.bind pbCallsign := by
    rw [resentDetail, packed_bind pbCallsign rfl, pbCallsign, contactOf, Option.bind_map]
    exact truthy_pbCallsign d
  rw [contactOf, shown, contactOf]

theorem trackOf_resent : trackOf (resentDetail et d) = trackOf d := by
  rw [trackOf, resentDetail, packed_bind Proto.Detail.track rfl]
  exact moving_moving _

theorem elementsOf_grouped (et : Etree) (d : Option Proto.Detail) :
    ∃ es : List Element, (∀ e ∈ es, e.tag ∉ ["contact", "track"]) ∧
      elementsOf et d = (grouped Element.tag es).map again := by
  unfold elementsOf
  cases d with
  | none => exact ⟨[], by simp, rfl⟩
  | some d =>
    obtain ⟨detail, stored⟩ := pbDetail_stored et d
    rw [Option.bind_some, stored]
    cases detail with
    | none => exact ⟨[], by simp, rfl⟩
    | some detail =>
      refine ⟨detail.children.filter (fun e => e.tag ∉ ["contact", "track"]), ?_, ?_⟩
      · intro e member
        simpa using (List.mem_filter.mp member).2
      · exact emit_without detail ["contact", "track"]

theorem elementsOf_text (inner : String) (contact : Option Proto.Contact)
    (track : Option Proto.Track) :
    elementsOf et (packed { xmlDetail := inner, contact, track }) =
      match xmlDetailOf et inner with
      | some stored => emitItems (stored.items.filter (fun i => i.1 ∉ ["contact", "track"]))
      | none => [] := by
  rw [elementsOf, packed_bind (pbDetail et) rfl]
  rfl

theorem elementsOf_readBack {es : List Element} (back : ReadsBack et es)
    (readable : ∀ e ∈ es, Readable e) (contact : Option Proto.Contact)
    (track : Option Proto.Track) :
    elementsOf et (packed { xmlDetail := innerXml et es, contact, track }) =
      (grouped Element.tag ((es.map reread).filter (fun e => e.tag ∉ ["contact", "track"]))).map
        again := by
  rw [elementsOf_text]
  by_cases nothing : es = []
  · rw [nothing]
    rfl
  · rw [xmlDetailOf, if_neg (back.written nothing), back.reads readable]
    dsimp only
    rw [emit_without, Element.children_mk]

/-- Elements that can be read come back but for their text, and if one cannot, none does. -/
theorem elementsOf_resent (back : ReadsBack et (elementsOf et d)) :
    ((∀ e ∈ elementsOf et d, Readable e) →
      elementsOf et (resentDetail et d) = (elementsOf et d).map (fun e => again (reread e))) ∧
    ((∃ e ∈ elementsOf et d, ¬ Readable e) → elementsOf et (resentDetail et d) = []) := by
  constructor
  · intro readable
    rw [resentDetail, elementsOf_readBack back readable]
    obtain ⟨es, apart, same⟩ := elementsOf_grouped et d
    have tags : ∀ e ∈ (elementsOf et d).map reread, e.tag ∉ ["contact", "track"] := by
      rw [same]
      intro e member
      obtain ⟨f, written, rfl⟩ := List.mem_map.mp member
      obtain ⟨x, among, rfl⟩ := List.mem_map.mp written
      rw [tag_reread, tag_again]
      exact apart x (mem_grouped.mp among)
    rw [List.filter_eq_self.mpr (fun e member => decide_eq_true (tags e member)), same,
      List.map_map, List.map_map]
    -- the elements stood grouped before they were written
    change (grouped Element.tag ((grouped Element.tag es).map returned)).map again = _
    rw [grouped_map tag_returned, grouped_grouped, List.map_map]
    rfl
  · rintro ⟨e, member, unreadable⟩
    obtain ⟨message, rejected⟩ := back.rejects ⟨e, member, unreadable⟩
    rw [resentDetail, elementsOf_text, xmlDetailOf,
      if_neg (back.written (List.ne_nil_of_mem member)), rejected]

theorem elementsOf_twice (first : ReadsBack et (elementsOf et d))
    (second : ReadsBack et (elementsOf et (resentDetail et d))) :
    elementsOf et (resentDetail et (resentDetail et d)) = elementsOf et (resentDetail et d) := by
  by_cases readable : ∀ e ∈ elementsOf et d, Readable e
  · have sent := (elementsOf_resent first).1 readable
    obtain ⟨es, -, same⟩ := elementsOf_grouped et d
    have kept : ∀ e ∈ elementsOf et (resentDetail et d), Readable e ∧ again (reread e) = e := by
      rw [sent]
      intro e member
      obtain ⟨f, written, rfl⟩ := List.mem_map.mp member
      have legible := readable f written
      rw [same] at written
      obtain ⟨x, -, rfl⟩ := List.mem_map.mp written
      exact ⟨(settled_returned x).readable_again legible.reread,
        (settled_returned x).again_returned⟩
    rw [(elementsOf_resent second).1 (fun e member => (kept e member).1)]
    exact (List.map_congr_left fun e member => (kept e member).2).trans (List.map_id _)
  · have unreadable : ∃ e ∈ elementsOf et d, ¬ Readable e := by
      simpa using readable
    have gone := (elementsOf_resent first).2 unreadable
    rw [(elementsOf_resent second).1 (by simp [gone]), gone, List.map_nil]

theorem resentDetail_twice (first : ReadsBack et (elementsOf et d))
    (second : ReadsBack et (elementsOf et (resentDetail et d))) :
    resentDetail et (resentDetail et (resentDetail et d)) =
      resentDetail et (resentDetail et d) := by
  conv_lhs => rw [resentDetail]
  rw [elementsOf_twice first second, contactOf_resent, trackOf_resent]
  rfl

end Detail
section Hops

variable {py : Runtime} {pb : Protobuf} {et : Etree} {ev : Proto.CotEvent} {intake : Intake}
  {t s u : Datetime}

/-- The event that is sent for one that was read. -/
def resent (et : Etree) (ev : Proto.CotEvent) (intake : Intake) : Proto.CotEvent :=
  { ev with
    type := (truthyStr (some ev.type)).getD "a-u-G"
    uid := (truthyStr (some ev.uid)).getD (uuidText intake.uid)
    ce := known ev.ce
    le := known ev.le
    detail := resentDetail et ev.detail }

theorem restored_built : restored (buildPbCto et ev intake t s u) = elementsOf et ev.detail := by
  have stored : (buildPbCto et ev intake t s u).attributes.get? "cot_detail" =
      (ev.detail.bind (pbDetail et)).map (fun detail => .obj detail.items) :=
    (get?_pbAttributes et ev).1
  rw [restored, stored, elementsOf]
  cases ev.detail.bind (pbDetail et) <;> rfl

theorem egressDetail_built :
    egressDetail et (buildPbCto et ev intake t s u) = resentDetail et ev.detail := by
  have callsign : truthyStr (ev.detail.bind pbCallsign) = ev.detail.bind pbCallsign := by
    rw [truthyStr_eq_iff]
    intro empty
    have shown := truthy_pbCallsign ev.detail
    rw [empty] at shown
    cases shown
  have track : (ev.detail.bind pbKinematics).bind pbTrack = trackOf ev.detail := by
    cases ev.detail with
    | none => rfl
    | some d =>
      rw [trackOf, Option.bind_some, Option.bind_some, pbKinematics]
      cases d.track with
      | none => rfl
      | some track => exact pbTrack_read track
  have contact : (truthyStr (buildPbCto et ev intake t s u).callsign).map
      (fun callsign => ({ callsign } : Proto.Contact)) = contactOf ev.detail := by
    rw [contactOf, ← callsign]
    rfl
  have tracked : (buildPbCto et ev intake t s u).kinematics.bind pbTrack = trackOf ev.detail :=
    track
  rw [egressDetail, contact, tracked, restored_built, resentDetail, packed]
  simp only [Proto.Detail.mk.injEq]
  congr 1
  simp only [eq_iff_iff]
  tauto

theorem pbEvent_built :
    pbEvent et (buildPbCto et ev intake t s u) ev.sendTime ev.startTime ev.staleTime ev.lon ev.lat =
      resent et ev intake := by
  obtain ⟨-, how, horizontal⟩ := get?_pbAttributes et ev
  have hae : ((pbAltitude ev).map Altitude.valueM).getD 0 = ev.hae := by
    unfold pbAltitude
    split
    · rfl
    · rename_i level
      simp only [not_or, ne_eq, not_not] at level
      exact level.1.symm
  have le : ((pbAltitude ev).bind Altitude.accuracyM).getD 0 = known ev.le := by
    unfold pbAltitude
    split
    · exact getD_known ev.le
    · rename_i level
      simp only [not_or, ne_eq, not_not] at level
      rw [level.2]
      rfl
  have ce : (((pbAttributes et ev).get? "cot_horizontal_accuracy_m").bind number).getD 0 =
      known ev.ce := by
    rw [horizontal, ← getD_known]
    split <;> rfl
  unfold pbEvent resent
  rw [Proto.CotEvent.mk.injEq]
  refine ⟨rfl, rfl, rfl, rfl, rfl, ?_, rfl, rfl, hae, ce, le, egressDetail_built⟩
  have stored : (buildPbCto et ev intake t s u).attributes.get? "cot_how" =
      (truthyStr (some ev.how)).map .str := how
  rw [stored, truthyStr_some]
  by_cases empty : ev.how = ""
  · simp [empty]
  · simp [empty]

def Dated (ev : Proto.CotEvent) : Prop :=
  ∀ ms ∈ [ev.sendTime, ev.startTime, ev.staleTime], ∃ t, fromMillis ms = .ok t

theorem dated_resent (dated : Dated ev) : Dated (resent et ev intake) := dated

/-- What a gateway reads of a message, and what it sends on. -/
structure Hop (py : Runtime) (pb : Protobuf) (et : Etree) (payload : List UInt8)
    (ev : Proto.CotEvent) (intake : Intake) (cto : CTO) : Prop where
  read : cotPbToCto pb et payload intake = .ok cto
  sent : ctoToTakMessage py et cto =
    .ok ({ cotEvent := some (resent et ev intake) }, lossyFields cto)
  restored : restored cto = elementsOf et ev.detail

theorem hop_parsed (py : Runtime) (et : Etree) {payload : List UInt8}
    (parsed : pb.parseFromString payload = some { cotEvent := some ev }) (dated : Dated ev)
    (intake : Intake) : ∃ cto, Hop py pb et payload ev intake cto := by
  obtain ⟨t, time⟩ := dated ev.sendTime (by simp)
  obtain ⟨s, start⟩ := dated ev.startTime (by simp)
  obtain ⟨u, stale⟩ := dated ev.staleTime (by simp)
  refine ⟨buildPbCto et ev intake t s u, cotPbToCto_parsed et intake parsed time start stale, ?_,
    restored_built⟩
  have sendTime : toMillis (buildPbCto et ev intake t s u).eventTime = .ok ev.sendTime :=
    toMillis_fromMillis time
  have startTime : toMillis ((buildPbCto et ev intake t s u).validFrom.getD
      (buildPbCto et ev intake t s u).eventTime) = .ok ev.startTime := toMillis_fromMillis start
  have staleTime : toMillis ((buildPbCto et ev intake t s u).validTo.getD
      (buildPbCto et ev intake t s u).eventTime) = .ok ev.staleTime := toMillis_fromMillis stale
  have lon : raiseNone .typeError (buildPbCto et ev intake t s u).geometry.coordinates[0]? >>=
      coordinate py = .ok ev.lon := rfl
  have lat : raiseNone .typeError (buildPbCto et ev intake t s u).geometry.coordinates[1]? >>=
      coordinate py = .ok ev.lat := rfl
  rw [ctoToTakMessage, sendTime, startTime, staleTime, lon, lat]
  simp only [ok_bind, pbEvent_built]
  rfl

/-- One gateway: what a route of it writes, in protobuf, of what its protobuf listener reads. -/
def forwardPb (py : Runtime) (pb : Protobuf) (et : Etree) (payload : List UInt8)
    (intake : Intake) : Except Exn (List UInt8) := do
  let cto ← cotPbToCto pb et payload intake
  let (out, _) ← ctoToCotPb py pb et cto
  return out

theorem Hop.forwards {payload : List UInt8} {cto : CTO} (hop : Hop py pb et payload ev intake cto) :
    forwardPb py pb et payload intake =
      .ok (pb.serializeToString { cotEvent := some (resent et ev intake) }) := by
  have written : ctoToCotPb py pb et cto =
      .ok (pb.serializeToString { cotEvent := some (resent et ev intake) }, lossyFields cto) :=
    ctoToCotPb_eq_ok_iff.mpr ⟨_, hop.sent, rfl⟩
  rw [forwardPb, hop.read, ok_bind, written]
  rfl

theorem forwardPb_eq_ok {payload out : List UInt8}
    (sent : forwardPb py pb et payload intake = .ok out) :
    ∃ ev, pb.parseFromString payload = some { cotEvent := some ev } ∧ Dated ev := by
  obtain ⟨cto, read, -⟩ := bind_ok sent
  obtain ⟨msg, parsed, read⟩ := bind_ok read
  obtain ⟨ev, there, read⟩ := bind_ok read
  obtain ⟨t, time, read⟩ := bind_ok read
  obtain ⟨s, start, read⟩ := bind_ok read
  obtain ⟨u, stale, -⟩ := bind_ok read
  have whole : msg = { cotEvent := some ev } := by
    obtain ⟨cotEvent⟩ := msg
    cases cotEvent with
    | none => cases there
    | some own => rw [Except.ok.inj there]
  refine ⟨ev, ?_, ?_⟩
  · cases found : pb.parseFromString payload with
    | none =>
      rw [found] at parsed
      cases parsed
    | some other =>
      rw [found] at parsed
      rw [Except.ok.inj parsed, whole]
  · simp only [Dated, List.forall_mem_cons]
    exact ⟨⟨t, time⟩, ⟨s, start⟩, ⟨u, stale⟩, by simp⟩

theorem truthyStr_getD {s : String} {default : String} (full : default ≠ "") :
    truthyStr (some ((truthyStr (some s)).getD default)) =
      some ((truthyStr (some s)).getD default) := by
  rw [truthyStr_some]
  cases shown : truthyStr (some s) with
  | none => exact if_neg full
  | some value => exact if_neg (truthyStr_ne_empty shown)

theorem resent_twice (et : Etree) (ev : Proto.CotEvent) (first second : Intake) :
    resent et (resent et ev first) second =
      { resent et ev first with detail := resentDetail et (resentDetail et ev.detail) } := by
  have type : truthyStr (some ((truthyStr (some ev.type)).getD "a-u-G")) =
      some ((truthyStr (some ev.type)).getD "a-u-G") := truthyStr_getD (by decide)
  have uid : truthyStr (some ((truthyStr (some ev.uid)).getD (uuidText first.uid))) =
      some ((truthyStr (some ev.uid)).getD (uuidText first.uid)) :=
    truthyStr_getD (uuidText_ne_empty first.uid)
  simp only [resent, type, uid, known_known, Option.getD_some]

/-- An event without its embedded text. -/
def textless (ev : Proto.CotEvent) : Proto.CotEvent :=
  { ev with detail := packed { ev.detail.getD {} with xmlDetail := "" } }

theorem textless_resent (first second : Intake) :
    textless (resent et (resent et ev first) second) = textless (resent et ev first) := by
  have same : ({ (resentDetail et (resentDetail et ev.detail)).getD {} with xmlDetail := "" } :
      Proto.Detail) = { (resentDetail et ev.detail).getD {} with xmlDetail := "" } := by
    rw [resentDetail, getD_packed, contactOf_resent, trackOf_resent]
    rw [resentDetail, getD_packed]
  rw [resent_twice, textless, textless]
  dsimp only
  rw [same]
  rfl

/-- A message that one gateway has forwarded goes through any number of others, and from the second
one on it is the same bytes, which differ from the first ones in the embedded text at most. The
protobuf runtime is assumed to read what it writes of what it reads, and `Etree` to read back the
embedded elements that XML can hold; the times are those whose milliseconds are kept, as
`fromMillis` says. -/
theorem forwarded_messages_settle (py : Runtime) (pb : Protobuf) (et : Etree)
    (inverts : ∀ payload intake cto msg lossy, cotPbToCto pb et payload intake = .ok cto →
      ctoToTakMessage py et cto = .ok (msg, lossy) →
        pb.parseFromString (pb.serializeToString msg) = some msg)
    (back : ∀ payload intake cto, cotPbToCto pb et payload intake = .ok cto →
      ReadsBack et (restored cto))
    (payload out : List UInt8) (first : Intake)
    (sent : forwardPb py pb et payload first = .ok out) :
    ∃ settled,
      (∀ intakes, intakes ≠ [] → intakes.foldlM (forwardPb py pb et) out = .ok settled) ∧
        ∃ ev ev', pb.parseFromString out = some { cotEvent := some ev } ∧
          pb.parseFromString settled = some { cotEvent := some ev' } ∧
            textless ev' = textless ev := by
  obtain ⟨ev, parsed, dated⟩ := forwardPb_eq_ok sent
  obtain ⟨cto, hop⟩ := hop_parsed py et parsed dated first
  rw [hop.forwards] at sent
  obtain rfl := Except.ok.inj sent
  have read := inverts _ _ _ _ _ hop.read hop.sent
  obtain ⟨cto', hop'⟩ := hop_parsed py et read (dated_resent dated) first
  have read' := inverts _ _ _ _ _ hop'.read hop'.sent
  have once : ReadsBack et (elementsOf et ev.detail) := hop.restored ▸ back _ _ _ hop.read
  have twice : ReadsBack et (elementsOf et (resentDetail et ev.detail)) :=
    hop'.restored ▸ back _ _ _ hop'.read
  refine ⟨pb.serializeToString { cotEvent := some (resent et (resent et ev first) first) },
    ?_, _, _, read, read', textless_resent first first⟩
  refine fun intakes => foldlM_settled ?_ ?_
  · intro intake
    obtain ⟨_, next⟩ := hop_parsed py et read (dated_resent dated) intake
    rw [next.forwards, resent_twice, resent_twice]
  · intro intake
    obtain ⟨_, next⟩ := hop_parsed py et read' (dated_resent dated) intake
    have still : resent et (resent et (resent et ev first) first) intake =
        resent et (resent et ev first) first := by
      have same := resentDetail_twice once twice
      rw [resent_twice et (resent et ev first), resent_twice et ev]
      exact congrArg (fun d => { resent et ev first with detail := d }) same
    rw [next.forwards, still]

end Hops

section Known

variable {et : Etree} {ev : Proto.CotEvent} {bytes payload : List UInt8}
  {intake : Intake} {cto : CTO}

theorem resent_eq (type : ev.type ≠ "") (uid : ev.uid ≠ "") (ce : known ev.ce = ev.ce)
    (le : known ev.le = ev.le) (detail : resentDetail et ev.detail = ev.detail) :
    resent et ev intake = ev := by
  rw [resent, truthyStr_some, if_neg type, truthyStr_some, if_neg uid, ce, le, detail]
  rfl

theorem wire_serialized (msg : Proto.TakMessage) (bytes : List UInt8) :
    (wire msg bytes).serializeToString msg = bytes :=
  if_pos rfl

theorem hop_wire (py : Runtime) (dated : Dated ev)
    (read : cotPbToCto (wire { cotEvent := some ev } bytes) et payload intake = .ok cto) :
    Hop py (wire { cotEvent := some ev } bytes) et payload ev intake cto := by
  by_cases here : payload = bytes
  · have parsed : (wire { cotEvent := some ev } bytes).parseFromString payload =
        some { cotEvent := some ev } := if_pos here
    obtain ⟨other, hop⟩ := hop_parsed py et parsed dated intake
    have same : cto = other := Except.ok.inj (read.symm.trans hop.read)
    rwa [same]
  · have unknown : (wire { cotEvent := some ev } bytes).parseFromString payload = none :=
      if_neg here
    rw [cotPbToCto, unknown] at read
    cases read

def labelledSent : Proto.CotEvent :=
  pbEvent labelledEtree (reportCto unsurveyed labelled) 1704067200000 1704067200000 1704067200000
    (45 / 4) (97 / 2)

theorem dated_labelled : Dated labelledSent := by
  have time : ∃ t, fromMillis 1704067200000 = .ok t := ⟨newYear, by decide +kernel⟩
  intro ms listed
  have same : ms = 1704067200000 := by simpa [labelledSent, pbEvent] using listed
  rw [same]
  exact time

theorem readable_labelled : ∀ e ∈ [again group], Readable e := by
  intro e member
  rw [List.mem_singleton.mp member]
  exact readable_group

theorem readsBack_labelled : ReadsBack labelledEtree [again group] := by
  refine knowing_readsBack ?_ readable_labelled
  intro e member
  rw [List.mem_singleton.mp member]
  decide +kernel

theorem detail_labelled : labelledSent.detail =
    packed { xmlDetail := innerXml labelledEtree [again group], contact := some ⟨"BRAVO"⟩ } := by
  have elements : restored (reportCto unsurveyed labelled) = [again group] := rfl
  have callsign : truthyStr (reportCto unsurveyed labelled).callsign = some "BRAVO" := by decide
  have still : (reportCto unsurveyed labelled).kinematics = none := rfl
  change egressDetail labelledEtree (reportCto unsurveyed labelled) = _
  rw [egressDetail, elements, callsign, still]
  rfl

theorem elements_labelled : elementsOf labelledEtree labelledSent.detail = [again group] := by
  have settled : Settled group := ⟨by decide, rfl⟩
  have back : again (reread (again group)) = again group := settled.again_returned
  have kept : ([again group].map reread).filter (fun e => e.tag ∉ ["contact", "track"]) =
      [reread (again group)] := rfl
  rw [detail_labelled, elementsOf_readBack readsBack_labelled readable_labelled, kept,
    grouped_cons, List.filter_nil, List.filter_nil, grouped_nil]
  exact congrArg List.singleton back

theorem resent_labelled (intake : Intake) :
    resent labelledEtree labelledSent intake = labelledSent := by
  refine resent_eq (by decide) (by decide) (by decide +kernel) (by decide +kernel) ?_
  rw [resentDetail, elements_labelled, contactOf, trackOf, detail_labelled,
    packed_bind pbCallsign rfl, packed_bind Proto.Detail.track rfl]
  rfl

/-- The labelled report is forwarded as it is. -/
theorem forwarded_messages_settle_labelled :
    ∃ settled,
      (∀ intakes, intakes ≠ [] → intakes.foldlM
        (forwardPb plainRuntime (wire { cotEvent := some labelledSent } labelledBytes)
          labelledEtree) labelledBytes = .ok settled) ∧
        ∃ ev ev', (wire { cotEvent := some labelledSent } labelledBytes).parseFromString
            labelledBytes = some { cotEvent := some ev } ∧
          (wire { cotEvent := some labelledSent } labelledBytes).parseFromString settled =
              some { cotEvent := some ev' } ∧
            textless ev' = textless ev := by
  refine forwarded_messages_settle plainRuntime _ labelledEtree ?_ ?_ labelledBytes _
    reportIntake ?_
  · intro payload intake cto msg lossy read made
    have hop := hop_wire plainRuntime dated_labelled read
    rw [hop.sent, resent_labelled] at made
    rw [← (Prod.mk.inj (Except.ok.inj made)).1]
    exact wire_inverts _ _
  · intro payload intake cto read
    have hop := hop_wire plainRuntime dated_labelled read
    rw [hop.restored, elements_labelled]
    exact readsBack_labelled
  · have parsed := wire_inverts { cotEvent := some labelledSent } labelledBytes
    rw [wire_serialized] at parsed
    obtain ⟨cto, hop⟩ := hop_parsed plainRuntime labelledEtree parsed dated_labelled reportIntake
    rw [hop.forwards, resent_labelled]
    rw [wire_serialized]

end Known

end TacticalGateway.Normalizers
