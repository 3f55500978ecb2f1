import TacticalGateway.Lib.Markup
import TacticalGateway.Lib.Table
import TacticalGateway.Listeners.Connections
import TacticalGateway.Listeners.XmlDelimiting
import TacticalGateway.Routes.Egress
import TacticalGateway.Routes.Links

/-! Two gateways on one link, in XML: which of the documents that a route writes the XML listener
tells apart, and what the next gateway makes of them. -/
namespace TacticalGateway.Routes
open ElementTree Normalizers Listeners Text Execution

mutual

theorem qnames_eq_names : ∀ e : Element, qnames e = names e
  | .mk tag attrib text children => by rw [qnames, names, qnamesAll_eq_namesAll children]

theorem qnamesAll_eq_namesAll : ∀ es : List Element, qnamesAll es = namesAll es
  | [] => rfl
  | e :: es => by rw [qnamesAll, namesAll, qnames_eq_names e, qnamesAll_eq_namesAll es]

end

theorem ownNames_plain : ∀ name ∈ ownNames, PlainName name := by
  simp [ownNames, PlainName, NoMarkup, qualified, markup]

theorem closeTag_eq : closeTag = utf8 (endTag "event") := by
  simp [closeTag, utf8, endTag, String.utf8EncodeChar]

section
variable {py : Runtime} {cto : CTO} {e : Element} {lossy : List String}

/-- The document of an object ends with the close tag, and has it nowhere else where no element of
the detail is an event with an end tag. -/
theorem closedOnce_written_iff (w : Written py cto e lossy)
    (plain : ∀ name, BringsName py cto .cotXml name → PlainName name) :
    ClosedOnce (encode (ElementTree.tostring e)) ↔ "event" ∉ closings (detailElement py cto) := by
  have names_plain : ∀ name ∈ qnames e, PlainName name := by
    intro name there
    have listed : name ∈ namesAll [e] := by
      rw [namesAll, namesAll, List.append_nil, ← qnames_eq_names]
      exact there
    rw [w.event_eq] at listed
    rcases mem_names_event listed with own | brings
    · exact ownNames_plain name own
    · exact plain name brings
  obtain ⟨attrib, event⟩ : ∃ attrib,
      e = .mk "event" attrib none [pointElement py cto w.lon w.lat, detailElement py cto] :=
    ⟨_, w.event_eq⟩
  rw [event] at names_plain ⊢
  obtain ⟨ends, once⟩ := end_tag_once_iff names_plain (by decide) (by decide) (by simp)
  have inside : closingsAll [pointElement py cto w.lon w.lat, detailElement py cto] =
      closings (detailElement py cto) := by
    simp [closingsAll, pointElement, closings]
  rw [ClosedOnce, closeTag_eq, ← inside, ← once]
  exact ⟨And.right, fun last => ⟨ends, last⟩⟩

end

/-- A document that the route writes for the object, and that the parser reads as it was written. -/
structure Document (t : Translators) (cto : CTO) (doc : Bytes) : Prop where
  made : ∃ lossy, egress t cto .cotXml = .ok (doc, lossy)
  reads : ∀ e lossy, ctoToEvent t.py cto = .ok (e, lossy) →
    t.et.fromstring doc = .ok (reread e)
  plain : ∀ name, BringsName t.py cto .cotXml name → PlainName name

section
variable {t : Translators} {cto : CTO} {doc : Bytes}

theorem Document.written (writes : t.et.tostring = ElementTree.tostring)
    (document : Document t cto doc) : ∃ e lossy, Nonempty (Written t.py cto e lossy) ∧
      doc = encode (ElementTree.tostring e) ∧ t.et.fromstring doc = .ok (reread e) := by
  obtain ⟨lossy, made⟩ := document.made
  obtain ⟨⟨event, lossy'⟩, event_ok, rest⟩ := bind_ok made
  obtain ⟨-, -, pair⟩ := checked_ok_iff.mp rest
  rw [writes] at pair
  exact ⟨event, lossy', ctoToEvent_eq_ok event_ok, (Prod.mk.inj pair).1.symm,
    document.reads event lossy' event_ok⟩

theorem Document.closedOnce_iff (writes : t.et.tostring = ElementTree.tostring)
    (document : Document t cto doc) :
    ClosedOnce doc ↔ "event" ∉ closings (detailElement t.py cto) := by
  obtain ⟨e, lossy, ⟨w⟩, rfl, -⟩ := document.written writes
  exact closedOnce_written_iff w document.plain

theorem Document.accepted (writes : t.et.tostring = ElementTree.tostring)
    (document : Document t cto doc) : accepts (rootTag t.et) doc = true := by
  obtain ⟨e, lossy, ⟨w⟩, -, reads⟩ := document.written writes
  rw [accepts, checkEvent, rootTag, reads]
  simp only [Except.map, tag_reread_event w]
  rfl

theorem Document.starts (writes : t.et.tostring = ElementTree.tostring)
    (document : Document t cto doc) : ∀ c, doc.head? = some c → c ∉ gapBytes := by
  obtain ⟨e, lossy, -, rfl, -⟩ := document.written writes
  obtain ⟨rest, front⟩ := head_tostring e
  rw [front]
  intro c first
  cases Option.some.inj first
  decide

end

/-- Consecutive documents of a route are told apart, however they arrive, exactly where no element
of their details is an event that is written with an end tag. -/
theorem documents_delimited_iff (t : Translators) (writes : t.et.tostring = ElementTree.tostring)
    (objects : List CTO) (docs : List Bytes)
    (documents : List.Forall₂ (Document t) objects docs) :
    Delimits (rootTag t.et) docs ↔
      ∀ cto ∈ objects, "event" ∉ closings (detailElement t.py cto) := by
  have accepted : ∀ doc ∈ docs, accepts (rootTag t.et) doc = true := by
    intro doc member
    obtain ⟨cto, -, document⟩ := Table.forall₂_right documents member
    exact document.accepted writes
  have adjacent : Adjacent docs := by
    intro doc member
    obtain ⟨cto, -, document⟩ := Table.forall₂_right documents (List.mem_of_mem_tail member)
    exact document.starts writes
  constructor
  · intro delimits cto member
    have returns : Returns (rootTag t.et) docs := by
      intro chunks delivered
      rw [captured_all, delimits chunks delivered]
    obtain ⟨doc, there, document⟩ := Table.forall₂_left documents member
    exact (document.closedOnce_iff writes).mp (returns.closed doc there)
  · intro inside
    refine delimits_of_closed accepted ?_ adjacent
    intro doc member
    obtain ⟨cto, there, document⟩ := Table.forall₂_right documents member
    exact (document.closedOnce_iff writes).mpr (inside cto there)

/-- A parser that knows the event that is generated from the report, and the writer. -/
def relayTranslators : Translators where
  py := plainRuntime
  pb := reportTranslators.pb
  et :=
    { fromstring := fun xml =>
        if xml = encode (ElementTree.tostring (reportEvent unsurveyed [])) then
          .ok (reread (reportEvent unsurveyed []))
        else .error (.parseError "not well-formed (invalid token)")
      tostring := ElementTree.tostring }

def relayDocument : Bytes := encode (ElementTree.tostring (reportEvent unsurveyed []))

theorem report_brings_no_name (name : String) :
    ¬ BringsName plainRuntime (reportCto unsurveyed []) .cotXml name := by
  intro brings
  cases brings with
  | extra _ stored _ => cases stored
  | detail kept member _ _ =>
    cases Option.some.inj kept
    cases member

theorem report_document :
    Document relayTranslators (reportCto unsurveyed []) relayDocument where
  made := by
    refine ⟨lossyFields (reportCto unsurveyed []), ?_⟩
    have event : ctoToEvent relayTranslators.py (reportCto unsurveyed []) = _ := report_generated
    unfold egress
    rw [event, ok_bind]
    refine checked_ok_iff.mpr ⟨by decide +kernel, ?_, rfl⟩
    exact no_refused_event.mpr fun name brings => absurd brings (report_brings_no_name name)
  reads := by
    intro e lossy made
    have event : ctoToEvent relayTranslators.py (reportCto unsurveyed []) = _ := report_generated
    rw [event] at made
    rw [← (Prod.mk.inj (Except.ok.inj made)).1]
    exact if_pos rfl
  plain := fun name brings => absurd brings (report_brings_no_name name)

theorem documents_delimited_iff_report :
    Delimits (rootTag relayTranslators.et) [relayDocument, relayDocument] ↔
      ∀ cto ∈ [reportCto unsurveyed [], reportCto unsurveyed []],
        "event" ∉ closings (detailElement plainRuntime cto) :=
  documents_delimited_iff relayTranslators rfl _ _
    (.cons report_document (.cons report_document .nil))

section
variable {fromstring : Bytes → Except ParserExn String}

theorem cut_documents {docs : List Bytes} (closed : ∀ d ∈ docs, ClosedOnce d)
    {s more payload rest : Bytes} (stream : s ++ more = docs.flatten)
    (found : cut s = some (payload, rest)) :
    ∃ later, docs = payload :: later ∧ rest ++ more = later.flatten := by
  have whole := cut_append more found
  rw [stream] at whole
  cases docs with
  | nil => cases whole
  | cons d docs =>
    have first := cut_append docs.flatten (cut_eq_self_iff.mpr (closed d List.mem_cons_self))
    rw [List.flatten_cons, first] at whole
    obtain ⟨rfl, same⟩ := Prod.mk.inj (Option.some.inj whole)
    exact ⟨docs, rfl, same.symm⟩

theorem readEvents_front (buf : Bytes) (chunks : List Bytes) {docs : List Bytes} {more : Bytes}
    (accepted : ∀ d ∈ docs, accepts fromstring d = true) (closed : ∀ d ∈ docs, ClosedOnce d)
    (starts : ∀ d ∈ docs, ∀ c, d.head? = some c → c ∉ gapBytes)
    (stream : buf ++ chunks.flatten ++ more = docs.flatten) :
    (readEvents fromstring buf chunks).1 <+: docs ∧
      ((readEvents fromstring buf chunks).2 = .eof ∨
        (readEvents fromstring buf chunks).2 = .raised none midEvent) := by
  induction buf, chunks using readEvents.induct fromstring generalizing docs with
  | case1 buf chunks payload buf' chunks' read ih =>
    rw [readEvents_eq, read, continueWith]
    obtain ⟨taken, rest, rfl, found, rfl⟩ := readOneXmlEvent_event fromstring read
    rw [List.flatten_append, ← List.append_assoc, List.append_assoc] at stream
    obtain ⟨later, rfl, behind⟩ := cut_documents closed stream found
    rw [List.forall_mem_cons] at accepted closed starts
    -- the next document follows without a gap
    have kept : stripGap rest = rest := by
      refine (stripGap_of_head ?_).2
      intro c first
      cases later with
      | nil =>
        have nothing : rest = [] := (List.append_eq_nil_iff.mp behind).1
        rw [nothing] at first
        cases first
      | cons d later =>
        refine starts.2 d List.mem_cons_self c ?_
        have head := congrArg List.head? behind
        rw [List.head?_append, first, List.flatten_cons,
          List.head?_append_of_ne_nil _ (closed.2 d List.mem_cons_self).ne_nil] at head
        exact head.symm
    rw [kept] at ih ⊢
    obtain ⟨front, ended⟩ := ih accepted.2 closed.2 starts.2
      (by rw [List.append_assoc]; exact behind)
    exact ⟨(List.cons_prefix_cons).mpr ⟨rfl, front⟩, ended⟩
  | case2 buf chunks read =>
    rw [readEvents_eq, read]
    exact ⟨List.nil_prefix, .inl rfl⟩
  | case3 buf chunks document e read =>
    rw [readEvents_eq, read]
    refine ⟨List.nil_prefix, .inr ?_⟩
    rcases readOneXmlEvent_raised fromstring read with
      ⟨rfl, rfl⟩ | ⟨taken, left, payload, rest, rfl, found, -, refused⟩
    · rfl
    · rw [List.flatten_append, ← List.append_assoc, List.append_assoc] at stream
      obtain ⟨later, rfl, -⟩ := cut_documents closed stream found
      have own := accepted payload List.mem_cons_self
      rw [accepts, refused] at own
      cases own

end

/-- What an object says after one gateway has written it and the next has read it. -/
structure Relayed (py : Normalizers.Runtime) (cto c : CTO) : Prop where
  sourceUid : c.sourceUid = some (egressUid cto)
  cotType : c.symbology.cotType = some (egressType cto)
  eventTime : c.eventTime.instant = cto.eventTime.instant
  validFrom : c.validFrom.map Datetime.instant = some (cto.validFrom.getD cto.eventTime).instant
  validTo : c.validTo.map Datetime.instant = some (cto.validTo.getD cto.eventTime).instant
  position : ∃ lon lat,
    raiseNone .typeError cto.geometry.coordinates[0]? >>= coordinate py = .ok lon ∧
      raiseNone .typeError cto.geometry.coordinates[1]? >>= coordinate py = .ok lat ∧
        c.geometry.type = .point ∧ c.geometry.coordinates =
          [.num (Decimal.rounded 7 lon), .num (Decimal.rounded 7 lat)]
  callsign : ∀ callsign, truthyStr cto.callsign = some callsign → c.callsign = some callsign

theorem callsign_relayed (py : Normalizers.Runtime) {cto : CTO} {callsign : String}
    (shown : truthyStr cto.callsign = some callsign) :
    callsignOf (reread (detailElement py cto)) = some callsign := by
  have contact : contactElement cto =
      some (.mk "contact" (ofList [("callsign", callsign)]) none []) := by
    rw [contactElement, shown]
    rfl
  have first : (reread (detailElement py cto)).find "contact" =
      some (reread (.mk "contact" (ofList [("callsign", callsign)]) none [])) := by
    rw [Element.find, children_reread, detailElement, Element.children_mk]
    unfold typedElements
    rw [contact]
    simp
  rw [callsignOf, first, Option.bind_some, Element.get, attrib_reread, Element.attrib_mk,
    get?_ofList_single, if_pos rfl]

theorem Document.relayed {t : Translators} (exact : t.py.Exact) {cto : CTO} {doc : Bytes}
    (writes : t.et.tostring = ElementTree.tostring) (document : Document t cto doc)
    (intake : Intake) :
    ∃ c, cotXmlToCto t.py t.et doc intake = .ok c ∧ Relayed t.py cto c := by
  obtain ⟨e, lossy, ⟨w⟩, rfl, reads⟩ := document.written writes
  rw [← writes] at reads ⊢
  refine ⟨_, cotXmlToCto_generated w intake reads, ?_⟩
  exact
    { sourceUid := rfl
      cotType := rfl
      eventTime := astimezone_instant w.time_eq
      validFrom := congrArg some (astimezone_instant w.start_eq)
      validTo := congrArg some (astimezone_instant w.stale_eq)
      position := by
        refine ⟨w.lon, w.lat, w.lon_eq, w.lat_eq, rfl, ?_⟩
        rw [← exact.reprinted w.lon (by decide), ← exact.reprinted w.lat (by decide)]
        rfl
      callsign := by
        intro callsign shown
        rw [buildCto, find_detail w, Option.bind_some]
        exact callsign_relayed t.py shown }

theorem forall₂_sublist {A B : Type*} {R : A → B → Prop} {as : List A} {bs part : List B}
    (each : List.Forall₂ R as bs) (sublist : part.Sublist bs) :
    ∃ some_of, some_of.Sublist as ∧ List.Forall₂ R some_of part := by
  induction sublist generalizing as with
  | slnil => exact ⟨[], List.nil_sublist _, .nil⟩
  | cons b _ ih =>
    cases each with
    | cons first later =>
      obtain ⟨some_of, among, same⟩ := ih later
      exact ⟨some_of, among.cons _, same⟩
  | cons_cons b _ ih =>
    cases each with
    | cons first later =>
      obtain ⟨some_of, among, same⟩ := ih later
      exact ⟨_ :: some_of, among.cons_cons _, .cons first same⟩

/-- However the calls of the sender interleave and fail, whenever connections are lost, and however
much of each arrives in whatever chunks: the next gateway reads some of the objects that were
routed, in their order and none twice, and each says what the object it was made of says. -/
theorem objects_reach_next_gateway (t : Translators) (exact : t.py.Exact)
    (writes : t.et.tostring = ElementTree.tostring) (events : List TcpSender.Event)
    (s : TcpSender.State) (reached : run TcpSender.step TcpSender.start events = some s)
    (objects : List CTO) (docs : List Bytes) (documents : List.Forall₂ (Document t) objects docs)
    (sent : s.calls.filterMap TcpSender.Operation.data? = docs)
    (inside : ∀ cto ∈ objects, "event" ∉ closings (detailElement t.py cto))
    (streams : List (List Bytes))
    (arrived : List.Forall₂ (fun c chunks => chunks.flatten <+: c.written.flatten) s.connections
      streams) :
    (∃ relayed, relayed.Sublist objects ∧
      List.Forall₂ (fun cto doc => ∀ intake, ∃ c, cotXmlToCto t.py t.et doc intake = .ok c ∧
        Relayed t.py cto c) relayed
          (streams.flatMap (fun chunks => (readEvents (rootTag t.et) [] chunks).1))) ∧
      ∀ chunks ∈ streams, (readEvents (rootTag t.et) [] chunks).2 = .eof ∨
        (readEvents (rootTag t.et) [] chunks).2 = .raised none midEvent := by
  have fits : ∀ doc ∈ docs, accepts (rootTag t.et) doc = true ∧ ClosedOnce doc ∧
      ∀ c, doc.head? = some c → c ∉ gapBytes := by
    intro doc member
    obtain ⟨cto, there, document⟩ := Table.forall₂_right documents member
    exact ⟨document.accepted writes, (document.closedOnce_iff writes).mpr (inside cto there),
      document.starts writes⟩
  have reads : ∀ part, part ⊆ docs → ∀ chunks, chunks.flatten <+: (part.map id).flatten →
      (readEvents (rootTag t.et) [] chunks).1 <+: part ∧
        ((readEvents (rootTag t.et) [] chunks).2 = .eof ∨
          (readEvents (rootTag t.et) [] chunks).2 = .raised none midEvent) := by
    rintro part among chunks ⟨more, stream⟩
    rw [List.map_id] at stream
    exact readEvents_front [] chunks (fun d own => (fits d (among own)).1)
      (fun d own => (fits d (among own)).2.1) (fun d own => (fits d (among own)).2.2) stream
  obtain ⟨order, ended⟩ :=
    link_sublist reached (sent.trans (List.map_id docs).symm) arrived reads
  obtain ⟨relayed, some_of, each⟩ := forall₂_sublist documents order
  exact ⟨⟨relayed, some_of, each.imp fun _ _ document => document.relayed exact writes⟩, ended⟩

/-- The report over two connections, of which the first is cut off inside the document. -/
def relayedTwice : List TcpSender.Event :=
  [.call (.send relayDocument), .connection true, .resume, .lost 0, .drained false,
    .call (.send relayDocument), .connection true, .resume, .drained true]

theorem objects_reach_next_gateway_twice :
    ∃ s, run TcpSender.step TcpSender.start relayedTwice = some s ∧
      (∃ relayed, relayed.Sublist [reportCto unsurveyed [], reportCto unsurveyed []] ∧
        List.Forall₂ (fun cto doc => ∀ intake, ∃ c,
          cotXmlToCto plainRuntime relayTranslators.et doc intake = .ok c ∧
            Relayed plainRuntime cto c) relayed
          ([[relayDocument.take 9], [relayDocument]].flatMap
            (fun chunks => (readEvents (rootTag relayTranslators.et) [] chunks).1))) ∧
      ∀ chunks ∈ [[relayDocument.take 9], [relayDocument]],
        (readEvents (rootTag relayTranslators.et) [] chunks).2 = .eof ∨
          (readEvents (rootTag relayTranslators.et) [] chunks).2 =
            .raised none midEvent := by
  refine ⟨_, rfl, ?_⟩
  refine objects_reach_next_gateway relayTranslators plainRuntime_exact rfl relayedTwice _ rfl
    [reportCto unsurveyed [], reportCto unsurveyed []] [relayDocument, relayDocument]
    (.cons report_document (.cons report_document .nil)) rfl ?_ _ ?_
  · have inside : "event" ∉ closings (detailElement plainRuntime (reportCto unsurveyed [])) := by
      decide
    exact List.forall_mem_cons.mpr ⟨inside, List.forall_mem_singleton.mpr inside⟩
  · refine .cons ?_ (.cons ?_ .nil)
    · have front : [relayDocument.take 9].flatten <+: [relayDocument].flatten := by
        simpa using List.take_prefix 9 relayDocument
      exact front
    · exact List.prefix_rfl

end TacticalGateway.Routes
