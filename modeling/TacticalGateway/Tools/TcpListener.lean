import TacticalGateway.Routes.XmlLinks

/-! `tools.tcp_listener`: what it shows of a stream that the gateway writes or reads. The time and
the peer in front of a line are left out. -/
namespace TacticalGateway.Tools
open Text Listeners
open ElementTree (ParserExn)

/-- `_try_decode_frame`, and the buffer, which loses what stands before the magic. The loop over the
length is that of the gateway, which raises where this one waits. -/
def tryDecodeFrame (buf : Bytes) : Option Bytes × Nat × Bytes :=
  match buf with
  | [] => (none, 0, [])
  | first :: rest =>
    if first ≠ magic then (none, 0, rest.dropWhile (· ≠ magic))
    else
      match readVarint buf 1 0 0 with
      | .error _ => (none, 0, buf)
      | .ok none => (none, 0, buf)
      | .ok (some (length, i)) =>
        if buf[i]? ≠ some magic then (none, 0, buf)
        else if buf.length < i + 1 + length then (none, 0, buf)
        else (some ((buf.drop (i + 1)).take length), i + 1 + length, buf)

theorem tryDecodeFrame_consumed {buf kept payload : Bytes} {consumed : Nat}
    (h : tryDecodeFrame buf = (some payload, consumed, kept)) :
    kept = buf ∧ 0 < consumed ∧ consumed ≤ buf.length := by
  unfold tryDecodeFrame at h
  split at h
  · cases h
  · split at h
    · cases h
    · split at h
      · cases h
      · cases h
      · split at h
        · cases h
        · split at h
          · cases h
          · cases h
            refine ⟨rfl, ?_, ?_⟩
            · omega
            · omega

/-- The inner loop of `handle_pb`: the payloads, and the buffer that is left. -/
def takeFrames (buf : Bytes) : List Bytes × Bytes :=
  match _found : tryDecodeFrame buf with
  | (none, _, kept) => ([], kept)
  | (some payload, consumed, kept) =>
    let later := takeFrames (kept.drop consumed)
    (payload :: later.1, later.2)
termination_by buf.length
decreasing_by
  obtain ⟨rfl, pos, le⟩ := tryDecodeFrame_consumed _found
  rw [List.length_drop]
  omega

/-- The outer loop, over what `read` returns. -/
def receiveFrames (buf : Bytes) : List Bytes → List Bytes × Bytes
  | [] => ([], buf)
  | chunk :: chunks =>
    let (payloads, kept) := takeFrames (buf ++ chunk)
    let later := receiveFrames kept chunks
    (payloads ++ later.1, later.2)

def hex (data : Bytes) : String := String.join (data.map hex2)

def pbLine (received : Nat) (payload : Bytes) : String :=
  "#" ++ decimal received ++ "  pb_payload_size=" ++ decimal payload.length ++ " prefix=" ++
    hex (payload.take 32) ++ "..."

def numbered {A : Type*} (line : Nat → A → String) (l : List A) : List String :=
  (l.zipIdx 1).map (fun x => line x.2 x.1)

/-- `handle_pb`: the lines that it prints, and the count at the end. -/
def handlePb (chunks : List Bytes) : List String × Nat :=
  (numbered pbLine (receiveFrames [] chunks).1, (receiveFrames [] chunks).1.length)

theorem tryDecodeFrame_eq (buf : Bytes) :
    tryDecodeFrame buf =
      match Listeners.tryDecodeFrame buf with
      | .ok (some payload, consumed) => (some payload, consumed, buf)
      | .ok (none, _) => (none, 0, buf)
      | .error _ =>
        (none, 0, if buf.head? = some magic then buf else buf.tail.dropWhile (· ≠ magic)) := by
  cases buf with
  | nil => rfl
  | cons first rest =>
    simp only [tryDecodeFrame, Listeners.tryDecodeFrame, List.head?_cons, List.tail_cons,
      Option.some.injEq]
    by_cases leading : first = magic
    · simp only [leading, ne_eq, not_true_eq_false, if_false, if_true]
      cases readVarint (magic :: rest) 1 0 0 with
      | error e => rfl
      | ok header =>
        cases header with
        | none => rfl
        | some header =>
          obtain ⟨length, i⟩ := header
          simp only [readPayload]
          cases (magic :: rest)[i]? with
          | none => rfl
          | some b =>
            by_cases second : b = magic
            · by_cases short : (magic :: rest).length < i + 1 + length
              · simp only [second, short, ne_eq, not_true_eq_false, if_false, if_true]
              · simp only [second, short, ne_eq, not_true_eq_false, if_false]
            · simp only [second, ne_eq, not_false_eq_true, if_true, Option.some.injEq]
    · simp only [leading, ne_eq, not_false_eq_true, if_true, if_false]

def leadingError (b : UInt8) : String :=
  "expected leading magic 0x" ++ hex2 magic ++ ", got 0x" ++ hex2 b

section Frames

variable {buf : Bytes} {e : String}

theorem leading_of_error (bad : Listeners.tryDecodeFrame buf = .error e) :
    (∃ b, e = leadingError b) ∨ buf.head? = some magic := by
  cases buf with
  | nil => cases bad
  | cons first rest =>
    by_cases leading : first = magic
    · exact .inr (congrArg some leading)
    · rw [Listeners.tryDecodeFrame] at bad
      simp only [ne_eq, leading, not_false_eq_true, if_true] at bad
      cases bad
      exact .inl ⟨first, rfl⟩

theorem missing_of_incomplete (waits : look buf = .incomplete) :
    ∃ consumed, Listeners.tryDecodeFrame buf = .ok (none, consumed) := by
  unfold look at waits
  split at waits
  · cases waits
  · rename_i consumed missing
    exact ⟨consumed, missing⟩
  · cases waits

theorem takeFrames_none {kept : Bytes} {consumed : Nat}
    (h : tryDecodeFrame buf = (none, consumed, kept)) : takeFrames buf = ([], kept) := by
  rw [takeFrames]
  split <;> simp_all

theorem takeFrames_some {payload kept : Bytes} {consumed : Nat}
    (h : tryDecodeFrame buf = (some payload, consumed, kept)) :
    takeFrames buf = (payload :: (takeFrames (kept.drop consumed)).1,
      (takeFrames (kept.drop consumed)).2) := by
  rw [takeFrames]
  split <;> simp_all

/-- What the tool has before it where the gateway gives up: any bytes for lack of a magic, else a
frame that stays broken. -/
def Refused (e : String) (kept : Bytes) : Prop :=
  (∃ b, e = leadingError b) ∨
    (kept.head? = some magic ∧ Listeners.tryDecodeFrame kept = .error e)

/-- Of one buffer, the tool takes the frames that the gateway takes. -/
theorem takeFrames_drain (buf : Bytes) :
    match Framing.drain decoder buf with
    | (payloads, .ok rest) => takeFrames buf = (payloads, rest)
    | (payloads, .error e) => ∃ kept, takeFrames buf = (payloads, kept) ∧ Refused e kept := by
  induction buf using Framing.drain.induct decoder with
  | case1 buf waits =>
    rw [Framing.drain_incomplete waits]
    obtain ⟨consumed, missing⟩ := missing_of_incomplete waits
    have same := tryDecodeFrame_eq buf
    rw [missing] at same
    exact takeFrames_none same
  | case2 buf e bad =>
    rw [Framing.drain_error bad]
    have raised : Listeners.tryDecodeFrame buf = .error e := look_error.mp bad
    have same := tryDecodeFrame_eq buf
    rw [raised] at same
    refine ⟨_, takeFrames_none same, ?_⟩
    rcases leading_of_error raised with leading | first
    · exact .inl leading
    · rw [if_pos first]
      exact .inr ⟨first, raised⟩
  | case3 buf payload consumed found ih =>
    have decoded : Listeners.tryDecodeFrame buf = .ok (some payload, consumed) :=
      look_frame.mp found
    have same := tryDecodeFrame_eq buf
    rw [decoded] at same
    rw [Framing.drain_frame found, takeFrames_some same]
    cases later : Framing.drain decoder (buf.drop consumed) with
    | mk payloads ended =>
      rw [later] at ih
      cases ended with
      | ok rest =>
        dsimp only at ih ⊢
        rw [ih]
      | error e =>
        obtain ⟨kept, taken, refused⟩ := ih
        dsimp only
        rw [taken]
        exact ⟨kept, rfl, refused⟩

theorem receiveFrames_broken (first : buf.head? = some magic)
    (raised : Listeners.tryDecodeFrame buf = .error e) (chunks : List Bytes) :
    (receiveFrames buf chunks).1 = [] := by
  induction chunks generalizing buf with
  | nil => rfl
  | cons chunk chunks ih =>
    have still : Listeners.tryDecodeFrame (buf ++ chunk) = .error e := by
      rw [tryDecodeFrame_append chunk (by simp [raised]), raised]
    have head : (buf ++ chunk).head? = some magic := by
      rw [List.head?_append, first]
      rfl
    have same := tryDecodeFrame_eq (buf ++ chunk)
    rw [still] at same
    dsimp only at same
    rw [if_pos head] at same
    rw [receiveFrames, takeFrames_none same]
    exact ih head still

theorem receiveFrames_receive (buf : Bytes) (chunks : List Bytes) :
    match Framing.receive decoder buf chunks with
    | (payloads, .ok rest) => receiveFrames buf chunks = (payloads, rest)
    | (payloads, .error e) => payloads <+: (receiveFrames buf chunks).1 ∧
      ((∃ b, e = leadingError b) ∨ (receiveFrames buf chunks).1 = payloads) := by
  induction chunks generalizing buf with
  | nil => rfl
  | cons chunk chunks ih =>
    have taken := takeFrames_drain (buf ++ chunk)
    rw [Framing.receive, receiveFrames]
    cases drained : Framing.drain decoder (buf ++ chunk) with
    | mk payloads ended =>
      rw [drained] at taken
      cases ended with
      | ok rest =>
        have later := ih rest
        dsimp only at taken ⊢
        rw [taken]
        cases received : Framing.receive decoder rest chunks with
        | mk more ended =>
          rw [received] at later
          cases ended with
          | ok kept =>
            dsimp only at later ⊢
            rw [later]
          | error e =>
            dsimp only at later ⊢
            obtain ⟨front, lost | same⟩ := later
            · exact ⟨List.prefix_append_right_inj payloads |>.mpr front, .inl lost⟩
            · exact ⟨List.prefix_append_right_inj payloads |>.mpr front,
                .inr (congrArg (payloads ++ ·) same)⟩
      | error e =>
        dsimp only at taken ⊢
        obtain ⟨kept, taken, lost | ⟨first, raised⟩⟩ := taken
        · rw [taken]
          exact ⟨List.prefix_append _ _, .inl lost⟩
        · rw [taken, receiveFrames_broken first raised, List.append_nil]
          exact ⟨List.prefix_refl _, .inr rfl⟩

end Frames

theorem numbered_front {A : Type*} {line : Nat → A → String} {front l : List A}
    (early : front <+: l) : numbered line front <+: numbered line l := by
  obtain ⟨more, rfl⟩ := early
  rw [numbered, numbered, List.zipIdx_append, List.map_append]
  exact List.prefix_append _ _

/-- Of any stream, in whatever reads, the tool prints first the payloads that the gateway handles,
and nothing but these unless the gateway has given up for want of the leading magic. -/
theorem frames_shown (chunks : List Bytes) :
    numbered pbLine (handleClient chunks).1 <+: (handlePb chunks).1 ∧
      ((∀ b, (handleClient chunks).2 ≠ .error (leadingError b)) →
        handlePb chunks =
          (numbered pbLine (handleClient chunks).1, (handleClient chunks).1.length)) := by
  have agree := receiveFrames_receive [] chunks
  rw [← handleClient] at agree
  cases handled : handleClient chunks with
  | mk payloads ended =>
    rw [handled] at agree
    rw [handlePb]
    cases ended with
    | ok rest =>
      dsimp only at agree ⊢
      rw [agree]
      exact ⟨List.prefix_refl _, fun _ => rfl⟩
    | error e =>
      dsimp only at agree ⊢
      obtain ⟨front, agree⟩ := agree
      refine ⟨numbered_front front, ?_⟩
      intro kept_magic
      rcases agree with ⟨b, rfl⟩ | same
      · exact absurd rfl (kept_magic b)
      · rw [same]
/-- The inner loop of `handle_xml`: what stands up to each close tag, and the buffer that is
left. -/
def takeEvents (buf : Bytes) : List Bytes × Bytes :=
  match _found : cut buf with
  | none => ([], buf)
  | some (payload, rest) =>
    let later := takeEvents (stripGap rest)
    (payload :: later.1, later.2)
termination_by buf.length
decreasing_by
  obtain ⟨parts, pos⟩ := cut_parts _found
  have le := stripGap_length rest
  rw [parts, List.length_append]
  omega

def receiveEvents (buf : Bytes) : List Bytes → List Bytes
  | [] => []
  | chunk :: chunks =>
    let (payloads, kept) := takeEvents (buf ++ chunk)
    payloads ++ receiveEvents kept chunks

section Events

variable {fromstring : Bytes → Except ParserExn String}

theorem takeEvents_none {buf : Bytes} (missing : cut buf = none) : takeEvents buf = ([], buf) := by
  rw [takeEvents]
  split <;> simp_all

theorem takeEvents_some {buf payload rest : Bytes} (found : cut buf = some (payload, rest)) :
    takeEvents buf =
      (payload :: (takeEvents (stripGap rest)).1, (takeEvents (stripGap rest)).2) := by
  rw [takeEvents]
  split <;> simp_all

theorem takeEvents_settled (buf : Bytes) : cut (takeEvents buf).2 = none := by
  induction buf using takeEvents.induct with
  | case1 buf missing => rwa [takeEvents_none missing]
  | case2 buf payload rest found ih => rwa [takeEvents_some found]

/-- The end of a stream whose events are all accepted. -/
def Undisturbed (ended : Ending) : Prop :=
  ended = .eof ∨ ended = .raised none midEvent

/-- The gateway reads the events of the tool, up to one that it refuses. -/
structure Agree (fromstring : Bytes → Except ParserExn String) (payloads : List Bytes)
    (read : List Bytes × Ending) : Prop where
  events : read.1 = payloads.takeWhile (accepts fromstring)
  ended : Undisturbed read.2 ↔ ∀ payload ∈ payloads, accepts fromstring payload = true

theorem Agree.cons {payload : Bytes} {payloads : List Bytes} {read : List Bytes × Ending}
    (accepted : accepts fromstring payload = true) (agree : Agree fromstring payloads read) :
    Agree fromstring (payload :: payloads) (payload :: read.1, read.2) where
  events := by rw [List.takeWhile_cons_of_pos accepted, agree.events]
  ended := by
    rw [List.forall_mem_cons, agree.ended]
    exact (and_iff_right accepted).symm

theorem agree_refused {buf payload rest : Bytes} (chunks payloads : List Bytes)
    (found : cut buf = some (payload, rest)) (bad : accepts fromstring payload = false) :
    Agree fromstring (payload :: payloads) (readEvents fromstring buf chunks) := by
  have refused : ¬ accepts fromstring payload = true := by simp [bad]
  rw [readEvents_eq, readOneXmlEvent_found fromstring chunks found, deliver]
  unfold accepts at bad
  cases checked : checkEvent fromstring payload with
  | ok _ =>
    rw [checked] at bad
    cases bad
  | error e =>
    refine ⟨?_, ?_⟩
    · rw [List.takeWhile_cons_of_neg refused]
      rfl
    · refine iff_of_false ?_ (fun all => refused (all payload List.mem_cons_self))
      rintro (ended | ended)
      · cases ended
      · cases ended

theorem agree_take {buf : Bytes} {chunks later : List Bytes}
    (rest : Agree fromstring later (readEvents fromstring (takeEvents buf).2 chunks)) :
    Agree fromstring ((takeEvents buf).1 ++ later) (readEvents fromstring buf chunks) := by
  induction buf using takeEvents.induct with
  | case1 buf missing =>
    rw [takeEvents_none missing] at rest ⊢
    exact rest
  | case2 buf payload tail found ih =>
    rw [takeEvents_some found] at rest ⊢
    cases checked : accepts fromstring payload with
    | true =>
      rw [readEvents_accepted fromstring chunks found checked]
      exact (ih rest).cons checked
    | false => exact agree_refused chunks _ found checked

theorem agree_receive {buf : Bytes} (chunks : List Bytes) (missing : cut buf = none) :
    Agree fromstring (receiveEvents buf chunks) (readEvents fromstring buf chunks) := by
  induction chunks generalizing buf with
  | nil =>
    rw [readEvents_end fromstring missing]
    refine ⟨rfl, iff_of_true ?_ (fun _ member => absurd member List.not_mem_nil)⟩
    dsimp only
    split
    · exact .inl rfl
    · exact .inr rfl
  | cons chunk chunks ih =>
    rw [readEvents_more fromstring chunk chunks missing, receiveEvents]
    exact agree_take (ih (takeEvents_settled (buf ++ chunk)))

end Events

/-- Of any stream, in whatever reads, the gateway handles the events that the tool tells apart, up
to the first one that it does not accept; and it ends by itself if there is none. -/
theorem events_shown (fromstring : Bytes → Except ParserExn String) (chunks : List Bytes) :
    (readEvents fromstring [] chunks).1 =
        (receiveEvents [] chunks).takeWhile (accepts fromstring) ∧
      (Undisturbed (readEvents fromstring [] chunks).2 ↔
        ∀ payload ∈ receiveEvents [] chunks, accepts fromstring payload = true) := by
  have nothing : cut [] = none := by decide
  have agree : Agree fromstring _ _ := agree_receive chunks nothing
  exact ⟨agree.events, agree.ended⟩
section Summaries
open ElementTree Normalizers Routes Execution

/-- `elem.find("detail/contact")` and its like. -/
def findBelow (e : Element) (outer inner : String) : Option Element :=
  (e.children.filter (fun c => c.tag = outer)).findSome? (fun c => c.find inner)

def summarizeCotEvent (e : Element) : String :=
  let position (name : String) :=
    match e.find "point" with
    | some point => (point.get name).getD "None"
    | none => "?"
  let contact := if (e.find "detail").isSome then findBelow e "detail" "contact" else none
  let callsign := (contact.bind (fun contact => contact.get "callsign")).getD "?"
  "type=" ++ (e.get "type").getD "?" ++ " uid=" ++ (e.get "uid").getD "?" ++ " cs=" ++ callsign ++
    " pos=(" ++ position "lat" ++ "," ++ position "lon" ++ ")"

/-- What `handle_xml` makes of each event: a summary, or what the parser raises. -/
def summaries (et : Etree) (chunks : List Bytes) : List (Except ParserExn String) :=
  (receiveEvents [] chunks).map (fun payload => (et.fromstring payload).map summarizeCotEvent)

def eventLine (received : Nat) (summary : String) : String :=
  "#" ++ decimal received ++ "  " ++ summary

/-- Only events that parse are counted. A `ParseError` is printed; another exception ends the
loop. -/
def printEvents (received : Nat) : List (Except ParserExn String) → List String
  | [] => []
  | .error (.parseError e) :: rest => ("PARSE ERROR: " ++ e) :: printEvents received rest
  | .error _ :: _ => []
  | .ok summary :: rest => eventLine (received + 1) summary :: printEvents (received + 1) rest

def handleXml (et : Etree) (chunks : List Bytes) : List String :=
  printEvents 0 (summaries et chunks)

theorem printEvents_ok (received : Nat) (texts : List String) :
    printEvents received (texts.map .ok) =
      (texts.zipIdx (received + 1)).map (fun x => eventLine x.2 x.1) := by
  induction texts generalizing received with
  | nil => rfl
  | cons text texts ih => rw [List.map_cons, printEvents, ih, List.zipIdx_cons, List.map_cons]

/-- What the summary of an object that has been written says: its type, its uid, its position as it
is printed, and its callsign if it has one. -/
def Summarized (py : Normalizers.Runtime) (cto : CTO) (summary : String) : Prop :=
  ∃ lon lat callsign,
    raiseNone .typeError cto.geometry.coordinates[0]? >>= coordinate py = .ok lon ∧
      raiseNone .typeError cto.geometry.coordinates[1]? >>= coordinate py = .ok lat ∧
        (∀ own, truthyStr cto.callsign = some own → callsign = own) ∧
          summary = "type=" ++ egressType cto ++ " uid=" ++ egressUid cto ++ " cs=" ++ callsign ++
            " pos=(" ++ py.format 7 lat ++ "," ++ py.format 7 lon ++ ")"

section
variable {py : Normalizers.Runtime} {cto : CTO} {e : Element} {lossy : List String}

theorem findBelow_written (w : Written py cto e lossy) (tag : String) :
    findBelow (reread e) "detail" tag = (reread (detailElement py cto)).find tag := by
  have tag_detail : (detailElement py cto).tag = "detail" := rfl
  have children : (reread e).children =
      [reread (pointElement py cto w.lon w.lat), reread (detailElement py cto)] := by
    rw [children_reread]
    exact congrArg (fun e => e.children.map reread) w.event_eq
  rw [findBelow, children, List.filter_cons_of_neg (by simp [pointElement]),
    List.filter_cons_of_pos (by simp [tag_detail]), List.filter_nil, List.findSome?_singleton]

theorem summarize_written (w : Written py cto e lossy) :
    Summarized py cto (summarizeCotEvent (reread e)) := by
  have attr {name value : String}
      (listed : (name, value) ∈ requiredAttrs (egressUid cto) (egressType cto) (zulu w.time)
        (zulu w.start) (zulu w.stale)) : (reread e).get name = some value := by
    rw [Element.get, attrib_reread, w.event_eq, buildEvent]
    exact get?_required cto _ _ _ _ _ listed
  have cotType : (reread e).get "type" = some (egressType cto) := attr (by simp [requiredAttrs])
  have uid : (reread e).get "uid" = some (egressUid cto) := attr (by simp [requiredAttrs])
  obtain ⟨lat, lon, -⟩ := get_point py cto w.lon w.lat
  have detail : ((reread e).find "detail").isSome = true := by rw [find_detail w]; rfl
  let contact := (reread (detailElement py cto)).find "contact"
  refine ⟨w.lon, w.lat, (contact.bind (fun contact => contact.get "callsign")).getD "?", w.lon_eq,
    w.lat_eq, ?_, ?_⟩
  · intro own shown
    have there := callsign_relayed py shown
    rw [callsignOf] at there
    simp only [contact, there, Option.getD_some]
  · simp only [summarizeCotEvent, cotType, uid, find_point w, lat, lon, detail, if_true,
      findBelow_written w, Option.getD_some, contact]

end

theorem texts_of_ok {results : List (Except ParserExn String)}
    (all : ∀ result ∈ results, ∃ summary, result = .ok summary) :
    ∃ texts : List String, results = texts.map .ok := by
  induction results with
  | nil => exact ⟨[], rfl⟩
  | cons result results ih =>
    rw [List.forall_mem_cons] at all
    obtain ⟨summary, rfl⟩ := all.1
    obtain ⟨texts, rfl⟩ := ih all.2
    exact ⟨summary :: texts, rfl⟩

/-- However the calls of the sender interleave and fail, whenever connections are lost, and however
much of each arrives in whatever reads: the tool prints numbered summaries of some of the objects
that were routed, in their order and none twice, and no error. -/
theorem egress_shown (t : Translators) (writes : t.et.tostring = ElementTree.tostring)
    (events : List TcpSender.Event) (s : TcpSender.State)
    (reached : run TcpSender.step TcpSender.start events = some s)
    (objects : List CTO) (docs : List Bytes) (documents : List.Forall₂ (Document t) objects docs)
    (sent : s.calls.filterMap TcpSender.Operation.data? = docs)
    (inside : ∀ cto ∈ objects, "event" ∉ closings (detailElement t.py cto))
    (streams : List (List Bytes))
    (arrived : List.Forall₂ (fun c chunks => chunks.flatten <+: c.written.flatten) s.connections
      streams) :
    (∃ shown, shown.Sublist objects ∧ List.Forall₂
      (fun cto result => ∃ summary, result = .ok summary ∧ Summarized t.py cto summary) shown
        (streams.flatMap (summaries t.et))) ∧
      ∀ chunks ∈ streams, ∃ texts, summaries t.et chunks = texts.map .ok ∧
        handleXml t.et chunks = numbered eventLine texts := by
  have fits : ∀ doc ∈ docs, accepts (rootTag t.et) doc = true ∧ ClosedOnce doc ∧
      ∀ c, doc.head? = some c → c ∉ gapBytes := by
    intro doc member
    obtain ⟨cto, there, document⟩ := Table.forall₂_right documents member
    exact ⟨document.accepted writes, (document.closedOnce_iff writes).mpr (inside cto there),
      document.starts writes⟩
  have reads : ∀ part, part ⊆ docs → ∀ chunks, chunks.flatten <+: (part.map id).flatten →
      receiveEvents [] chunks <+: part ∧ True := by
    rintro part among chunks ⟨more, stream⟩
    rw [List.map_id] at stream
    obtain ⟨front, ended⟩ := readEvents_front [] chunks (fun d own => (fits d (among own)).1)
      (fun d own => (fits d (among own)).2.1) (fun d own => (fits d (among own)).2.2) stream
    have nothing : cut [] = none := by decide
    have agree : Agree (rootTag t.et) _ _ := agree_receive chunks nothing
    rw [agree.events, List.takeWhile_eq_self_iff.mpr (agree.ended.mp ended)] at front
    exact ⟨front, trivial⟩
  have order := (link_sublist reached (sent.trans (List.map_id docs).symm) arrived reads).1
  obtain ⟨shown, some_of, each⟩ := forall₂_sublist documents order
  have told : ∀ cto doc, Document t cto doc →
      ∃ summary, (t.et.fromstring doc).map summarizeCotEvent = .ok summary ∧
        Summarized t.py cto summary := by
    intro cto doc document
    obtain ⟨e, lossy, ⟨w⟩, -, read⟩ := document.written writes
    rw [read]
    exact ⟨_, rfl, summarize_written w⟩
  refine ⟨⟨shown, some_of, ?_⟩, ?_⟩
  · have whole : streams.flatMap (summaries t.et) = (streams.flatMap (receiveEvents [])).map
        (fun payload => (t.et.fromstring payload).map summarizeCotEvent) := by
      rw [List.map_flatMap]
      rfl
    rw [whole, List.forall₂_map_right_iff]
    exact each.imp told
  · intro chunks member
    obtain ⟨texts, all_ok⟩ : ∃ texts : List String, summaries t.et chunks = texts.map .ok := by
      refine texts_of_ok ?_
      intro result among
      obtain ⟨payload, own, rfl⟩ := List.mem_map.mp among
      obtain ⟨cto, -, document⟩ := Table.forall₂_right each
        (List.mem_flatMap.mpr ⟨chunks, member, own⟩)
      obtain ⟨summary, same, -⟩ := told cto payload document
      exact ⟨summary, same⟩
    refine ⟨texts, all_ok, ?_⟩
    rw [handleXml, all_ok, printEvents_ok]
    rfl

theorem egress_shown_twice :
    ∃ s, run TcpSender.step TcpSender.start relayedTwice = some s ∧
      (∃ shown, shown.Sublist [reportCto unsurveyed [], reportCto unsurveyed []] ∧
        List.Forall₂ (fun cto result => ∃ summary, result = .ok summary ∧
          Summarized plainRuntime cto summary) shown
          ([[relayDocument.take 9], [relayDocument]].flatMap (summaries relayTranslators.et))) ∧
      ∀ chunks ∈ [[relayDocument.take 9], [relayDocument]],
        ∃ texts, summaries relayTranslators.et chunks = texts.map .ok ∧
          handleXml relayTranslators.et chunks = numbered eventLine texts := by
  refine ⟨_, rfl, ?_⟩
  refine egress_shown relayTranslators rfl relayedTwice _ rfl
    [reportCto unsurveyed [], reportCto unsurveyed []] [relayDocument, relayDocument]
    (.cons report_document (.cons report_document .nil)) rfl ?_ _ ?_
  · have inside : "event" ∉ closings (detailElement plainRuntime (reportCto unsurveyed [])) := by
      decide
    exact List.forall_mem_cons.mpr ⟨inside, List.forall_mem_singleton.mpr inside⟩
  · refine .cons ?_ (.cons ?_ .nil)
    · have front : [relayDocument.take 9].flatten <+: [relayDocument].flatten := by
        simpa using List.take_prefix 9 relayDocument
      exact front
    · exact List.prefix_rfl

end Summaries

end TacticalGateway.Tools
