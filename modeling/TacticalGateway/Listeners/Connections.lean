import TacticalGateway.Listeners.ProtobufFraming
import TacticalGateway.Listeners.XmlFraming
import TacticalGateway.Normalizers.Exceptions

/-! A connection: each message that is taken off the stream is captured, normalized and handed to
the sink. Storage and sink succeed; what the clock and the capture return is a parameter. -/
namespace TacticalGateway.Listeners
open Text Normalizers

structure ListenerStats where
  messagesReceived : Nat := 0
  messagesNormalized : Nat := 0
  parseErrors : Nat := 0
  lastMessageAt : Option Datetime := none

/-- The counters of a listener, and what it has passed to the capture and to the sink. -/
structure Session where
  stats : ListenerStats := {}
  captured : List Bytes := []
  sunk : List CTO := []

namespace Session

def receive (s : Session) (payload : Bytes) (receivedAt : Datetime) : Session :=
  { s with
    stats := { s.stats with
      messagesReceived := s.stats.messagesReceived + 1
      lastMessageAt := some receivedAt }
    captured := s.captured ++ [payload] }

def hand (s : Session) (cto : CTO) : Session :=
  { s with
    stats := { s.stats with messagesNormalized := s.stats.messagesNormalized + 1 }
    sunk := s.sunk ++ [cto] }

def parseError (s : Session) : Session :=
  { s with stats := { s.stats with parseErrors := s.stats.parseErrors + 1 } }

end Session

section Handling

variable (normalize : Bytes → Intake → Except Exn CTO) (caught : Exn → Bool) (intake : Nat → Intake)

/-- `_handle_message`, and the exception that leaves it, if one does. -/
def handleMessage (payload : Bytes) (s : Session) : Session × Option Exn :=
  let given := intake s.stats.messagesReceived
  let s := s.receive payload given.receivedAt
  match normalize payload given with
  | .ok cto => (s.hand cto, none)
  | .error e => if caught e then (s.parseError, none) else (s, some e)

def serve : List Bytes → Session → Session × Option Exn
  | [], s => (s, none)
  | payload :: payloads, s =>
    match handleMessage normalize caught intake payload s with
    | (s, none) => serve payloads s
    | (s, some e) => (s, some e)

def outcomes (n : Nat) : List Bytes → List (Except Exn CTO)
  | [] => []
  | payload :: payloads => normalize payload (intake n) :: outcomes (n + 1) payloads

def failures (n : Nat) (payloads : List Bytes) : Nat :=
  (outcomes normalize intake n payloads).countP (fun r => !r.isOk)

def ctos (n : Nat) (payloads : List Bytes) : List CTO :=
  (outcomes normalize intake n payloads).filterMap Except.toOption

/-- Each of the payloads has been captured, and either handed to the sink or counted as an error;
`broken` counts the errors of the framing. -/
structure Completed (payloads : List Bytes) (broken : Nat) (s s' : Session) : Prop where
  captured : s'.captured = s.captured ++ payloads
  received : s'.stats.messagesReceived = s.stats.messagesReceived + payloads.length
  sunk : s'.sunk = s.sunk ++ ctos normalize intake s.stats.messagesReceived payloads
  normalized : s'.stats.messagesNormalized =
    s.stats.messagesNormalized + (ctos normalize intake s.stats.messagesReceived payloads).length
  parseErrors : s'.stats.parseErrors =
    s.stats.parseErrors + failures normalize intake s.stats.messagesReceived payloads + broken

variable {normalize caught intake} {payload : Bytes} {payloads : List Bytes} {s s' s'' : Session}
  {broken : Nat}

theorem ctos_cons (n : Nat) (payload : Bytes) (payloads : List Bytes) :
    ctos normalize intake n (payload :: payloads) =
    ctos normalize intake n [payload] ++ ctos normalize intake (n + 1) payloads :=
  List.filterMap_append (l := [normalize payload (intake n)])

theorem failures_cons (n : Nat) (payload : Bytes) (payloads : List Bytes) :
    failures normalize intake n (payload :: payloads) =
    failures normalize intake n [payload] + failures normalize intake (n + 1) payloads :=
  @List.countP_append _ _ [normalize payload (intake n)]
    (outcomes normalize intake (n + 1) payloads)

theorem Completed.refl : Completed normalize intake [] 0 s s := by
  constructor <;> simp [ctos, failures, outcomes]

theorem Completed.cons (first : Completed normalize intake [payload] 0 s s')
    (later : Completed normalize intake payloads broken s' s'') :
    Completed normalize intake (payload :: payloads) broken s s'' := by
  have next : s'.stats.messagesReceived = s.stats.messagesReceived + 1 := first.received
  constructor
  · rw [later.captured, first.captured, List.append_assoc, List.singleton_append]
  · rw [later.received, next, List.length_cons]
    omega
  · rw [later.sunk, first.sunk, next, List.append_assoc, ← ctos_cons _ payload payloads]
  · rw [later.normalized, first.normalized, next, Nat.add_assoc, ← List.length_append,
      ← ctos_cons _ payload payloads]
  · rw [later.parseErrors, first.parseErrors, next, failures_cons _ payload payloads]
    omega

theorem handleMessage_none_iff :
    (handleMessage normalize caught intake payload s).2 = none ↔
      Contained caught (normalize payload (intake s.stats.messagesReceived)) := by
  unfold handleMessage
  cases outcome : normalize payload (intake s.stats.messagesReceived) with
  | ok cto => simp [outcome, contained_ok]
  | error e =>
    rw [contained_error]
    by_cases known : caught e = true
    · simp [outcome, known]
    · simp [outcome, known]

theorem handleMessage_captured :
    (handleMessage normalize caught intake payload s).1.captured = s.captured ++ [payload] := by
  unfold handleMessage
  cases outcome : normalize payload (intake s.stats.messagesReceived) with
  | ok cto => simp [outcome, Session.receive, Session.hand]
  | error e =>
    by_cases known : caught e = true
    · simp [outcome, known, Session.receive, Session.parseError]
    · simp [outcome, known, Session.receive]

theorem handleMessage_completed
    (returns : (handleMessage normalize caught intake payload s).2 = none) :
    Completed normalize intake [payload] 0 s
      (handleMessage normalize caught intake payload s).1 := by
  unfold handleMessage at *
  cases outcome : normalize payload (intake s.stats.messagesReceived) with
  | ok cto =>
    constructor <;>
      simp [outcome, Session.receive, Session.hand, ctos, failures, outcomes, Except.toOption,
        Except.isOk,
        Except.toBool]
  | error e =>
    by_cases known : caught e = true
    · constructor <;>
        simp [outcome, known, Session.receive, Session.parseError, ctos, failures, outcomes,
          Except.toOption, Except.isOk, Except.toBool]
    · simp [outcome, known] at returns

theorem serve_cons_none (returns : (handleMessage normalize caught intake payload s).2 = none) :
    serve normalize caught intake (payload :: payloads) s =
      serve normalize caught intake payloads
        (handleMessage normalize caught intake payload s).1 := by
  rw [serve]
  split
  · rename_i same
    rw [same]
  · rename_i same
    rw [same] at returns
    cases returns

theorem serve_cons_some {e : Exn}
    (escapes : (handleMessage normalize caught intake payload s).2 = some e) :
    serve normalize caught intake (payload :: payloads) s =
      ((handleMessage normalize caught intake payload s).1, some e) := by
  rw [serve]
  split
  · rename_i same
    rw [same] at escapes
    cases escapes
  · rename_i same
    rw [same] at escapes ⊢
    cases escapes
    rfl

theorem serve_completed (returns : (serve normalize caught intake payloads s).2 = none) :
    Completed normalize intake payloads 0 s (serve normalize caught intake payloads s).1 := by
  induction payloads generalizing s with
  | nil => exact Completed.refl
  | cons payload payloads ih =>
    cases first : (handleMessage normalize caught intake payload s).2 with
    | some e =>
      rw [serve_cons_some first] at returns
      cases returns
    | none =>
      rw [serve_cons_none first] at returns ⊢
      exact (handleMessage_completed first).cons (ih returns)

theorem serve_none_iff {handled : Bytes → Prop}
    (contained : ∀ payload given, Contained caught (normalize payload given) ↔ handled payload) :
    (serve normalize caught intake payloads s).2 = none ↔
      ∀ payload ∈ payloads, handled payload := by
  induction payloads generalizing s with
  | nil => simp [serve]
  | cons payload payloads ih =>
    have one : (handleMessage normalize caught intake payload s).2 = none ↔ handled payload :=
      handleMessage_none_iff.trans (contained payload _)
    rw [List.forall_mem_cons, ← one]
    cases first : (handleMessage normalize caught intake payload s).2 with
    | some e => simp [serve_cons_some first]
    | none => simp [serve_cons_none first, ih]

/-- What follows the last payload, where the connection is still open: an exception of the reader is
counted where the listener catches it, and escapes otherwise. -/
def finish (caught : Exn → Bool) : Option Exn → Session × Option Exn → Session × Option Exn
  | none, (s, none) => (s, none)
  | some e, (s, none) => if caught e then (s.parseError, none) else (s, some e)
  | _, (s, some e) => (s, some e)

theorem finish_some (raised : Option Exn) (s : Session) (e : Exn) :
    finish caught raised (s, some e) = (s, some e) := by
  cases raised <;> rfl

theorem finish_none_iff (raised : Option Exn) (r : Session × Option Exn) :
    (finish caught raised r).2 = none ↔ r.2 = none ∧ ∀ e ∈ raised, caught e = true := by
  obtain ⟨s, _ | e⟩ := r <;> cases raised with
  | none => simp [finish]
  | some e' =>
    by_cases known : caught e' = true <;> simp [finish, known]

theorem Completed.parseError (completed : Completed normalize intake payloads 0 s s') :
    Completed normalize intake payloads 1 s s'.parseError :=
  ⟨completed.captured, completed.received, completed.sunk, completed.normalized,
    congrArg (· + 1) completed.parseErrors⟩

/-- Message content leaves the connection alive exactly when each payload can be handled, and what
the reader raises behind them is caught. -/
theorem finish_completed_iff {handled : Bytes → Prop} (raised : Option Exn)
    (contained : ∀ payload given, Contained caught (normalize payload given) ↔ handled payload) :
    (∃ s', finish caught raised (serve normalize caught intake payloads s) = (s', none) ∧
        Completed normalize intake payloads (if raised = none then 0 else 1) s s') ↔
      (∀ payload ∈ payloads, handled payload) ∧ ∀ e ∈ raised, caught e = true := by
  rw [← serve_none_iff contained, ← finish_none_iff]
  constructor
  · rintro ⟨s', ended, _⟩
    rw [ended]
  · intro ends
    obtain ⟨returns, known⟩ := (finish_none_iff raised _).mp ends
    have completed := serve_completed returns
    refine ⟨_, Prod.ext rfl ends, ?_⟩
    cases served : serve normalize caught intake payloads s with
    | mk s' escaped =>
      rw [served] at returns completed
      cases returns
      cases raised with
      | none => exact completed
      | some e =>
        rw [finish, if_pos (known e rfl)]
        exact completed.parseError

end Handling

section Clients

variable (room : Nat) (py : Runtime) (et : Etree) (pb : Protobuf) (intake : Nat → Intake)

def rootTag (xml : Bytes) : Except ElementTree.ParserExn String :=
  (et.fromstring xml).map ElementTree.Element.tag

def handleXml : Bytes → Session → Session × Option Exn :=
  handleMessage (cotXmlToCtoWithin room py et) Exn.isCotXmlParseError intake

/-- The loop of `CoTXmlTcpListener._handle_client`. -/
def xmlHandleClient (buf : Bytes) (chunks : List Bytes) (s : Session) : Session × Option Exn :=
  match _read : readOneXmlEvent (rootTag et) buf chunks with
  | .event payload buf chunks =>
    match handleXml room py et intake payload s with
    | (s, none) => xmlHandleClient buf chunks s
    | (s, some e) => (s, some e)
  | .eof => (s, none)
  | .raised _ e => if e.isCotXmlParseError then (s.parseError, none) else (s, some e)
termination_by buf.length + chunks.flatten.length
decreasing_by exact readOneXmlEvent_shrinks (rootTag et) _read

theorem xmlHandleClient_step (buf : Bytes) (chunks : List Bytes) (s : Session) :
    xmlHandleClient room py et intake buf chunks s =
      match readOneXmlEvent (rootTag et) buf chunks with
      | .event payload buf chunks =>
        match handleXml room py et intake payload s with
        | (s, none) => xmlHandleClient room py et intake buf chunks s
        | (s, some e) => (s, some e)
      | .eof => (s, none)
      | .raised _ e => if e.isCotXmlParseError then (s.parseError, none) else (s, some e) := by
  rw [xmlHandleClient]
  split <;> rename_i read <;> rw [read]

theorem xmlHandleClient_eq (buf : Bytes) (chunks : List Bytes) (s : Session) :
    xmlHandleClient room py et intake buf chunks s =
      finish Exn.isCotXmlParseError (readEvents (rootTag et) buf chunks).2.exn
        (serve (cotXmlToCtoWithin room py et) Exn.isCotXmlParseError intake
          (readEvents (rootTag et) buf chunks).1 s) := by
  induction buf, chunks, s using xmlHandleClient.induct room py et intake with
  | case1 buf chunks s payload buf' chunks' read s' handled ih =>
    unfold handleXml at handled
    rw [xmlHandleClient_step, readEvents_eq, read]
    simp only [continueWith, handleXml, handled, serve]
    exact ih
  | case2 buf chunks s payload buf' chunks' read s' e handled =>
    unfold handleXml at handled
    rw [xmlHandleClient_step, readEvents_eq, read]
    simp only [continueWith, handleXml, handled, serve]
    exact (finish_some _ s' e).symm
  | case3 buf chunks s read =>
    rw [xmlHandleClient_step, readEvents_eq, read]
    rfl
  | case4 buf chunks s document e read known =>
    rw [xmlHandleClient_step, readEvents_eq, read]
    rfl
  | case5 buf chunks s document e read unknown =>
    rw [xmlHandleClient_step, readEvents_eq, read]
    rfl

/-- What is taken off a stream: the events that are returned, and the document that is refused. -/
def takenDocuments (read : List Bytes × Ending) : List Bytes := read.1 ++ read.2.document.toList

/-- A document that the reader refuses is one that can be handled where the reader's exception is
caught. -/
theorem caught_refused_iff {payload : Bytes} {e : Exn}
    (refused : checkEvent (rootTag et) payload = .error e) :
    e.isCotXmlParseError = true ↔ XmlHandled room py et payload := by
  unfold checkEvent rootTag at refused
  cases read : et.fromstring payload with
  | error e' =>
    rw [read] at refused
    cases refused
    rw [caught_reraise]
    constructor
    · intro known
      refine ⟨?_, ?_⟩
      · intro e'' same
        cases read.symm.trans same
        exact known
      · intro root same
        cases read.symm.trans same
    · intro handled
      exact handled.parsed e' read
  | ok root =>
    rw [read] at refused
    simp only [Except.map] at refused
    split at refused
    · rename_i other
      cases refused
      refine iff_of_true rfl ⟨?_, ?_⟩
      · intro e' same
        cases read.symm.trans same
      · intro root' same event
        cases read.symm.trans same
        exact absurd event other
    · cases refused

theorem caught_ending_iff (chunks : List Bytes) :
    (∀ e ∈ (readEvents (rootTag et) [] chunks).2.exn, e.isCotXmlParseError = true) ↔
      ∀ payload ∈ (readEvents (rootTag et) [] chunks).2.document.toList,
        XmlHandled room py et payload := by
  cases ended : (readEvents (rootTag et) [] chunks).2 with
  | eof => simp [Ending.exn, Ending.document]
  | raised document e =>
    rcases readEvents_raised (rootTag et) [] chunks ended with ⟨rfl, rfl⟩ | ⟨payload, rfl, refused⟩
    · simp [Ending.exn, Ending.document, midEvent, Exn.isCotXmlParseError]
    · simpa [Ending.exn, Ending.document] using caught_refused_iff room py et refused

def framingExn : Except String Bytes → Option Exn
  | .ok _ => none
  | .error message => some (.cotPbError message)

/-- `CoTPbTcpListener._handle_client`. What is read does not depend on what became of the payloads
before, so they are handled in the order of the frames and the error of a frame comes last. -/
def pbHandleClient (chunks : List Bytes) (s : Session) : Session × Option Exn :=
  finish Exn.isCotPbError (framingExn (handleClient chunks).2)
    (serve (cotPbToCtoWithin room pb et) Exn.isCotPbError intake (handleClient chunks).1 s)

/-- What a peer sends in delimited messages is normalized or counted, message by message to the end,
exactly when each message can be handled, the one included that the reader refuses. -/
theorem content_contained_iff (chunks : List Bytes) (s : Session) :
    ((∃ s', xmlHandleClient room py et intake [] chunks s = (s', none) ∧
        Completed (cotXmlToCtoWithin room py et) intake (readEvents (rootTag et) [] chunks).1
          (if (readEvents (rootTag et) [] chunks).2.clean then 0 else 1) s s') ↔
      ∀ payload ∈ takenDocuments (readEvents (rootTag et) [] chunks),
        XmlHandled room py et payload) ∧
    ((∃ s', pbHandleClient room et pb intake chunks s = (s', none) ∧
        Completed (cotPbToCtoWithin room pb et) intake (handleClient chunks).1
          (if (handleClient chunks).2.isOk then 0 else 1) s s') ↔
      ∀ payload ∈ (handleClient chunks).1, PbHandled room pb et payload) := by
  constructor
  · have broken (ended : Ending) : (if ended.clean then 0 else 1) =
        if ended.exn = none then 0 else 1 := by cases ended <;> rfl
    rw [xmlHandleClient_eq, broken, finish_completed_iff _ (contained_cotXmlToCto room py et),
      caught_ending_iff room py et, takenDocuments]
    exact List.forall_mem_append.symm
  · have broken (ended : Except String Bytes) : (if ended.isOk then 0 else 1) =
        if framingExn ended = none then 0 else 1 := by cases ended <;> rfl
    rw [pbHandleClient, broken, finish_completed_iff _ (contained_cotPbToCto room pb et)]
    refine and_iff_left ?_
    cases (handleClient chunks).2 with
    | ok _ => simp [framingExn]
    | error message => simp [framingExn, Exn.isCotPbError]

end Clients

def vague : ElementTree.Element :=
  .mk "event" (ofList [("type", "a-f-G"), ("uid", "UNIT-7"), ("time", "noon")]) none
    [.mk "point" .empty none []]

def vagueXml : Bytes := Text.encode (writeElement vague)

def vagueEtree : Etree where
  fromstring := fun xml => if xml = vagueXml then .ok vague else
    .error (.parseError "not well-formed (invalid token)")
  tostring := writeElement

/-- The runtime on the empty message and on a byte that is no message. -/
def emptyMessage : Protobuf where
  parseFromString := fun payload => if payload = [] then some {} else none
  serializeToString := fun _ => []

theorem vague_read : readEvents (rootTag vagueEtree) [] [vagueXml ++ vagueXml] =
    ([vagueXml, vagueXml], .eof) := by
  have both : cut (vagueXml ++ vagueXml) = some (vagueXml, vagueXml) := by decide +kernel
  have alone : cut vagueXml = some (vagueXml, []) := by decide +kernel
  have ok : accepts (rootTag vagueEtree) vagueXml = true := by decide +kernel
  have stripped : stripGap vagueXml = vagueXml := by decide +kernel
  rw [readEvents_more _ _ _ rfl, List.nil_append, readEvents_accepted _ [] both ok, stripped,
    readEvents_accepted _ [] alone ok, readEvents_end _ rfl]
  rfl

/-- The default limit of a thousand calls, less those of the event loop. -/
def usualRoom : Nat := 980

theorem vague_raises : cotXmlToCtoWithin usualRoom plainRuntime vagueEtree vagueXml reportIntake =
    .error .valueError := by
  have known : vagueEtree.fromstring vagueXml = .ok vague := by
    unfold vagueEtree
    dsimp only
    rw [if_pos rfl]
  have noon : parseIso plainRuntime "noon" = .error .valueError := by
    have unread : isoTime plainRuntime "noon" = none := by decide +kernel
    exact congrArg (raiseNone .valueError) unread
  have kind : requireAttr vague "type" = .ok "a-f-G" := rfl
  have name : requireAttr vague "uid" = .ok "UNIT-7" := rfl
  have time : requireAttr vague "time" = .ok "noon" := rfl
  have event : ¬ vague.tag ≠ "event" := not_not.mpr rfl
  rw [cotXmlToCtoWithin, known]
  dsimp only
  rw [if_neg event, readHeader, kind, ok_bind, name, ok_bind, time, ok_bind, noon]
  rfl

/-- A time that is no date, or bytes that are no message, end the connection: the second of two
messages is never received. -/
theorem content_kills_connection :
    ((readEvents (rootTag vagueEtree) [] [vagueXml ++ vagueXml]).1 = [vagueXml, vagueXml] ∧
      (xmlHandleClient usualRoom plainRuntime vagueEtree
        (fun _ => reportIntake) [] [vagueXml ++ vagueXml] {}).2 =
        some .valueError ∧
      (xmlHandleClient usualRoom plainRuntime vagueEtree (fun _ => reportIntake) []
        [vagueXml ++ vagueXml] {}).1.captured = [vagueXml]) ∧
    ((handleClient [encodeFrame [0xFF] ++ encodeFrame []]).1 = [[0xFF], []] ∧
      (pbHandleClient usualRoom vagueEtree emptyMessage (fun _ => reportIntake)
        [encodeFrame [0xFF] ++ encodeFrame []] {}).2 = some .decodeError ∧
      (pbHandleClient usualRoom vagueEtree emptyMessage (fun _ => reportIntake)
        [encodeFrame [0xFF] ++ encodeFrame []] {}).1.captured = [[0xFF]]) := by
  have read : handleClient [encodeFrame [0xFF] ++ encodeFrame []] = ([[0xFF], []], .ok []) :=
    handleClient_frames (by decide) (by simp)
  have escapes : (handleMessage (cotXmlToCtoWithin usualRoom plainRuntime vagueEtree)
      Exn.isCotXmlParseError (fun _ => reportIntake) vagueXml {}).2 = some .valueError := by
    unfold handleMessage
    dsimp only
    rw [vague_raises]
    rfl
  refine ⟨⟨?_, ?_, ?_⟩, ?_, ?_, ?_⟩
  · rw [vague_read]
  · rw [xmlHandleClient_eq, vague_read, serve_cons_some escapes]
    rfl
  · rw [xmlHandleClient_eq, vague_read, serve_cons_some escapes]
    rw [finish_some]
    exact handleMessage_captured
  · rw [read]
  · rw [pbHandleClient, read]
    rfl
  · rw [pbHandleClient, read]
    rfl

end TacticalGateway.Listeners
