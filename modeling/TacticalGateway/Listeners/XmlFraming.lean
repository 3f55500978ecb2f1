import TacticalGateway.Normalizers.CotXml

/-! Taking CoT XML events off a TCP stream. `ET.fromstring` is a parameter: the tag of the root
element, or what is raised. -/
namespace TacticalGateway.Listeners
open Text
open ElementTree (ParserExn)
open Normalizers (Exn reraise)

/-- `b"</event>"`. -/
def closeTag : Bytes := [0x3C, 0x2F, 0x65, 0x76, 0x65, 0x6E, 0x74, 0x3E]

def gapBytes : Bytes := [0x20, 0x09, 0x0D, 0x0A]

def gap (buf : Bytes) : Bytes := buf.takeWhile (fun c => c ∈ gapBytes)

def stripGap (buf : Bytes) : Bytes := buf.dropWhile (fun c => c ∈ gapBytes)

/-- The buffer up to the end of the first close tag, and what is behind it. -/
def cut (buf : Bytes) : Option (Bytes × Bytes) :=
  (find closeTag buf).map
    (fun idx => (buf.take (idx + closeTag.length), buf.drop (idx + closeTag.length)))

section
variable (fromstring : Bytes → Except ParserExn String)

def checkEvent (payload : Bytes) : Except Exn Unit :=
  match fromstring payload with
  | .error e => .error (reraise "event parse error: " e)
  | .ok tag =>
    if tag ≠ "event" then .error (.cotXmlParseError ("expected <event>, got <" ++ tag ++ ">"))
    else .ok ()

def midEvent : Exn := .cotXmlParseError "connection closed mid-event"

/-- What one call of `_read_one_xml_event` ends with: an event, with the kept buffer and the chunks
to come, or an exception, with the document that was taken off the buffer and is refused. -/
inductive Read where
  | event (payload buf : Bytes) (chunks : List Bytes)
  | eof
  | raised (document : Option Bytes) (e : Exn)

/-- A delimited event: the rest loses its leading white space before the event is checked. -/
def deliver (payload rest : Bytes) (chunks : List Bytes) : Read :=
  match checkEvent fromstring payload with
  | .ok () => .event payload (stripGap rest) chunks
  | .error e => .raised (some payload) e

def readOneXmlEvent : Bytes → List Bytes → Read
  | buf, [] =>
    match cut buf with
    | some (payload, rest) => deliver fromstring payload rest []
    | none => if strip buf = [] then .eof else .raised none midEvent
  | buf, chunk :: chunks =>
    match cut buf with
    | some (payload, rest) => deliver fromstring payload rest (chunk :: chunks)
    | none => readOneXmlEvent (buf ++ chunk) chunks

theorem cut_parts {buf payload rest : Bytes} (h : cut buf = some (payload, rest)) :
    buf = payload ++ rest ∧ 0 < payload.length := by
  obtain ⟨idx, found, parts⟩ := Option.map_eq_some_iff.mp h
  cases parts
  refine ⟨(List.take_append_drop _ _).symm, ?_⟩
  have le := find_le found
  have tag : closeTag.length = 8 := rfl
  rw [List.length_take]
  omega

theorem stripGap_length (buf : Bytes) : (stripGap buf).length ≤ buf.length :=
  (List.dropWhile_suffix _).length_le

theorem deliver_event {payload rest p buf : Bytes} {chunks cs : List Bytes}
    (h : deliver fromstring payload rest chunks = .event p buf cs) :
    p = payload ∧ buf = stripGap rest ∧ cs = chunks := by
  unfold deliver at h
  split at h
  · cases h
    exact ⟨rfl, rfl, rfl⟩
  · cases h

theorem readOneXmlEvent_event {buf payload buf' : Bytes} {chunks chunks' : List Bytes}
    (h : readOneXmlEvent fromstring buf chunks = .event payload buf' chunks') :
    ∃ taken rest, chunks = taken ++ chunks' ∧
      cut (buf ++ taken.flatten) = some (payload, rest) ∧ buf' = stripGap rest := by
  induction chunks generalizing buf with
  | nil =>
    rw [readOneXmlEvent] at h
    split at h
    · rename_i p rest found
      obtain ⟨rfl, rfl, rfl⟩ := deliver_event fromstring h
      exact ⟨[], rest, rfl, by rwa [List.flatten_nil, List.append_nil], rfl⟩
    · split at h <;> cases h
  | cons chunk chunks ih =>
    rw [readOneXmlEvent] at h
    split at h
    · rename_i p rest found
      obtain ⟨rfl, rfl, rfl⟩ := deliver_event fromstring h
      exact ⟨[], rest, rfl, by rwa [List.flatten_nil, List.append_nil], rfl⟩
    · obtain ⟨taken, rest, rfl, found, kept⟩ := ih h
      refine ⟨chunk :: taken, rest, rfl, ?_, kept⟩
      rwa [List.flatten_cons, ← List.append_assoc]

theorem deliver_raised {payload rest : Bytes} {chunks : List Bytes} {document : Option Bytes}
    {e : Exn} (h : deliver fromstring payload rest chunks = .raised document e) :
    document = some payload ∧ checkEvent fromstring payload = .error e := by
  unfold deliver at h
  cases checked : checkEvent fromstring payload with
  | ok _ =>
    rw [checked] at h
    cases h
  | error e' =>
    rw [checked] at h
    cases h
    exact ⟨rfl, rfl⟩

theorem readOneXmlEvent_raised {buf : Bytes} {chunks : List Bytes} {document : Option Bytes}
    {e : Exn} (h : readOneXmlEvent fromstring buf chunks = .raised document e) :
    (document = none ∧ e = midEvent) ∨ ∃ taken more payload rest,
      chunks = taken ++ more ∧ cut (buf ++ taken.flatten) = some (payload, rest) ∧
        document = some payload ∧ checkEvent fromstring payload = .error e := by
  induction chunks generalizing buf with
  | nil =>
    rw [readOneXmlEvent] at h
    split at h
    · rename_i p rest found
      exact .inr
        ⟨[], [], p, rest, rfl, by rwa [List.flatten_nil, List.append_nil], deliver_raised _ h⟩
    · split at h <;> cases h
      exact .inl ⟨rfl, rfl⟩
  | cons chunk chunks ih =>
    rw [readOneXmlEvent] at h
    split at h
    · rename_i p rest found
      exact .inr
        ⟨[], _, p, rest, rfl, by rwa [List.flatten_nil, List.append_nil], deliver_raised _ h⟩
    · rcases ih h with closed | ⟨taken, more, payload, rest, rfl, found, refused⟩
      · exact .inl closed
      · refine .inr ⟨chunk :: taken, more, payload, rest, rfl, ?_, refused⟩
        rwa [List.flatten_cons, ← List.append_assoc]

theorem readOneXmlEvent_shrinks {buf payload buf' : Bytes} {chunks chunks' : List Bytes}
    (h : readOneXmlEvent fromstring buf chunks = .event payload buf' chunks') :
    buf'.length + chunks'.flatten.length < buf.length + chunks.flatten.length := by
  obtain ⟨taken, rest, rfl, found, rfl⟩ := readOneXmlEvent_event fromstring h
  obtain ⟨parts, pos⟩ := cut_parts found
  have total := congrArg List.length parts
  have le := stripGap_length rest
  simp only [List.length_append, List.flatten_append] at total ⊢
  omega

inductive Ending where
  | eof
  | raised (document : Option Bytes) (e : Exn)
  deriving DecidableEq

def Ending.clean : Ending → Bool
  | .eof => true
  | .raised _ _ => false

def Ending.exn : Ending → Option Exn
  | .eof => none
  | .raised _ e => some e

def Ending.document : Ending → Option Bytes
  | .eof => none
  | .raised document _ => document

/-- The read loop of `CoTXmlTcpListener._handle_client`: events until the end or an error. -/
def readEvents (buf : Bytes) (chunks : List Bytes) : List Bytes × Ending :=
  match _read : readOneXmlEvent fromstring buf chunks with
  | .event payload buf' chunks' =>
    let later := readEvents buf' chunks'
    (payload :: later.1, later.2)
  | .eof => ([], .eof)
  | .raised document e => ([], .raised document e)
termination_by buf.length + chunks.flatten.length
decreasing_by exact readOneXmlEvent_shrinks fromstring _read

def accepts (payload : Bytes) : Bool := (checkEvent fromstring payload).isOk

def continueWith : Read → List Bytes × Ending
  | .event payload buf chunks =>
    (payload :: (readEvents fromstring buf chunks).1, (readEvents fromstring buf chunks).2)
  | .eof => ([], .eof)
  | .raised document e => ([], .raised document e)

theorem readEvents_eq (buf : Bytes) (chunks : List Bytes) :
    readEvents fromstring buf chunks =
      continueWith fromstring (readOneXmlEvent fromstring buf chunks) := by
  rw [readEvents]
  split <;> rename_i read <;> rw [read] <;> rfl

theorem readEvents_raised (buf : Bytes) (chunks : List Bytes) {document : Option Bytes} {e : Exn}
    (ended : (readEvents fromstring buf chunks).2 = .raised document e) :
    (document = none ∧ e = midEvent) ∨
      ∃ payload, document = some payload ∧ checkEvent fromstring payload = .error e := by
  induction buf, chunks using readEvents.induct fromstring with
  | case1 buf chunks payload buf' chunks' read ih =>
    rw [readEvents_eq, read] at ended
    exact ih ended
  | case2 buf chunks read =>
    rw [readEvents_eq, read] at ended
    cases ended
  | case3 buf chunks document' e' read =>
    rw [readEvents_eq, read] at ended
    cases ended
    rcases readOneXmlEvent_raised fromstring read with closed | ⟨_, _, payload, _, _, _, refused⟩
    · exact .inl closed
    · exact .inr ⟨payload, refused⟩

theorem readOneXmlEvent_found {buf payload rest : Bytes} (chunks : List Bytes)
    (found : cut buf = some (payload, rest)) :
    readOneXmlEvent fromstring buf chunks = deliver fromstring payload rest chunks := by
  cases chunks with
  | nil => rw [readOneXmlEvent, found]
  | cons chunk chunks => rw [readOneXmlEvent, found]

theorem readEvents_accepted {buf payload rest : Bytes} (chunks : List Bytes)
    (found : cut buf = some (payload, rest)) (ok : accepts fromstring payload = true) :
    readEvents fromstring buf chunks =
      (payload :: (readEvents fromstring (stripGap rest) chunks).1,
        (readEvents fromstring (stripGap rest) chunks).2) := by
  rw [readEvents_eq, readOneXmlEvent_found fromstring chunks found, deliver]
  unfold accepts at ok
  cases checked : checkEvent fromstring payload with
  | ok _ => rfl
  | error e =>
    rw [checked] at ok
    cases ok

theorem readEvents_refused {buf payload rest : Bytes} (chunks : List Bytes)
    (found : cut buf = some (payload, rest)) (bad : accepts fromstring payload = false) :
    ∃ e, readEvents fromstring buf chunks = ([], .raised (some payload) e) := by
  rw [readEvents_eq, readOneXmlEvent_found fromstring chunks found, deliver]
  unfold accepts at bad
  cases checked : checkEvent fromstring payload with
  | ok _ =>
    rw [checked] at bad
    cases bad
  | error e => exact ⟨e, rfl⟩

theorem readEvents_more {buf : Bytes} (chunk : Bytes) (chunks : List Bytes)
    (missing : cut buf = none) :
    readEvents fromstring buf (chunk :: chunks) = readEvents fromstring (buf ++ chunk) chunks := by
  rw [readEvents_eq, readEvents_eq, readOneXmlEvent, missing]

theorem readEvents_end {buf : Bytes} (missing : cut buf = none) :
    readEvents fromstring buf [] =
      ([], if strip buf = [] then .eof else .raised none midEvent) := by
  rw [readEvents_eq, readOneXmlEvent, missing]
  by_cases blank : strip buf = []
  · simp only [blank, if_true, continueWith]
  · simp only [blank, if_false, continueWith]

end

end TacticalGateway.Listeners
