import TacticalGateway.Listeners.Connections
import TacticalGateway.Listeners.XmlSegmentation

/-! Which bytes of a CoT XML stream end up in captured objects. The reader captures a payload only
after it has checked it, and nothing behind one that ends the connection. -/
namespace TacticalGateway.Listeners
open Text Normalizers
open ElementTree (ParserExn)

/-- The stream is these payloads in their order, with white space between them. -/
def Covers : List Bytes → Bytes → Prop
  | [], s => strip s = []
  | payload :: payloads, s =>
    ∃ front rest, s = front ++ (payload ++ rest) ∧ strip front = [] ∧ Covers payloads rest

theorem blank_skip {v : Bytes} (blank : strip v = []) : (0x3C : UInt8) ∉ v :=
  fun member => absurd (strip_eq_nil.mp blank _ member) (by decide)

theorem cut_blank {s : Bytes} (blank : strip s = []) : cut s = none := by
  have nothing : cut ([] : Bytes) = none := rfl
  have front := cut_front_none (blank_skip blank) nothing
  rwa [List.append_nil] at front

theorem strip_append {v r : Bytes} : strip (v ++ r) = [] ↔ strip v = [] ∧ strip r = [] := by
  simp only [strip_eq_nil, List.forall_mem_append]

theorem strip_of_gap {v : Bytes} (blank : ∀ c ∈ v, c ∈ gapBytes) : strip v = [] := by
  have nothing : strip ([] : Bytes) = [] := rfl
  have front := (strip_gap blank).mpr nothing
  rwa [List.append_nil] at front

theorem Covers.front {payloads : List Bytes} {v s : Bytes} (covers : Covers payloads s)
    (blank : strip v = []) : Covers payloads (v ++ s) := by
  cases payloads with
  | nil => exact strip_append.mpr ⟨blank, covers⟩
  | cons payload payloads =>
    obtain ⟨front, rest, joined, white, later⟩ := covers
    refine ⟨v ++ front, rest, ?_, strip_append.mpr ⟨blank, white⟩, later⟩
    rw [joined, List.append_assoc]

theorem cut_unique {payload rest v front r : Bytes} (event : cut payload = some (payload, []))
    (found : cut s = some (payload, rest)) (blank : strip v = []) (white : strip front = [])
    (joined : v ++ s = front ++ (payload ++ r)) : front = v ∧ r = rest := by
  have here := cut_front (blank_skip blank) found
  have there := cut_front (blank_skip white) (cut_append r event)
  rw [joined, there, List.nil_append] at here
  have parts := Prod.mk.inj (Option.some.inj here)
  exact ⟨List.append_cancel_right parts.1, parts.2⟩

theorem Covers.behind {payloads : List Bytes} {u t : Bytes} (covers : Covers payloads (u ++ t))
    (blank : strip u = []) (head : ∀ p ps, payloads = p :: ps → ∃ r, cut t = some (p, r)) :
    Covers payloads t := by
  cases payloads with
  | nil => exact (strip_append.mp covers).2
  | cons payload payloads =>
    obtain ⟨front, rest, joined, white, later⟩ := covers
    obtain ⟨r, found⟩ := head payload payloads rfl
    obtain ⟨_, same⟩ := cut_unique (cut_self found) found blank white joined
    obtain ⟨parts, _⟩ := cut_parts found
    rw [same] at later
    exact ⟨[], r, parts, rfl, later⟩

section

variable (fromstring : Bytes → Except ParserExn String) (handled : Bytes → Prop)

open Classical in
noncomputable def kept : List Bytes → List Bytes
  | [] => []
  | payload :: payloads => payload :: if handled payload then kept payloads else []

noncomputable def capturedFrom (buf : Bytes) (chunks : List Bytes) : List Bytes :=
  kept handled (readEvents fromstring buf chunks).1

/-- What `reader.read` returns at most. -/
def readLimit : Nat := 4096

def Delivered (s : Bytes) (chunks : List Bytes) : Prop :=
  chunks.flatten = s ∧ ∀ c ∈ chunks, c ≠ [] ∧ c.length ≤ readLimit

/-- No event is refused, no exception comes before the end, and the stream ends between events: also
with the part of a gap in front of an event that can arrive after the event before it. -/
def Clean (s : Bytes) : Prop :=
  match _found : cut s with
  | none => strip s = []
  | some (payload, rest) =>
    accepts fromstring payload = true ∧
      (strip rest = [] ∨ handled payload ∧
        ∀ v, v <:+ gap rest → (gap rest).length < v.length + readLimit → Clean (v ++ stripGap rest))
termination_by s.length
decreasing_by
  obtain ⟨parts, pos⟩ := cut_parts _found
  rename_i suffix _
  have le := suffix.length_le
  have whole := congrArg List.length (gap_append_stripGap rest)
  rw [List.length_append] at whole
  rw [parts, List.length_append, List.length_append]
  omega

variable {fromstring handled} {s payload rest : Bytes}

theorem clean_none (missing : cut s = none) : Clean fromstring handled s ↔ strip s = [] := by
  rw [Clean]
  split
  · rfl
  · rename_i found
    rw [missing] at found
    cases found

theorem clean_some (found : cut s = some (payload, rest)) :
    Clean fromstring handled s ↔ accepts fromstring payload = true ∧
      (strip rest = [] ∨ handled payload ∧ ∀ v, v <:+ gap rest →
        (gap rest).length < v.length + readLimit →
          Clean fromstring handled (v ++ stripGap rest)) := by
  rw [Clean]
  split
  · rename_i missing
    rw [missing] at found
    cases found
  · rename_i p r here
    cases here.symm.trans found
    rfl

theorem captured_none {buf : Bytes} {chunks : List Bytes}
    (missing : cut (buf ++ chunks.flatten) = none) :
    capturedFrom fromstring handled buf chunks = [] := by
  have read := congrArg Prod.fst (summary_no_event fromstring missing)
  rw [capturedFrom, show (readEvents fromstring buf chunks).1 = [] from read, kept]

theorem captured_refused {buf : Bytes} {chunks : List Bytes}
    (found : cut (buf ++ chunks.flatten) = some (payload, rest))
    (bad : accepts fromstring payload = false) :
    capturedFrom fromstring handled buf chunks = [] := by
  have read := congrArg Prod.fst (summary_refused fromstring found bad)
  rw [capturedFrom, show (readEvents fromstring buf chunks).1 = [] from read, kept]

theorem captured_more {buf chunk : Bytes} {chunks : List Bytes} (missing : cut buf = none) :
    capturedFrom fromstring handled buf (chunk :: chunks) =
      capturedFrom fromstring handled (buf ++ chunk) chunks := by
  rw [capturedFrom, capturedFrom, readEvents_more fromstring chunk chunks missing]

theorem captured_last {buf : Bytes} {chunks : List Bytes} (found : cut buf = some (payload, rest))
    (ok : accepts fromstring payload = true) (raises : ¬ handled payload) :
    capturedFrom fromstring handled buf chunks = [payload] := by
  rw [capturedFrom, readEvents_accepted fromstring chunks found ok, kept, if_neg raises]

theorem captured_next {buf : Bytes} {chunks : List Bytes} (found : cut buf = some (payload, rest))
    (ok : accepts fromstring payload = true) (returns : handled payload) :
    capturedFrom fromstring handled buf chunks =
      payload :: capturedFrom fromstring handled (stripGap rest) chunks := by
  rw [capturedFrom, readEvents_accepted fromstring chunks found ok, kept, if_pos returns,
    capturedFrom]

theorem captured_pieces {buf more : Bytes} {chunks : List Bytes}
    (missing : cut (buf ++ more) = none) :
    capturedFrom fromstring handled buf (more.map (fun c => [c]) ++ chunks) =
      capturedFrom fromstring handled (buf ++ more) chunks := by
  induction more generalizing buf with
  | nil => simp
  | cons c more ih =>
    have split : buf ++ c :: more = (buf ++ [c]) ++ more := by simp
    rw [split] at missing ⊢
    rw [List.map_cons, List.cons_append,
      captured_more (cut_none_of_append (cut_none_of_append missing)), ih missing]

/-- However the stream is cut, the first payload is the first event of the stream. -/
theorem captured_first (handled : Bytes → Prop) {buf : Bytes} {chunks : List Bytes}
    (found : cut (buf ++ chunks.flatten) = some (payload, rest))
    (ok : accepts fromstring payload = true) :
    ∃ later, capturedFrom fromstring handled buf chunks = payload :: later ∧
      (¬ handled payload → later = []) := by
  have here {buf r : Bytes} (chunks : List Bytes) (now : cut buf = some (payload, r)) :
      ∃ later, capturedFrom fromstring handled buf chunks = payload :: later ∧
        (¬ handled payload → later = []) := by
    by_cases returns : handled payload
    · exact ⟨_, captured_next now ok returns, fun raises => absurd returns raises⟩
    · exact ⟨[], captured_last now ok returns, fun _ => rfl⟩
  induction chunks generalizing buf with
  | nil =>
    rw [List.flatten_nil, List.append_nil] at found
    exact here [] found
  | cons chunk chunks ih =>
    cases now : cut buf with
    | none =>
      rw [List.flatten_cons, ← List.append_assoc] at found
      rw [captured_more now]
      exact ih found
    | some parts =>
      obtain ⟨p, r⟩ := parts
      cases (cut_append _ now).symm.trans found
      exact here (chunk :: chunks) now

theorem captured_head {buf : Bytes} {chunks later : List Bytes}
    (first : capturedFrom fromstring handled buf chunks = payload :: later) :
    ∃ rest, cut (buf ++ chunks.flatten) = some (payload, rest) := by
  cases found : cut (buf ++ chunks.flatten) with
  | none =>
    rw [captured_none found] at first
    cases first
  | some parts =>
    obtain ⟨p, r⟩ := parts
    cases ok : accepts fromstring p with
    | false =>
      rw [captured_refused found ok] at first
      cases first
    | true =>
      obtain ⟨_, starts, _⟩ := captured_first handled found ok
      cases starts.symm.trans first
      exact ⟨r, rfl⟩

/-- What is left behind an event in the buffer came with the last read. -/
def Fresh (buf : Bytes) : Prop := ∀ payload rest, cut buf = some (payload, rest) →
    rest.length < readLimit

theorem fresh_short {buf : Bytes} (short : buf.length < readLimit) : Fresh buf := by
  intro payload rest found
  obtain ⟨parts, pos⟩ := cut_parts found
  rw [parts, List.length_append] at short
  omega

theorem fresh_append {buf chunk : Bytes} (missing : cut buf = none)
    (limit : chunk.length ≤ readLimit) :
    Fresh (buf ++ chunk) := by
  intro payload rest found
  obtain ⟨parts, pos⟩ := cut_parts found
  by_contra long
  have sizes := congrArg List.length parts
  rw [List.length_append, List.length_append] at sizes
  have inside : payload <+: buf := by
    apply List.prefix_of_prefix_length_le _ (List.prefix_append buf chunk)
    · omega
    · rw [parts]
      exact List.prefix_append payload rest
  obtain ⟨more, whole⟩ := inside
  have event := cut_append more (cut_self found)
  rw [whole, missing] at event
  cases event

/-- Behind the first event there is only white space, or a clean stream: what is left of the buffer,
with what is still to come. -/
theorem clean_behind {buf : Bytes} {chunks : List Bytes} (now : cut buf = some (payload, rest))
    (short : rest.length < readLimit) (clean : Clean fromstring handled (buf ++ chunks.flatten)) :
    accepts fromstring payload = true ∧ (strip (stripGap rest ++ chunks.flatten) = [] ∨
      handled payload ∧ Clean fromstring handled (stripGap rest ++ chunks.flatten)) := by
  obtain ⟨ok, after⟩ := (clean_some (cut_append chunks.flatten now)).mp clean
  obtain ⟨v, suffix, joined⟩ := stripGap_append rest chunks.flatten
  refine ⟨ok, ?_⟩
  rcases after with blank | ⟨returns, later⟩
  · left
    rw [← gap_append_stripGap rest, List.append_assoc] at blank
    exact (strip_append.mp blank).2
  · right
    refine ⟨returns, ?_⟩
    rw [joined]
    apply later v suffix
    have kept := congrArg List.length joined
    have parts := congrArg List.length (gap_append_stripGap (rest ++ chunks.flatten))
    rw [List.length_append, List.length_append] at kept parts
    omega

theorem Covers.event {buf more : Bytes} {payloads : List Bytes}
    (now : cut buf = some (payload, rest))
    (covers : Covers payloads (stripGap rest ++ more)) :
    Covers (payload :: payloads) (buf ++ more) := by
  refine ⟨[], rest ++ more, ?_, rfl, ?_⟩
  · rw [(cut_parts now).1, List.nil_append, List.append_assoc]
  · have split : rest ++ more = gap rest ++ (stripGap rest ++ more) := by
      rw [← List.append_assoc, gap_append_stripGap]
    rw [split]
    exact covers.front (strip_of_gap (gap_blank List.suffix_rfl))

/-- A stream that is clean is covered, however it is cut. -/
theorem covers_of_clean (n : Nat) (buf : Bytes) (chunks : List Bytes)
    (size : buf.length + chunks.flatten.length + chunks.length ≤ n)
    (limit : ∀ c ∈ chunks, c.length ≤ readLimit) (fresh : Fresh buf)
    (clean : Clean fromstring handled (buf ++ chunks.flatten)) :
    Covers (capturedFrom fromstring handled buf chunks) (buf ++ chunks.flatten) := by
  induction n generalizing buf chunks with
  | zero =>
    have empty : buf ++ chunks.flatten = [] := by
      apply List.eq_nil_of_length_eq_zero
      rw [List.length_append]
      omega
    rw [captured_none (by rw [empty]; rfl), empty]
    rfl
  | succ n ih =>
    cases now : cut buf with
    | none =>
      cases chunks with
      | nil =>
        have missing : cut (buf ++ [].flatten) = none := by rwa [List.flatten_nil, List.append_nil]
        rw [captured_none missing]
        exact (clean_none missing).mp clean
      | cons chunk chunks =>
        rw [captured_more now]
        rw [List.flatten_cons, ← List.append_assoc] at clean ⊢
        apply ih (buf ++ chunk) chunks _ _ (fresh_append now (limit chunk List.mem_cons_self)) clean
        · rw [List.flatten_cons, List.length_append, List.length_cons] at size
          rw [List.length_append]
          omega
        · intro c member
          exact limit c (List.mem_cons_of_mem chunk member)
    | some parts =>
      obtain ⟨payload, rest⟩ := parts
      have short := fresh payload rest now
      have le := stripGap_length rest
      obtain ⟨whole, pos⟩ := cut_parts now
      obtain ⟨ok, behind⟩ := clean_behind now short clean
      by_cases returns : handled payload
      · rw [captured_next now ok returns]
        apply Covers.event now
        rcases behind with blank | ⟨_, later⟩
        · rw [captured_none (cut_blank blank)]
          exact blank
        · apply ih (stripGap rest) chunks _ limit (fresh_short (Nat.lt_of_le_of_lt le short)) later
          rw [whole, List.length_append] at size
          omega
      · rw [captured_last now ok returns]
        apply Covers.event now
        rcases behind with blank | ⟨contrary, _⟩
        · exact blank
        · exact absurd contrary returns

/-- A stream is covered however it is cut. -/
def AlwaysCovered (fromstring : Bytes → Except ParserExn String) (handled : Bytes → Prop)
    (s : Bytes) : Prop :=
  ∀ chunks, Delivered s chunks → Covers (capturedFrom fromstring handled [] chunks) s

def bytewise (s : Bytes) : List Bytes := s.map (fun c => [c])

theorem flatten_bytewise (s : Bytes) : (bytewise s).flatten = s := by
  induction s with
  | nil => rfl
  | cons c s ih => exact congrArg (c :: ·) ih

theorem delivered_bytewise (s : Bytes) : Delivered s (bytewise s) := by
  refine ⟨flatten_bytewise s, ?_⟩
  intro chunk member
  obtain ⟨c, _, rfl⟩ := List.mem_map.mp member
  exact ⟨List.cons_ne_nil c [], Nat.le_of_ble_eq_true rfl⟩

theorem AlwaysCovered.by_bytes (always : AlwaysCovered fromstring handled s) :
    Covers (capturedFrom fromstring handled [] (bytewise s)) s := always _ (delivered_bytewise s)

theorem AlwaysCovered.accepted (always : AlwaysCovered fromstring handled s)
    (found : cut s = some (payload, rest)) : accepts fromstring payload = true := by
  by_contra bad
  have whole : cut ([] ++ (bytewise s).flatten) = some (payload, rest) := by
    rwa [List.nil_append, flatten_bytewise]
  have covers := always.by_bytes
  rw [captured_refused whole (Bool.not_eq_true _ ▸ bad)] at covers
  rw [cut_blank covers] at found
  cases found

theorem AlwaysCovered.returns (always : AlwaysCovered fromstring handled s)
    (found : cut s = some (payload, rest)) (more : strip rest ≠ []) : handled payload := by
  by_contra raises
  have whole : cut ([] ++ (bytewise s).flatten) = some (payload, rest) := by
    rwa [List.nil_append, flatten_bytewise]
  obtain ⟨later, first, last⟩ := captured_first handled whole (always.accepted found)
  have covers := always.by_bytes
  rw [first, last raises] at covers
  obtain ⟨front, r, joined, white, blank⟩ := covers
  have nothing : strip ([] : Bytes) = [] := rfl
  obtain ⟨_, same⟩ := cut_unique (v := []) (cut_self found) found nothing white joined
  rw [same] at blank
  exact more blank

theorem cut_shorter {front : Bytes} {c : UInt8}
    (event : cut (front ++ [c]) = some (front ++ [c], [])) :
    cut front = none := by
  cases found : cut front with
  | none => rfl
  | some parts =>
    obtain ⟨p, r⟩ := parts
    have same := congrArg Prod.snd (Option.some.inj ((cut_append [c] found).symm.trans event))
    cases List.append_eq_nil_iff.mp same |>.2

/-- An event that comes byte by byte, but for its last byte, which comes together with white space
behind it. -/
theorem captured_late {p u : Bytes} {c : UInt8} {chunks : List Bytes}
    (event : cut (p ++ [c]) = some (p ++ [c], [])) (ok : accepts fromstring (p ++ [c]) = true)
    (returns : handled (p ++ [c])) (dropped : ∀ d ∈ u, d ∈ gapBytes) :
    capturedFrom fromstring handled [] (bytewise p ++ (c :: u) :: chunks) =
      (p ++ [c]) :: capturedFrom fromstring handled [] chunks := by
  have before : cut ([] ++ p) = none := cut_shorter event
  have complete : cut (p ++ c :: u) = some (p ++ [c], u) := by
    have event := cut_append u event
    rwa [List.append_assoc, List.singleton_append, List.nil_append] at event
  have nothing : stripGap u = [] := by
    rw [stripGap, List.dropWhile_eq_nil_iff]
    intro d member
    exact decide_eq_true (dropped d member)
  rw [bytewise, captured_pieces before, captured_more before, List.nil_append,
    captured_next complete ok returns, nothing]

theorem delivered_late {p u later : Bytes} {c : UInt8} {chunks : List Bytes}
    (delivered : Delivered later chunks) (short : u.length < readLimit) :
    Delivered (p ++ [c] ++ (u ++ later)) (bytewise p ++ (c :: u) :: chunks) := by
  obtain ⟨stream, sizes⟩ := delivered
  refine ⟨?_, ?_⟩
  · rw [List.flatten_append, flatten_bytewise, List.flatten_cons, stream]
    simp
  · rw [List.forall_mem_append, List.forall_mem_cons]
    exact ⟨(delivered_bytewise p).2, ⟨List.cons_ne_nil c u, short⟩, sizes⟩

/-- The part of a gap that comes with the last byte of an event is dropped, the rest is in front of
what follows. -/
theorem AlwaysCovered.behind_gap (always : AlwaysCovered fromstring handled s)
    (found : cut s = some (payload, rest)) (returns : handled payload) {v : Bytes}
    (suffix : v <:+ gap rest) (limit : (gap rest).length < v.length + readLimit) :
    AlwaysCovered fromstring handled (v ++ stripGap rest) := by
  intro chunks delivered
  have ok := always.accepted found
  have event := cut_self found
  obtain ⟨whole, pos⟩ := cut_parts found
  obtain ⟨u, parts⟩ := suffix
  obtain ⟨p, c, rfl⟩ : ∃ p c, payload = p ++ [c] :=
    ⟨_, _, (List.dropLast_append_getLast (List.ne_nil_of_length_pos pos)).symm⟩
  have behind : rest = u ++ (v ++ stripGap rest) := by
    rw [← List.append_assoc, parts, gap_append_stripGap]
  have dropped : ∀ d ∈ u, d ∈ gapBytes := by
    intro d member
    exact gap_blank List.suffix_rfl d (parts ▸ List.mem_append_left v member)
  have short : u.length < readLimit := by
    have sum := congrArg List.length parts
    rw [List.length_append] at sum
    omega
  have pieces : Delivered s (bytewise p ++ (c :: u) :: chunks) := by
    rw [whole, behind]
    exact delivered_late delivered short
  have covers := always _ pieces
  rw [captured_late event ok returns dropped] at covers
  obtain ⟨front, r, joined, white, later⟩ := covers
  have blank : strip ([] : Bytes) = [] := rfl
  obtain ⟨_, same⟩ := cut_unique (v := []) event found blank white joined
  rw [same, behind] at later
  apply later.behind (strip_of_gap dropped)
  intro payload later first
  rw [← delivered.1]
  exact captured_head first

theorem clean_of_covered (n : Nat) (s : Bytes) (size : s.length ≤ n)
    (always : AlwaysCovered fromstring handled s) : Clean fromstring handled s := by
  induction n generalizing s with
  | zero =>
    have empty : s = [] := List.eq_nil_of_length_eq_zero (Nat.le_zero.mp size)
    rw [empty]
    exact (clean_none rfl).mpr rfl
  | succ n ih =>
    cases found : cut s with
    | none =>
      have whole : cut ([] ++ (bytewise s).flatten) = none := by
        rwa [List.nil_append, flatten_bytewise]
      have covers := always.by_bytes
      rw [captured_none whole] at covers
      exact (clean_none found).mpr covers
    | some parts =>
      obtain ⟨payload, rest⟩ := parts
      apply (clean_some found).mpr
      refine ⟨always.accepted found, ?_⟩
      by_cases more : strip rest = []
      · exact .inl more
      · have returns := always.returns found more
        refine .inr ⟨returns, ?_⟩
        intro v suffix limit
        apply ih _ _ (always.behind_gap found returns suffix limit)
        obtain ⟨whole, pos⟩ := cut_parts found
        have le := suffix.length_le
        have kept := congrArg List.length (gap_append_stripGap rest)
        rw [List.length_append] at kept
        rw [whole, List.length_append] at size
        rw [List.length_append]
        omega

theorem alwaysCovered_iff (s : Bytes) :
    AlwaysCovered fromstring handled s ↔ Clean fromstring handled s := by
  constructor
  · exact clean_of_covered s.length s le_rfl
  · intro clean chunks delivered
    have limit : ∀ c ∈ chunks, c.length ≤ readLimit := fun c member => (delivered.2 c member).2
    have whole : [] ++ chunks.flatten = s := delivered.1
    rw [← whole] at clean ⊢
    exact covers_of_clean _ [] chunks le_rfl limit (fresh_short (by decide)) clean

end

theorem serve_captured {normalize : Bytes → Intake → Except Exn CTO} {caught : Exn → Bool}
    {intake : Nat → Intake} {handled : Bytes → Prop}
    (contained : ∀ payload given, Contained caught (normalize payload given) ↔ handled payload)
    (payloads : List Bytes) (s : Session) :
    (serve normalize caught intake payloads s).1.captured = s.captured ++
      kept handled payloads := by
  induction payloads generalizing s with
  | nil => simp [serve, kept]
  | cons payload payloads ih =>
    have one : (handleMessage normalize caught intake payload s).2 = none ↔ handled payload :=
      handleMessage_none_iff.trans (contained payload _)
    cases first : (handleMessage normalize caught intake payload s).2 with
    | none =>
      rw [serve_cons_none first, ih, handleMessage_captured, kept, if_pos (one.mp first),
        List.append_assoc,
        List.singleton_append]
    | some e =>
      have raises : ¬ handled payload := by
        intro returns
        rw [one.mpr returns] at first
        cases first
      rw [serve_cons_some first, kept, if_neg raises, handleMessage_captured]

section

variable (room : Nat) (py : Runtime) (et : Etree) (intake : Nat → Intake)

theorem xmlHandleClient_captured (chunks : List Bytes) (session : Session) :
    (xmlHandleClient room py et intake [] chunks session).1.captured =
      session.captured ++ capturedFrom (rootTag et) (XmlHandled room py et) [] chunks := by
  have unmoved (raised : Option Exn) (r : Session × Option Exn) :
      (finish Exn.isCotXmlParseError raised r).1.captured = r.1.captured := by
    obtain ⟨s, _ | e⟩ := r
    · cases raised with
      | none => rfl
      | some e =>
        rw [finish]
        split <;> rfl
    · rw [finish_some]
  rw [xmlHandleClient_eq, unmoved, capturedFrom]
  exact serve_captured (contained_cotXmlToCto room py et) _ session

/-- `_CoTXmlUdpProtocol._process`: one datagram, one message. -/
def process : Bytes → Session → Session × Option Exn := handleXml room py et intake

/-- Every byte of a stream is captured, however the stream is cut, exactly when the stream is clean;
over UDP every datagram is captured. -/
theorem capture_first_iff (s : Bytes) :
    ((∀ chunks, Delivered s chunks → ∀ session, ∃ payloads,
        (xmlHandleClient room py et intake [] chunks session).1.captured =
            session.captured ++ payloads ∧
          Covers payloads s) ↔
      Clean (rootTag et) (XmlHandled room py et) s) ∧
    ∀ datagram session, (process room py et intake datagram session).1.captured =
      session.captured ++ [datagram] := by
  constructor
  · rw [← alwaysCovered_iff]
    constructor
    · intro covered chunks delivered
      obtain ⟨payloads, captured, covers⟩ := covered chunks delivered {}
      rw [xmlHandleClient_captured] at captured
      rwa [List.append_cancel_left captured]
    · intro always chunks delivered session
      exact ⟨_, xmlHandleClient_captured room py et intake chunks session, always chunks delivered⟩
  · intro datagram session
    exact handleMessage_captured

end

/-- `<events></event>`, which is not well formed. -/
def mismatched : Bytes := [0x3C, 0x65, 0x76, 0x65, 0x6E, 0x74, 0x73, 0x3E] ++ closeTag

def noEtree : Etree where
  fromstring := fun _ => .error (.parseError "mismatched tag")
  tostring := writeElement

/-- Over TCP a malformed event leaves no trace, over UDP the same bytes are captured. -/
theorem malformed_uncaptured :
    Delivered mismatched [mismatched] ∧
      (xmlHandleClient usualRoom plainRuntime noEtree (fun _ => reportIntake) []
        [mismatched] {}).1.captured = [] ∧
      ¬ Covers [] mismatched ∧
      (process usualRoom plainRuntime noEtree (fun _ => reportIntake) mismatched {}).1.captured =
        [mismatched] := by
  have found : cut ([] ++ [mismatched].flatten) = some (mismatched, []) := by decide
  refine ⟨⟨by decide, by decide⟩, ?_, ?_, rfl⟩
  · rw [xmlHandleClient_captured, captured_refused found rfl]
    rfl
  · intro covers
    exact absurd (cut_blank covers) (by decide)

end TacticalGateway.Listeners
