import TacticalGateway.Listeners.XmlDelimiting

/-! What becomes of the bytes that the XML reader receives: after any number of calls they are the
returned payloads, each with the white space dropped behind it, and the buffer. -/
namespace TacticalGateway.Listeners
open Text
open ElementTree (ParserExn)

section
variable (fromstring : Bytes → Except ParserExn String)

/-- Calls that each returned a payload: the payloads, the buffer, and the chunks to come. -/
inductive Calls (chunks : List Bytes) : List Bytes → Bytes → List Bytes → Prop where
  | start : Calls chunks [] [] chunks
  | call {payloads : List Bytes} {buf payload buf' : Bytes} {incoming incoming' : List Bytes}
      (before : Calls chunks payloads buf incoming)
      (read : readOneXmlEvent fromstring buf incoming = .event payload buf' incoming') :
      Calls chunks (payloads ++ [payload]) buf' incoming'

/-- A payload and the white space that was dropped behind it. -/
structure Piece where
  payload : Bytes
  gap : Bytes
  blank : ∀ c ∈ gap, c ∈ gapBytes

def Piece.bytes (p : Piece) : Bytes := p.payload ++ p.gap

/-- The chunks received so far are the pieces of the payloads and the buffer. -/
structure Conserved (chunks payloads : List Bytes) (buf : Bytes) (incoming : List Bytes) :
    Prop where
  split : ∃ (received : List Bytes) (pieces : List Piece), chunks = received ++ incoming ∧
    pieces.map Piece.payload = payloads ∧ received.flatten = pieces.flatMap Piece.bytes ++ buf
  closed : ∀ p ∈ payloads, ClosedOnce p

/-- How the stream ends: with None where nothing but white space is left, and with an error where
there is more, but no close tag. -/
structure Ends (buf : Bytes) (incoming : List Bytes) : Prop where
  none_iff : readOneXmlEvent fromstring buf incoming = .eof ↔
    ∀ c ∈ buf ++ incoming.flatten, c ∈ whitespace
  raises : ¬ closeTag <:+: buf ++ incoming.flatten → ¬ (∀ c ∈ buf ++ incoming.flatten,
    c ∈ whitespace) → readOneXmlEvent fromstring buf incoming = .raised none midEvent

variable {fromstring : Bytes → Except ParserExn String} {chunks payloads incoming : List Bytes}
  {buf : Bytes}

theorem cut_eq_none_iff : cut buf = none ↔ ¬ closeTag <:+: buf := by
  constructor
  · rintro missing ⟨front, rest, parts⟩
    obtain ⟨i, found, _⟩ := find_of_parts closeTag front rest
    rw [parts] at found
    rw [cut, found] at missing
    cases missing
  · intro missing
    cases found : find closeTag buf with
    | none => rw [cut, found, Option.map_none]
    | some i =>
      obtain ⟨front, rest, parts, _⟩ := find_parts found
      exact absurd ⟨front, rest, parts.symm⟩ missing

/-- The call that finds no close tag reads to the end of the stream. -/
theorem readOneXmlEvent_end (missing : cut (buf ++ incoming.flatten) = none) :
    readOneXmlEvent fromstring buf incoming =
      if strip (buf ++ incoming.flatten) = [] then .eof
      else .raised none midEvent := by
  induction incoming generalizing buf with
  | nil =>
    rw [List.flatten_nil, List.append_nil] at missing ⊢
    rw [readOneXmlEvent, missing]
  | cons chunk incoming ih =>
    rw [readOneXmlEvent, cut_none_of_append missing]
    rw [List.flatten_cons, ← List.append_assoc] at missing ⊢
    exact ih missing

theorem deliver_ne_eof {payload rest : Bytes} :
    deliver fromstring payload rest incoming ≠ .eof := by
  unfold deliver
  split <;> exact nofun

theorem readOneXmlEvent_eof (ended : readOneXmlEvent fromstring buf incoming = .eof) :
    cut (buf ++ incoming.flatten) = none := by
  induction incoming generalizing buf with
  | nil =>
    rw [List.flatten_nil, List.append_nil]
    cases found : cut buf with
    | none => rfl
    | some parts => exact absurd (readOneXmlEvent_found fromstring [] found ▸ ended) deliver_ne_eof
  | cons chunk incoming ih =>
    cases found : cut buf with
    | none =>
      rw [readOneXmlEvent, found] at ended
      rw [List.flatten_cons, ← List.append_assoc]
      exact ih ended
    | some parts => exact absurd (readOneXmlEvent_found fromstring _ found ▸ ended) deliver_ne_eof

theorem ends (fromstring : Bytes → Except ParserExn String) (buf : Bytes) (incoming : List Bytes) :
    Ends fromstring buf incoming := by
  have quiet (blank : ∀ c ∈ buf ++ incoming.flatten, c ∈ whitespace) :
      cut (buf ++ incoming.flatten) = none := by
    have no_tag : (0x3C : UInt8) ∉ buf ++ incoming.flatten :=
      fun member => absurd (blank _ member) (by decide)
    rw [← List.append_nil (buf ++ incoming.flatten)]
    exact cut_front_none no_tag rfl
  refine ⟨⟨?_, ?_⟩, ?_⟩
  · intro ended
    rw [readOneXmlEvent_end (readOneXmlEvent_eof ended)] at ended
    split at ended
    · rename_i blank
      exact strip_eq_nil.mp blank
    · cases ended
  · intro blank
    rw [readOneXmlEvent_end (quiet blank), if_pos (strip_eq_nil.mpr blank)]
  · intro missing more
    rw [readOneXmlEvent_end (cut_eq_none_iff.mpr missing),
      if_neg (fun blank => more (strip_eq_nil.mp blank))]

theorem conserved_start (chunks : List Bytes) : Conserved chunks [] [] chunks :=
  ⟨⟨[], [], rfl, rfl, rfl⟩, fun _ member => absurd member (List.not_mem_nil)⟩

theorem conserved_call {payload buf' : Bytes} {incoming' : List Bytes}
    (before : Conserved chunks payloads buf incoming)
    (read : readOneXmlEvent fromstring buf incoming = .event payload buf' incoming') :
    Conserved chunks (payloads ++ [payload]) buf' incoming' := by
  obtain ⟨taken, rest, rfl, found, rfl⟩ := readOneXmlEvent_event fromstring read
  obtain ⟨received, pieces, whole, returned, bytes⟩ := before.split
  refine ⟨⟨received ++ taken,
    pieces ++ [⟨payload, gap rest, gap_blank List.suffix_rfl⟩], ?_, ?_, ?_⟩, ?_⟩
  · rw [whole, List.append_assoc]
  · rw [List.map_append, returned]
    rfl
  · have parts := (cut_parts found).1
    calc (received ++ taken).flatten = pieces.flatMap Piece.bytes ++ (buf ++ taken.flatten) := by
          rw [List.flatten_append, bytes, List.append_assoc]
      _ = pieces.flatMap Piece.bytes ++ (payload ++ (gap rest ++ stripGap rest)) := by
          rw [parts, gap_append_stripGap]
      _ = _ := by simp [Piece.bytes]
  · rw [List.forall_mem_append]
    refine ⟨before.closed, ?_⟩
    simpa using cut_eq_self_iff.mp (cut_self found)

theorem calls_conserved (calls : Calls fromstring chunks payloads buf incoming) :
    Conserved chunks payloads buf incoming := by
  induction calls with
  | start => exact conserved_start chunks
  | call before read ih => exact conserved_call ih read

theorem readEvents_calls (calls : Calls fromstring chunks payloads buf incoming) :
    ∃ buf' incoming', Calls fromstring chunks
      (payloads ++ (readEvents fromstring buf incoming).1) buf' incoming' := by
  induction buf, incoming using readEvents.induct fromstring generalizing payloads with
  | case1 buf incoming payload buf' incoming' read ih =>
    obtain ⟨last, left, later⟩ := ih (.call calls read)
    refine ⟨last, left, ?_⟩
    rw [List.append_assoc] at later
    rwa [readEvents_eq, read]
  | case2 buf incoming read =>
    rw [readEvents_eq, read]
    exact ⟨buf, incoming, by rwa [continueWith, List.append_nil]⟩
  | case3 buf incoming document e read =>
    rw [readEvents_eq, read]
    exact ⟨buf, incoming, by rwa [continueWith, List.append_nil]⟩

/-- No byte is lost, doubled or moved by any calls that return, and the next one ends the stream with
None exactly where white space alone is left. -/
theorem stream_conserved (calls : Calls fromstring chunks payloads buf incoming) :
    Conserved chunks payloads buf incoming ∧ Ends fromstring buf incoming :=
  ⟨calls_conserved calls, ends fromstring buf incoming⟩

end

/-- Two events in two chunks, the second event split between them. -/
theorem stream_conserved_split :
    Conserved [emptyEvent ++ 0x0A :: emptyEvent.take 10, emptyEvent.drop 10 ++ [0x20]]
      [emptyEvent, emptyEvent] [] [] ∧ Ends parseEmptyEvent [] [] := by
  have first : readOneXmlEvent parseEmptyEvent []
      [emptyEvent ++ 0x0A :: emptyEvent.take 10, emptyEvent.drop 10 ++ [0x20]] =
        .event emptyEvent (emptyEvent.take 10) [emptyEvent.drop 10 ++ [0x20]] := rfl
  have second : readOneXmlEvent parseEmptyEvent (emptyEvent.take 10)
      [emptyEvent.drop 10 ++ [0x20]] = .event emptyEvent [] [] := rfl
  exact stream_conserved (.call (.call .start first) second)

end TacticalGateway.Listeners
