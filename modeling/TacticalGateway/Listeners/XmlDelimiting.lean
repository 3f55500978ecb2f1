import TacticalGateway.Listeners.RawCapture

/-! Which documents the XML reader tells apart. It looks for the bytes of the close tag, so a
document is delimited where these bytes are its end and stand nowhere else in it. -/
namespace TacticalGateway.Listeners
open Text
open ElementTree (ParserExn)

/-- The document ends with the close tag, and has it nowhere else. -/
def ClosedOnce (d : Bytes) : Prop :=
  (∃ body, d = body ++ closeTag) ∧ ∀ front rest, d = front ++ closeTag ++ rest → rest = []

theorem cut_eq_self_iff {d : Bytes} : cut d = some (d, []) ↔ ClosedOnce d := by
  constructor
  · intro event
    obtain ⟨idx, found, parts⟩ := Option.map_eq_some_iff.mp event
    have reaches : d.length ≤ idx + closeTag.length :=
      List.drop_eq_nil_iff.mp (congrArg Prod.snd parts)
    refine ⟨?_, ?_⟩
    · obtain ⟨front, rest, same, length⟩ := find_parts found
      have total := congrArg List.length same
      simp only [List.length_append] at total
      have none_left : rest = [] := List.eq_nil_of_length_eq_zero (by omega)
      rw [none_left, List.append_nil] at same
      exact ⟨front, same⟩
    · intro front rest same
      obtain ⟨i, at_i, early⟩ := find_of_parts closeTag front rest
      rw [← same, found] at at_i
      cases at_i
      have total := congrArg List.length same
      simp only [List.length_append] at total
      exact List.eq_nil_of_length_eq_zero (by omega)
  · rintro ⟨⟨body, same⟩, only⟩
    obtain ⟨i, found, _⟩ := find_of_parts closeTag body []
    rw [List.append_nil, ← same] at found
    obtain ⟨front, rest, parts, length⟩ := find_parts found
    have whole : d = front ++ closeTag := by
      rw [only front rest parts, List.append_nil] at parts
      exact parts
    have reaches : i + closeTag.length = d.length := by
      rw [whole, List.length_append, length]
    rw [cut, found, Option.map_some, reaches, List.take_length, List.drop_length]

section
variable (fromstring : Bytes → Except ParserExn String)

theorem readOneXmlEvent_payload {buf payload buf' : Bytes} {chunks chunks' : List Bytes}
    (h : readOneXmlEvent fromstring buf chunks = .event payload buf' chunks') :
    cut payload = some (payload, []) ∧
      payload.length + buf'.length + chunks'.flatten.length ≤
        buf.length + chunks.flatten.length := by
  obtain ⟨taken, rest, rfl, found, rfl⟩ := readOneXmlEvent_event fromstring h
  have total := congrArg List.length (cut_parts found).1
  have le := stripGap_length rest
  simp only [List.length_append, List.flatten_append] at total ⊢
  exact ⟨cut_self found, by omega⟩

theorem readEvents_payloads (buf : Bytes) (chunks : List Bytes) :
    (∀ p ∈ (readEvents fromstring buf chunks).1, cut p = some (p, [])) ∧
      (readEvents fromstring buf chunks).1.flatten.length ≤ buf.length + chunks.flatten.length := by
  induction buf, chunks using readEvents.induct fromstring with
  | case1 buf chunks payload buf' chunks' read ih =>
    rw [readEvents_eq, read]
    obtain ⟨event, less⟩ := readOneXmlEvent_payload fromstring read
    refine ⟨List.forall_mem_cons.mpr ⟨event, ih.1⟩, ?_⟩
    have bound := ih.2
    simp only [continueWith, List.flatten_cons, List.length_append]
    omega
  | case2 buf chunks read =>
    rw [readEvents_eq, read]
    simp [continueWith]
  | case3 buf chunks document e read =>
    rw [readEvents_eq, read]
    simp [continueWith]

def Delimits (docs : List Bytes) : Prop :=
  ∀ chunks, Delivered docs.flatten chunks → readEvents fromstring [] chunks = (docs, .eof)

/-- No document but the first begins with white space. -/
def Adjacent (docs : List Bytes) : Prop :=
  ∀ d ∈ docs.tail, ∀ c, d.head? = some c → c ∉ gapBytes

end

variable {fromstring : Bytes → Except ParserExn String} {d : Bytes} {docs : List Bytes}

theorem ClosedOnce.ne_nil (closed : ClosedOnce d) : d ≠ [] := by
  obtain ⟨⟨body, rfl⟩, _⟩ := closed
  exact List.append_ne_nil_of_right_ne_nil body (List.cons_ne_nil _ _)

theorem stripGap_of_head (starts : ∀ c, d.head? = some c → c ∉ gapBytes) :
    gap d = [] ∧ stripGap d = d := by
  cases d with
  | nil => exact ⟨rfl, rfl⟩
  | cons c d =>
    have other : decide (c ∈ gapBytes) = false := decide_eq_false (starts c rfl)
    simp only [gap, stripGap, List.takeWhile_cons, List.dropWhile_cons, other, Bool.false_eq_true,
      if_false, and_self]

theorem Adjacent.rest (adjacent : Adjacent (d :: docs)) (closed : ∀ e ∈ docs, ClosedOnce e) :
    Adjacent docs ∧ ∀ c, docs.flatten.head? = some c → c ∉ gapBytes := by
  refine ⟨fun e member => adjacent e (List.mem_of_mem_tail member), ?_⟩
  cases docs with
  | nil =>
    intro c contrary
    cases contrary
  | cons e docs =>
    intro c starts
    rw [List.flatten_cons,
      List.head?_append_of_ne_nil _ (closed e List.mem_cons_self).ne_nil] at starts
    exact adjacent e List.mem_cons_self c starts

theorem gapsHarmless_docs (accepted : ∀ e ∈ docs, accepts fromstring e = true)
    (closed : ∀ e ∈ docs, ClosedOnce e) (adjacent : Adjacent docs) :
    GapsHarmless fromstring docs.flatten ∧
      readEvents fromstring docs.flatten [] = (docs, .eof) := by
  induction docs with
  | nil =>
    refine ⟨?_, ?_⟩
    · rw [List.flatten_nil, GapsHarmless]
      trivial
    · rw [List.flatten_nil, readEvents_end fromstring rfl]
      rfl
  | cons d docs ih =>
    rw [List.forall_mem_cons] at accepted closed
    obtain ⟨later, starts⟩ := adjacent.rest closed.2
    obtain ⟨harmless, whole⟩ := ih accepted.2 closed.2 later
    obtain ⟨no_gap, kept⟩ := stripGap_of_head starts
    have found := cut_append docs.flatten (cut_eq_self_iff.mpr closed.1)
    rw [List.flatten_cons]
    refine ⟨(gapsHarmless_iff fromstring found).mpr fun _ => ?_, ?_⟩
    · rw [List.nil_append, if_pos no_gap]
      exact harmless
    · rw [readEvents_accepted fromstring [] found accepted.1, List.nil_append, kept, whole]

theorem delimits_of_closed (accepted : ∀ e ∈ docs, accepts fromstring e = true)
    (closed : ∀ e ∈ docs, ClosedOnce e) (adjacent : Adjacent docs) :
    Delimits fromstring docs := by
  rintro chunks ⟨stream, _⟩
  obtain ⟨harmless, whole⟩ := gapsHarmless_docs accepted closed adjacent
  have same := summary_harmless fromstring _ [] chunks (Nat.le_refl _) (by
    rw [List.nil_append, stream]
    exact harmless)
  rw [List.nil_append, stream, whole] at same
  obtain ⟨payloads, clean⟩ := Prod.mk.inj same
  refine Prod.ext payloads ?_
  cases ending : (readEvents fromstring [] chunks).2 with
  | eof => rfl
  | raised document e =>
    rw [ending] at clean
    cases clean

def Returns (fromstring : Bytes → Except ParserExn String) (docs : List Bytes) : Prop :=
  ∀ chunks, Delivered docs.flatten chunks → capturedFrom fromstring (fun _ => True) [] chunks = docs

theorem captured_all (buf : Bytes) (chunks : List Bytes) :
    capturedFrom fromstring (fun _ => True) buf chunks = (readEvents fromstring buf chunks).1 := by
  unfold capturedFrom
  induction (readEvents fromstring buf chunks).1 with
  | nil => rfl
  | cons payload payloads ih => rw [kept, if_pos trivial, ih]

theorem Returns.closed (returns : Returns fromstring docs) : ∀ e ∈ docs, ClosedOnce e := by
  have all := returns _ (delivered_bytewise _)
  rw [captured_all] at all
  intro e member
  rw [← all] at member
  exact cut_eq_self_iff.mp ((readEvents_payloads fromstring _ _).1 e member)

theorem Returns.behind (returns : Returns fromstring (d :: docs))
    (ok : accepts fromstring d = true) {u later : Bytes} (blank : ∀ c ∈ u, c ∈ gapBytes)
    (short : u.length < readLimit) (split : docs.flatten = u ++ later) {chunks : List Bytes}
    (delivered : Delivered later chunks) :
    capturedFrom fromstring (fun _ => True) [] chunks = docs := by
  have closed := returns.closed d List.mem_cons_self
  have event := cut_eq_self_iff.mpr closed
  obtain ⟨p, c, rfl⟩ : ∃ p c, d = p ++ [c] :=
    ⟨_, _, (List.dropLast_append_getLast closed.ne_nil).symm⟩
  have pieces := delivered_late (p := p) (c := c) delivered short
  rw [← split, ← List.flatten_cons] at pieces
  have all := returns _ pieces
  rw [captured_late event ok trivial blank] at all
  exact (List.cons.inj all).2

theorem Returns.adjacent (returns : Returns fromstring docs)
    (accepted : ∀ e ∈ docs, accepts fromstring e = true) : Adjacent docs := by
  induction docs with
  | nil =>
    intro e member
    cases member
  | cons d docs ih =>
    have ok := accepted d List.mem_cons_self
    have later : Returns fromstring docs := fun chunks delivered =>
      returns.behind ok (u := []) (fun c member => absurd member (List.not_mem_nil))
        (by decide) rfl delivered
    have rest := ih later fun e member => accepted e (List.mem_cons_of_mem d member)
    cases docs with
    | nil =>
      intro e member
      cases member
    | cons e docs =>
      refine List.forall_mem_cons.mpr ⟨?_, rest⟩
      intro c starts blank
      obtain ⟨tail, rfl⟩ : ∃ tail, e = c :: tail := by
        cases e with
        | nil => cases starts
        | cons c' tail =>
          cases Option.some.inj starts
          exact ⟨tail, rfl⟩
      have split : ((c :: tail) :: docs).flatten = [c] ++ (tail ++ docs.flatten) := rfl
      have all := returns.behind ok (by simpa using blank) (by simp [readLimit]) split
        (delivered_bytewise _)
      have bound := (readEvents_payloads fromstring [] (bytewise (tail ++ docs.flatten))).2
      rw [← captured_all, all, flatten_bytewise] at bound
      simp only [List.flatten_cons, List.length_append, List.length_cons, List.length_nil] at bound
      omega

/-- Accepted documents are delimited, however they arrive, exactly where each has the close tag at
its end alone and none but the first begins with white space. -/
theorem delimits_iff (accepted : ∀ e ∈ docs, accepts fromstring e = true) :
    Delimits fromstring docs ↔ (∀ e ∈ docs, ClosedOnce e) ∧ Adjacent docs := by
  constructor
  · intro delimits
    have returns : Returns fromstring docs := by
      intro chunks delivered
      rw [captured_all, delimits chunks delivered]
    exact ⟨returns.closed, returns.adjacent accepted⟩
  · rintro ⟨closed, adjacent⟩
    exact delimits_of_closed accepted closed adjacent

theorem delimits_iff_empty_events : Delimits parseEmptyEvent [emptyEvent, emptyEvent] := by
  have closed : ClosedOnce emptyEvent := cut_eq_self_iff.mp (by decide)
  refine (delimits_iff (by decide)).mpr ⟨?_, ?_⟩
  · simpa using closed
  · intro d member c starts
    cases List.mem_singleton.mp member
    cases Option.some.inj starts
    decide

/-- `b"<event></event >"`. -/
def spacedEvent : Bytes :=
  [0x3C, 0x65, 0x76, 0x65, 0x6E, 0x74, 0x3E] ++ closeTag.dropLast ++ [0x20, 0x3E]

/-- The XML parser on the event whose end tag has a blank, and on nothing else. -/
def parseSpacedEvent (payload : Bytes) : Except ParserExn String :=
  if payload = spacedEvent then .ok "event" else .error (.parseError "syntax error")

/-- The end tag with a blank is not found, and the event ends in an error at the close. -/
theorem spaced_tag_not_delimited :
    accepts parseSpacedEvent spacedEvent = true ∧ Delivered [spacedEvent].flatten [spacedEvent] ∧
      readEvents parseSpacedEvent [] [spacedEvent] =
        ([], .raised none midEvent) := by
  refine ⟨by decide, ⟨rfl, by decide⟩, ?_⟩
  rw [readEvents_more _ _ _ rfl, readEvents_end _ (by decide)]
  rfl

end TacticalGateway.Listeners
