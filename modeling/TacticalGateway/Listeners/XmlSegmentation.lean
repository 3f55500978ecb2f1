import TacticalGateway.Listeners.XmlFraming

/-! When the XML reader's result depends on how TCP cut the stream. White space between two
events is dropped only as far as it is buffered when the first of them is complete; the rest
of it becomes the front of the second. -/
namespace TacticalGateway.Listeners
open Text
open ElementTree (ParserExn)

theorem cut_append {buf payload rest : Bytes} (more : Bytes) (h : cut buf = some (payload, rest)) :
    cut (buf ++ more) = some (payload, rest ++ more) := by
  obtain ⟨idx, found, parts⟩ := Option.map_eq_some_iff.mp h
  cases parts
  have le := find_le found
  rw [cut, find_append more found, Option.map_some, List.take_append_of_le_length le,
    List.drop_append_of_le_length le]

theorem cut_self {buf payload rest : Bytes} (h : cut buf = some (payload, rest)) :
    cut payload = some (payload, []) := by
  obtain ⟨idx, found, parts⟩ := Option.map_eq_some_iff.mp h
  cases parts
  rw [cut, find_take found, Option.map_some, List.take_take, Nat.min_self, List.drop_take,
    Nat.sub_self,
    List.take_zero]

theorem cut_none_of_append {buf more : Bytes} (h : cut (buf ++ more) = none) : cut buf = none := by
  cases found : cut buf with
  | none => rfl
  | some parts =>
    rw [cut_append more found] at h
    cases h

theorem cut_front {v r event after : Bytes} (skip : (0x3C : UInt8) ∉ v)
    (h : cut r = some (event, after)) : cut (v ++ r) = some (v ++ event, after) := by
  obtain ⟨idx, found, parts⟩ := Option.map_eq_some_iff.mp h
  cases parts
  have moved : find closeTag (v ++ r) = some (idx + v.length) := by
    rw [closeTag, find_skip r skip, ← closeTag, found]
    rfl
  rw [cut, moved, Option.map_some, Nat.add_right_comm, Nat.add_comm _ v.length,
    List.take_length_add_append,
    List.drop_length_add_append]

theorem cut_front_none {v r : Bytes} (skip : (0x3C : UInt8) ∉ v) (h : cut r = none) :
    cut (v ++ r) = none := by
  have missing : find closeTag r = none := by simpa [cut] using h
  rw [cut, closeTag, find_skip r skip, ← closeTag, missing]
  rfl

theorem gap_skip {v : Bytes} (blank : ∀ c ∈ v, c ∈ gapBytes) : (0x3C : UInt8) ∉ v :=
  fun member => absurd (blank _ member) (by decide)

theorem cut_gap {v r event after : Bytes} (blank : ∀ c ∈ v, c ∈ gapBytes)
    (h : cut r = some (event, after)) : cut (v ++ r) = some (v ++ event, after) :=
  cut_front (gap_skip blank) h

theorem cut_gap_none {v r : Bytes} (blank : ∀ c ∈ v, c ∈ gapBytes) (h : cut r = none) :
    cut (v ++ r) = none := cut_front_none (gap_skip blank) h

theorem strip_gap {v r : Bytes} (blank : ∀ c ∈ v, c ∈ gapBytes) :
    strip (v ++ r) = [] ↔ strip r = [] := by
  have spaces : ∀ c ∈ gapBytes, c ∈ whitespace := by simp [gapBytes, whitespace]
  rw [strip_eq_nil, strip_eq_nil, List.forall_mem_append]
  exact and_iff_right (fun c member => spaces c (blank c member))

theorem gap_blank {rest v : Bytes} (suffix : v <:+ gap rest) : ∀ c ∈ v, c ∈ gapBytes := by
  intro c member
  simpa using List.mem_takeWhile_imp (suffix.subset member)

theorem gap_append_stripGap (rest : Bytes) : gap rest ++ stripGap rest = rest :=
  List.takeWhile_append_dropWhile

theorem stripGap_append (rest later : Bytes) :
    ∃ v, v <:+ gap (rest ++ later) ∧ stripGap rest ++ later = v ++ stripGap (rest ++ later) := by
  unfold stripGap gap
  rw [List.dropWhile_append, List.takeWhile_append]
  cases kept : rest.dropWhile (fun c => decide (c ∈ gapBytes)) with
  | nil =>
    have all : (rest.takeWhile (fun c => decide (c ∈ gapBytes))).length = rest.length := by
      have whole := congrArg List.length (List.takeWhile_append_dropWhile
        (p := fun c => decide (c ∈ gapBytes)) (l := rest))
      rw [kept, List.append_nil] at whole
      exact whole
    refine ⟨later.takeWhile (fun c => decide (c ∈ gapBytes)), ?_, ?_⟩
    · rw [if_pos all]
      exact List.suffix_append _ _
    · simp
  | cons c cs => exact ⟨[], List.nil_suffix, rfl⟩

section
variable (fromstring : Bytes → Except ParserExn String)

/-- The payloads, and whether the stream ended between events. -/
def summary (r : List Bytes × Ending) : List Bytes × Bool := (r.1, r.2.clean)

/-- After every accepted event that is directly followed by the next one, up to the first gap:
the event behind that gap is refused with any part of the gap in front of it. -/
def GapsHarmless (s : Bytes) : Prop :=
  match _found : cut s with
  | none => True
  | some (payload, rest) =>
    accepts fromstring payload = true →
      if gap rest = [] then GapsHarmless rest
      else ∀ event after, cut (stripGap rest) = some (event, after) →
        ∀ v, v <:+ gap rest → accepts fromstring (v ++ event) = false
termination_by s.length
decreasing_by
  obtain ⟨parts, pos⟩ := cut_parts _found
  rw [parts, List.length_append]
  omega

theorem gapsHarmless_iff {s payload rest : Bytes} (found : cut s = some (payload, rest)) :
    GapsHarmless fromstring s ↔ (accepts fromstring payload = true →
      if gap rest = [] then GapsHarmless fromstring rest
      else ∀ event after, cut (stripGap rest) = some (event, after) →
        ∀ v, v <:+ gap rest → accepts fromstring (v ++ event) = false) := by
  rw [GapsHarmless]
  split
  · rename_i missing
    rw [missing] at found
    cases found
  · rename_i p r here
    cases here.symm.trans found
    rfl

theorem summary_no_event {buf : Bytes} {chunks : List Bytes}
    (missing : cut (buf ++ chunks.flatten) = none) :
    summary (readEvents fromstring buf chunks) =
      ([], decide (strip (buf ++ chunks.flatten) = [])) := by
  induction chunks generalizing buf with
  | nil =>
    rw [List.flatten_nil, List.append_nil] at missing ⊢
    rw [readEvents_end fromstring missing]
    by_cases blank : strip buf = [] <;> simp [summary, blank, Ending.clean]
  | cons chunk chunks ih =>
    rw [readEvents_more fromstring chunk chunks (cut_none_of_append missing)]
    rw [List.flatten_cons, ← List.append_assoc] at missing ⊢
    exact ih missing

theorem summary_refused {buf payload rest : Bytes} {chunks : List Bytes}
    (found : cut (buf ++ chunks.flatten) = some (payload, rest))
    (bad : accepts fromstring payload = false) :
    summary (readEvents fromstring buf chunks) = ([], false) := by
  induction chunks generalizing buf with
  | nil =>
    rw [List.flatten_nil, List.append_nil] at found
    obtain ⟨message, refused⟩ := readEvents_refused fromstring [] found bad
    rw [refused]
    rfl
  | cons chunk chunks ih =>
    cases here : cut buf with
    | none =>
      rw [readEvents_more fromstring chunk chunks here]
      rw [List.flatten_cons, ← List.append_assoc] at found
      exact ih found
    | some parts =>
      obtain ⟨p, r⟩ := parts
      cases (cut_append _ here).symm.trans found
      obtain ⟨message, refused⟩ := readEvents_refused fromstring (chunk :: chunks) here bad
      rw [refused]
      rfl

theorem summary_accepted {buf payload rest : Bytes} (chunks : List Bytes)
    (found : cut buf = some (payload, rest)) (ok : accepts fromstring payload = true) :
    summary (readEvents fromstring buf chunks) =
      (payload :: (summary (readEvents fromstring (stripGap rest) chunks)).1,
        (summary (readEvents fromstring (stripGap rest) chunks)).2) := by
  rw [readEvents_accepted fromstring chunks found ok]
  rfl

/-- What follows an accepted event does not depend on the cuts either, by the induction
hypothesis where the next event is adjacent, by the refusal where a gap comes first. -/
theorem summary_after_event {rest : Bytes} {chunks : List Bytes}
    (harmless : if gap (rest ++ chunks.flatten) = [] then
        GapsHarmless fromstring (rest ++ chunks.flatten)
      else ∀ event after, cut (stripGap (rest ++ chunks.flatten)) = some (event, after) →
        ∀ v, v <:+ gap (rest ++ chunks.flatten) → accepts fromstring (v ++ event) = false)
    (ih : GapsHarmless fromstring (stripGap rest ++ chunks.flatten) →
      summary (readEvents fromstring (stripGap rest) chunks) =
        summary (readEvents fromstring (stripGap rest ++ chunks.flatten) [])) :
    summary (readEvents fromstring (stripGap rest) chunks) =
      summary (readEvents fromstring (stripGap (rest ++ chunks.flatten)) []) := by
  obtain ⟨v, suffix, joined⟩ := stripGap_append rest chunks.flatten
  have blank := gap_blank suffix
  by_cases adjacent : gap (rest ++ chunks.flatten) = []
  · rw [if_pos adjacent] at harmless
    have whole : stripGap (rest ++ chunks.flatten) = rest ++ chunks.flatten := by
      have parts := gap_append_stripGap (rest ++ chunks.flatten)
      rwa [adjacent, List.nil_append] at parts
    rw [adjacent, List.suffix_nil] at suffix
    rw [suffix, List.nil_append] at joined
    rw [← joined]
    apply ih
    rw [joined, whole]
    exact harmless
  · rw [if_neg adjacent] at harmless
    cases next : cut (stripGap (rest ++ chunks.flatten)) with
    | none =>
      have moved : cut (stripGap rest ++ chunks.flatten) = none := by
        rw [joined]
        exact cut_gap_none blank next
      have still : cut (stripGap (rest ++ chunks.flatten) ++ [].flatten) = none := by
        rwa [List.flatten_nil, List.append_nil]
      rw [summary_no_event fromstring moved, summary_no_event fromstring still, joined,
        List.flatten_nil, List.append_nil]
      simp only [strip_gap blank]
    | some parts =>
      obtain ⟨event, after⟩ := parts
      have moved : cut (stripGap rest ++ chunks.flatten) = some (v ++ event, after) := by
        rw [joined]
        exact cut_gap blank next
      have still : cut (stripGap (rest ++ chunks.flatten) ++ [].flatten) = some (event, after) := by
        rwa [List.flatten_nil, List.append_nil]
      rw [summary_refused fromstring moved (harmless event after next v suffix),
        summary_refused fromstring still (harmless event after next [] (List.nil_suffix))]

/-- With harmless gaps every way of cutting the stream reads as the uncut stream does. -/
theorem summary_harmless (n : Nat) (buf : Bytes) (chunks : List Bytes)
    (size : buf.length + chunks.flatten.length + chunks.length ≤ n)
    (harmless : GapsHarmless fromstring (buf ++ chunks.flatten)) :
    summary (readEvents fromstring buf chunks) =
      summary (readEvents fromstring (buf ++ chunks.flatten) []) := by
  induction n generalizing buf chunks with
  | zero =>
    have none_left : chunks = [] := List.length_eq_zero_iff.mp (by omega)
    rw [none_left, List.flatten_nil, List.append_nil]
  | succ n ih =>
    cases chunks with
    | nil => rw [List.flatten_nil, List.append_nil]
    | cons chunk chunks =>
      cases here : cut buf with
      | none =>
        rw [readEvents_more fromstring chunk chunks here]
        rw [List.flatten_cons, ← List.append_assoc] at harmless ⊢
        apply ih (buf ++ chunk) chunks _ harmless
        rw [List.flatten_cons, List.length_append, List.length_cons] at size
        rw [List.length_append]
        omega
      | some parts =>
        obtain ⟨payload, rest⟩ := parts
        have found := cut_append (chunk :: chunks).flatten here
        have still : cut (buf ++ (chunk :: chunks).flatten ++ [].flatten) =
            some (payload, rest ++ (chunk :: chunks).flatten) := by
          rwa [List.flatten_nil, List.append_nil]
        cases verdict : accepts fromstring payload with
        | false =>
          rw [summary_refused fromstring found verdict, summary_refused fromstring still verdict]
        | true =>
          have after := (gapsHarmless_iff fromstring found).mp harmless verdict
          rw [summary_accepted fromstring _ here verdict,
            summary_accepted fromstring _ found verdict]
          rw [summary_after_event fromstring after]
          apply ih
          obtain ⟨whole, pos⟩ := cut_parts here
          have le := stripGap_length rest
          rw [whole, List.length_append] at size
          omega

/-- The result is a function of what the peer sent. -/
def SegmentationFree (s : Bytes) : Prop :=
  ∀ chunks chunks' : List Bytes, (∀ c ∈ chunks, c ≠ []) → (∀ c ∈ chunks', c ≠ []) →
    chunks.flatten = s → chunks'.flatten = s →
    summary (readEvents fromstring [] chunks) = summary (readEvents fromstring [] chunks')

variable {fromstring}

theorem summary_two_chunks {payload u r : Bytes} (event : cut payload = some (payload, []))
    (ok : accepts fromstring payload = true) (blank : ∀ c ∈ u, c ∈ gapBytes) :
    summary (readEvents fromstring [] [payload ++ u, r]) =
      (payload :: (summary (readEvents fromstring r [])).1,
        (summary (readEvents fromstring r [])).2) := by
  have found := cut_append u event
  have dropped : stripGap ([] ++ u) = [] := by
    rw [List.nil_append, stripGap, List.dropWhile_eq_nil_iff]
    intro c member
    exact decide_eq_true (blank c member)
  rw [readEvents_more fromstring _ _ rfl, List.nil_append,
    summary_accepted fromstring _ found ok, dropped,
    readEvents_more fromstring _ _ rfl, List.nil_append]

theorem SegmentationFree.rest {s payload rest : Bytes} (free : SegmentationFree fromstring s)
    (found : cut s = some (payload, rest)) (ok : accepts fromstring payload = true) :
    SegmentationFree fromstring rest := by
  obtain ⟨whole, pos⟩ := cut_parts found
  have event := cut_self found
  have first (chunks : List Bytes) : summary (readEvents fromstring [] (payload :: chunks)) =
      (payload :: (summary (readEvents fromstring [] chunks)).1,
        (summary (readEvents fromstring [] chunks)).2) := by
    rw [readEvents_more fromstring _ _ rfl, List.nil_append, summary_accepted fromstring _ event ok]
    rfl
  have nonempty : payload ≠ [] := List.ne_nil_of_length_pos pos
  intro chunks chunks' full full' same same'
  have both := free (payload :: chunks) (payload :: chunks') ?_ ?_ ?_ ?_
  · rw [first, first] at both
    have parts := Prod.mk.inj both
    exact Prod.ext (List.cons.inj parts.1).2 parts.2
  · exact List.forall_mem_cons.mpr ⟨nonempty, full⟩
  · exact List.forall_mem_cons.mpr ⟨nonempty, full'⟩
  · rw [List.flatten_cons, same, whole]
  · rw [List.flatten_cons, same', whole]

theorem SegmentationFree.gap {s payload rest : Bytes} (free : SegmentationFree fromstring s)
    (found : cut s = some (payload, rest)) (ok : accepts fromstring payload = true)
    (more : stripGap rest ≠ []) {v v' : Bytes} (suffix : v <:+ gap rest)
    (suffix' : v' <:+ gap rest) :
    summary (readEvents fromstring (v ++ stripGap rest) []) =
      summary (readEvents fromstring (v' ++ stripGap rest) []) := by
  obtain ⟨whole, pos⟩ := cut_parts found
  have event := cut_self found
  have late (v : Bytes) (suffix : v <:+ Listeners.gap rest) : ∃ u,
      (∀ c ∈ u, c ∈ gapBytes) ∧ s = payload ++ u ++ (v ++ stripGap rest) := by
    obtain ⟨u, parts⟩ := suffix
    refine ⟨u, ?_, ?_⟩
    · intro c member
      have whole_gap : Listeners.gap rest <:+ Listeners.gap rest := List.suffix_rfl
      exact gap_blank whole_gap c (parts ▸ List.mem_append_left v member)
    · rw [whole, List.append_assoc, ← List.append_assoc u, parts, gap_append_stripGap]
  obtain ⟨u, blank, joined⟩ := late v suffix
  obtain ⟨u', blank', joined'⟩ := late v' suffix'
  have full (u v : Bytes) : ∀ c ∈ [payload ++ u, v ++ stripGap rest], c ≠ [] := by
    intro c member
    rcases List.mem_pair.mp member with rfl | rfl
    · exact List.append_ne_nil_of_left_ne_nil (List.ne_nil_of_length_pos pos) u
    · exact List.append_ne_nil_of_right_ne_nil v more
  have both := free [payload ++ u, v ++ stripGap rest] [payload ++ u', v' ++ stripGap rest]
    (full u v) (full u' v') (by simp [joined]) (by simp [joined'])
  rw [summary_two_chunks event ok blank, summary_two_chunks event ok blank'] at both
  have parts := Prod.mk.inj both
  exact Prod.ext (List.cons.inj parts.1).2 parts.2

end

/-- `b"<event></event>"`. -/
def emptyEvent : Bytes := [0x3C, 0x65, 0x76, 0x65, 0x6E, 0x74, 0x3E] ++ closeTag

/-- The XML parser on blank-prefixed empty events, and on nothing else. -/
def parseEmptyEvent (payload : Bytes) : Except ParserExn String :=
  if lstrip payload = emptyEvent then .ok "event" else .error (.parseError "syntax error")

end TacticalGateway.Listeners
