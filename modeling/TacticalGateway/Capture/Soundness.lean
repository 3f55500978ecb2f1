import TacticalGateway.Capture.Ledger
import TacticalGateway.Schema.Codec

/-! What holds of the stored manifests over whole runs of the process, and what a capture that
raises leaves behind. -/
namespace TacticalGateway.Capture
open Text Execution

def storedEntries (codec : Codec) (object : Option Bytes) : Option (List ChainEntry) :=
  match object with
  | none => some []
  | some body => codec.readManifest body

def storedLines (object : Option Bytes) : Option (List String) :=
  match object with
  | none => some []
  | some body => (decode body).map splitlines

theorem storedEntries_storedForm (codec : Codec) (chain : List ChainEntry) :
    storedEntries codec (storedForm chain) = some chain := by
  cases chain with
  | nil => rfl
  | cons e es => exact read_render codec (List.cons_ne_nil e es)

theorem storedLines_storedForm (chain : List ChainEntry) :
    storedLines (storedForm chain) = some (chain.map ChainEntry.toJsonl) := by
  cases chain with
  | nil => rfl
  | cons e es =>
    have lines := splitlines_render (List.cons_ne_nil e es)
    simp only [storedForm, storedLines, decode_render, Option.map_some, lines]

/-- Everything known of a process in which no manifest put has failed. -/
structure Kept (start : String → Option Bytes) (base : Date → List ChainEntry) (s : System)
    (j : Journal) : Prop where
  files : Files start base s j
  chained : Chained base s j
  ordered : Ordered s j
  returned : Returned s j
  accounted : Accounted s j

theorem kept_run {start : String → Option Bytes} {base : Date → List ChainEntry} {codec : Codec}
    {s : System} {es : List Event} (found : Found start base)
    (safe : Along (step codec) Safe (.on start) es)
    (reached : run (step codec) (.on start) es = some s) :
    ∃ j, Kept start base s j := by
  refine state_invariant (fun s => ∃ j, Kept start base s j) ?_ ?_ safe reached
  · exact ⟨.empty, files_start found, chained_start found, ordered_start start,
      returned_start start, accounted_start start⟩
  · rintro s e u ⟨j, inv⟩ safe h
    obtain ⟨j', st⟩ := step_cases h j
    exact ⟨j', files_step inv.files st, chained_step inv.files inv.chained safe st,
      ordered_step inv.ordered st, returned_step inv.files inv.returned st,
      accounted_step inv.files inv.chained inv.accounted safe st⟩

theorem crashes_count {codec : Codec} {s : System} {es : List Event}
    (reached : run (step codec) .init es = some s) : s.crashes.length = es.count .crash := by
  refine history_invariant (fun es s => s.crashes.length = es.count .crash) rfl ?_
    (along_true _ _ _) reached
  intro es s e u count _ h
  obtain ⟨_, st⟩ := step_cases h .empty
  rw [List.count_append, ← count]
  cases st <;> simp

/-- With storage that answers, every stored manifest verifies and holds what was captured on
its day: each returned call once, in the order of the locks, and of the others only those
that a crash cut off after their put, or the one still under the lock. -/
theorem manifests_follow_captures (codec : Codec) (es : List Event) (s : System)
    (succeed : Event.fail ∉ es) (reached : run (step codec) .init es = some s) :
    (∀ d, ∃ log : List Logged,
      storedEntries codec (s.bucket (manifestKey d)) = some (entries log) ∧
      verifyChain (entries log) = (true, none) ∧
      (∀ l ∈ log, l.On d) ∧
      (calls log).Sublist s.granted ∧ ((calls log).map Call.id).Nodup ∧
      (∀ x ∈ s.returned, x.call.request.date = d → x.toLogged ∈ log) ∧
      (∀ l ∈ log, l ∈ s.returned.map Return.toLogged ∨ some l ∈ s.crashes ∨
        s.holder.bind Holder.left = some l)) ∧
    s.crashes.length = es.count .crash ∧
    (s.holder = none → ∀ day, s.writer.chainDay = some day → ∃ d chain, day = dayKey d ∧
      storedLines (s.bucket (manifestKey d)) = some s.writer.chainManifestLines ∧
      storedEntries codec (s.bucket (manifestKey d)) = some chain ∧
      s.writer.chainTip = (chain.getLast?.map ChainEntry.entryHash).getD genesisPrevHash) := by
  have safe : Along (step codec) Safe .init es := by
    apply along_of_mem
    rintro e member s rfl
    exact absurd member succeed
  obtain ⟨j, inv⟩ := kept_run found_empty safe reached
  have text (d : Date) : s.bucket (manifestKey d) = storedForm (entries (j.stored d)) := by
    rcases inv.files.manifest d with text | ⟨⟨body, found, _⟩, untouched, _⟩
    · exact text
    · rw [untouched] at found
      cases found
  refine ⟨?_, crashes_count reached, ?_⟩
  · intro d
    refine ⟨j.stored d, ?_, ?_, inv.files.stored d, inv.ordered.stored d, ?_, ?_, inv.accounted d⟩
    · rw [text, storedEntries_storedForm]
    · exact (verifyChain_accepted _).mpr (inv.chained.accepted d)
    · have granted := List.Nodup.of_append_left (List.map_append ▸ inv.ordered.distinct)
      exact granted.sublist ((inv.ordered.stored d).map _)
    · rintro x member rfl
      exact (inv.returned x member).stored
  · intro free day set
    rw [inv.files.day, Option.map_eq_some_iff] at set
    obtain ⟨d, opened, rfl⟩ := set
    obtain ⟨memory, tip⟩ := (inv.chained.tail d opened).free free
    have lines := (inv.files.opened d opened).lines
    refine ⟨d, entries (j.stored d), rfl, ?_, ?_, tip⟩
    · rw [text, storedLines_storedForm, lines, memory]
      rfl
    · rw [text, storedEntries_storedForm]

def emptyMessage : Request := ⟨[], "cot_xml", newYear⟩

def cutOff : List Event :=
  [.call emptyMessage, .grant 0, .resume, .effect, .resume, .effect, .resume,
   .call emptyMessage, .grant 1, .effect, .resume, .effect, .crash]

theorem cutOff_reaches (codec : Codec) : ∃ s, run (step codec) .init cutOff = some s := by
  simp [cutOff, run_cons, step, System.init, System.on, start, CaptureWriter.new, System.settle,
    System.answer, resume, afterRead, rollChain, Holder.put, afterObject, afterManifest,
    manifestKeyFor, Request.date, CaptureWriter.entryFor, makeEntry, sha256_length]

theorem manifests_follow_captures_cutOff : Event.fail ∉ cutOff ∧
    ∃ s, run (step Reader.codec) .init cutOff = some s ∧ s.crashes.length = 1 ∧
      ∀ d, ∃ log : List Logged,
        storedEntries Reader.codec (s.bucket (manifestKey d)) = some (entries log) ∧
        verifyChain (entries log) = (true, none) := by
  obtain ⟨s, reached⟩ := cutOff_reaches Reader.codec
  have succeed : Event.fail ∉ cutOff := by simp [cutOff]
  obtain ⟨manifests, crashed, _⟩ := manifests_follow_captures Reader.codec cutOff s succeed reached
  refine ⟨succeed, s, reached, crashed, ?_⟩
  intro d
  obtain ⟨log, parsed, verified, _⟩ := manifests d
  exact ⟨log, parsed, verified⟩

/-- After a failed call: the fields are as before, or those of a day that was loaded in full. -/
def Restored (codec : Codec) (w w' : CaptureWriter) (r : Request) (replies : List Reply) : Prop :=
  w' = w ∨ ∃ existing, replies.head? = some (.got existing) ∧
    rollChain codec w (dayKey r.date) existing = (w', true)

/-- The call fails neither at the put of the manifest nor on a manifest whose lines replace
others before the last of them turns out unreadable. -/
def FailsEarly (w : CaptureWriter) (replies : List Reply) : Prop :=
  ¬ [.stored, .failed] <:+ replies ∧
  ∀ body text, replies = [.got (some body)] → decode body = some text →
    splitlines text = w.chainManifestLines

def CaptureWriter.withLine (w : CaptureWriter) (line : String) : CaptureWriter :=
  { w with chainManifestLines := w.chainManifestLines ++ [line] }

theorem rollChain_raises {codec : Codec} {w w' : CaptureWriter} {day : String}
    {existing : Option Bytes} (roll : rollChain codec w day existing = (w', false)) :
    ∃ body, existing = some body ∧ (decode body = none ∧ w' = w ∨
      ∃ text, decode body = some text ∧ w' = { w with chainManifestLines := splitlines text }) := by
  cases existing with
  | none => cases roll
  | some body =>
    refine ⟨body, rfl, ?_⟩
    simp only [rollChain] at roll
    split at roll
    · rename_i no_text
      cases roll
      exact .inl ⟨no_text, rfl⟩
    · rename_i text decoded
      split at roll
      · cases roll
      · split at roll
        · cases roll
          exact .inr ⟨text, decoded, rfl⟩
        · cases roll

theorem raised_from_object {codec : Codec} {w w₁ w' : CaptureWriter} {r : Request}
    {replies : List Reply}
    (raised : proceed codec r (.suspended w (.writingObject (w₁.entryFor r))) replies = some
    (.raised w')) :
    (replies = [.failed] ∧ w' = w) ∨
      (replies = [.stored, .failed] ∧ w' = w.withLine (w₁.entryFor r).toJsonl) := by
  cases replies with
  | nil => cases raised
  | cons first rest =>
    cases first with
    | got existing => cases raised
    | failed =>
      cases rest with
      | nil =>
        cases raised
        exact .inl ⟨rfl, rfl⟩
      | cons second rest => cases raised
    | stored =>
      cases rest with
      | nil => cases raised
      | cons second rest =>
        cases second with
        | got existing => cases raised
        | failed =>
          cases rest with
          | nil =>
            cases raised
            exact .inr ⟨rfl, rfl⟩
          | cons third rest => cases raised
        | stored =>
          have length : (w₁.entryFor r).sha256.toList.length = 64 := sha256_length r.rawBytes
          simp only [proceed, resume, afterObject, afterManifest, dif_pos length] at raised
          cases rest <;> cases raised

theorem capture_raises {codec : Codec} {w w' : CaptureWriter} {r : Request} {replies : List Reply}
    (raised : capture codec w r replies = some (.raised w')) :
    (replies = [.failed] ∧ w' = w) ∨
    (replies = [.stored, .failed] ∧ ∃ line, w' = w.withLine line) ∨
    ∃ existing w₁ loaded, w.chainDay ≠ some (dayKey r.date) ∧
      rollChain codec w (dayKey r.date) existing = (w₁, loaded) ∧
      ((loaded = false ∧ replies = [.got existing] ∧ w' = w₁) ∨
       (loaded = true ∧ replies = [.got existing, .failed] ∧ w' = w₁) ∨
       (loaded = true ∧ replies = [.got existing, .stored, .failed] ∧
         ∃ line, w' = w₁.withLine line)) := by
  unfold capture start at raised
  split at raised
  · rcases raised_from_object raised with ⟨rfl, rfl⟩ | ⟨rfl, rfl⟩
    · exact .inl ⟨rfl, rfl⟩
    · exact .inr (.inl ⟨rfl, _, rfl⟩)
  · rename_i other
    cases replies with
    | nil => cases raised
    | cons first rest =>
      cases first with
      | stored => cases raised
      | failed =>
        cases rest with
        | nil =>
          cases raised
          exact .inl ⟨rfl, rfl⟩
        | cons second rest => cases raised
      | got existing =>
        refine .inr (.inr ⟨existing, ?_⟩)
        simp only [proceed, resume, afterRead] at raised
        cases rolled : rollChain codec w (dayKey r.date) existing with
        | mk w₁ loaded =>
          refine ⟨w₁, loaded, other, rfl, ?_⟩
          rw [rolled] at raised
          cases loaded with
          | false =>
            cases rest with
            | nil =>
              cases raised
              exact .inl ⟨rfl, rfl, rfl⟩
            | cons second rest => cases raised
          | true =>
            rcases raised_from_object raised with ⟨rfl, rfl⟩ | ⟨rfl, rfl⟩
            · exact .inr (.inl ⟨rfl, rfl, rfl⟩)
            · exact .inr (.inr ⟨rfl, rfl, _, rfl⟩)

theorem rollChain_day {codec : Codec} {w w' : CaptureWriter} {day : String}
    {existing : Option Bytes} (roll : rollChain codec w day existing = (w', true)) :
    w'.chainDay = some day := by
  unfold rollChain at roll
  split at roll
  · cases roll
    rfl
  · split at roll
    · cases roll
    · simp only at roll
      split at roll
      · cases roll
        rfl
      · split at roll <;> cases roll
        rfl

theorem withLine_ne (w : CaptureWriter) (line : String) : w.withLine line ≠ w := by
  intro same
  have lines := congrArg (fun w => w.chainManifestLines.length) same
  simp [CaptureWriter.withLine] at lines

theorem not_suffix {replies : List Reply} (other : replies.dropLast.getLast? ≠ some .stored) :
    ¬ [.stored, .failed] <:+ replies := by
  rintro ⟨before, rfl⟩
  exact other (by simp)

theorem restored_iff {codec : Codec} {w w' : CaptureWriter} {r : Request} {replies : List Reply}
    (raised : capture codec w r replies = some (.raised w')) :
    Restored codec w w' r replies ↔ FailsEarly w replies := by
  rcases capture_raises raised with ⟨rfl, rfl⟩ | ⟨rfl, line, rfl⟩
    | ⟨existing, w₁, loaded, other, roll, how⟩
  · exact iff_of_true (.inl rfl) ⟨not_suffix nofun, nofun⟩
  · refine iff_of_false ?_ (fun early => early.1 List.suffix_rfl)
    rintro (same | ⟨existing, first, _⟩)
    · exact withLine_ne w line same
    · cases first
  · rcases how with ⟨rfl, rfl, rfl⟩ | ⟨rfl, rfl, rfl⟩ | ⟨rfl, rfl, line, rfl⟩
    · have restored : Restored codec w w' r [.got existing] ↔ w' = w := by
        refine ⟨?_, .inl⟩
        rintro (same | ⟨_, first, again⟩)
        · exact same
        · cases first
          rw [roll] at again
          cases again
      rw [restored]
      obtain ⟨body, rfl, ⟨no_text, rfl⟩ | ⟨text, decoded, rfl⟩⟩ := rollChain_raises roll
      · refine iff_of_true rfl ⟨not_suffix nofun, ?_⟩
        rintro _ text ⟨⟩ decoded
        rw [no_text] at decoded
        cases decoded
      · constructor
        · intro same
          refine ⟨not_suffix nofun, ?_⟩
          rintro _ text' ⟨⟩ decoded'
          cases decoded.symm.trans decoded'
          exact congrArg CaptureWriter.chainManifestLines same
        · intro early
          rw [early.2 body text rfl decoded]
    · exact iff_of_true (.inr ⟨existing, rfl, roll⟩) ⟨not_suffix nofun, nofun⟩
    · refine iff_of_false ?_ (fun early => early.1 ⟨[.got existing], rfl⟩)
      rintro (same | ⟨_, first, again⟩)
      · have day : w.chainDay = w₁.chainDay := (congrArg CaptureWriter.chainDay same).symm
        exact other (day.trans (rollChain_day roll))
      · cases first
        rw [roll] at again
        exact withLine_ne w₁ line (Prod.mk.inj again).1.symm

/-- A call that raises leaves the writer as it was or freshly loaded exactly where it fails
early; and while no manifest put fails, whatever else does, each manifest on the bucket is
a verified chain of its own day's captures, or text that nobody could decode from the start. -/
theorem failed_captures_keep_chains (codec : Codec) :
    (∀ w r replies w', capture codec w r replies = some (.raised w') →
      (Restored codec w w' r replies ↔ FailsEarly w replies)) ∧
    ∀ start base, Found start base → ∀ es s, run (step codec) (.on start) es = some s →
      Along (step codec) Safe (.on start) es →
      ∀ d body, s.bucket (manifestKey d) = some body →
        (∃ log : List Logged, (∀ l ∈ log, l.On d) ∧
          codec.readManifest body = some (base d ++ entries log) ∧
          verifyChain (base d ++ entries log) = (true, none)) ∨
        (start (manifestKey d) = some body ∧ decode body = none) := by
  refine ⟨fun w r replies w' raised => restored_iff raised, ?_⟩
  intro start base found es s reached safe d body stored
  obtain ⟨j, inv⟩ := kept_run found safe reached
  rcases inv.files.manifest d with text | ⟨⟨body', found', no_text⟩, untouched, _⟩
  · refine .inl ⟨j.stored d, inv.files.stored d, ?_,
      (verifyChain_accepted _).mpr (inv.chained.accepted d)⟩
    have parsed := storedEntries_storedForm codec (j.chain base d)
    rw [← text, stored] at parsed
    exact parsed
  · cases stored.symm.trans found'
    exact .inr ⟨untouched ▸ stored, no_text⟩

/-- A capture, and another of that day whose object put fails. -/
def failedObject (r : Request) : List Event :=
  [.call r, .grant 0, .resume, .effect, .resume, .effect, .resume, .call r, .grant 1, .fail]

theorem manifest_after_failedObject :
    ∃ s e, run (step Reader.codec) .init (failedObject emptyMessage) = some s ∧
      Along (step Reader.codec) Safe .init (failedObject emptyMessage) ∧
      s.bucket (manifestKey emptyMessage.date) = some (renderManifest [e]) := by
  simp [failedObject, run_cons, Along, Safe, step, System.init, System.on, start,
    CaptureWriter.new, System.settle, System.answer, resume, afterRead, rollChain, Holder.put,
    Holder.appended, afterObject, afterManifest, manifestKeyFor, Request.date,
    CaptureWriter.entryFor, makeEntry, sha256_length, emptyMessage]
  exact ⟨_, rfl⟩

theorem failed_captures_keep_chains_object :
    Restored Reader.codec .new ⟨some (dayKey emptyMessage.date), genesisPrevHash, []⟩ emptyMessage
      [.got none, .failed] ∧
    ∃ s, run (step Reader.codec) .init (failedObject emptyMessage) = some s ∧
      (s.bucket (manifestKey emptyMessage.date)).isSome = true ∧
      ∀ d body, s.bucket (manifestKey d) = some body →
        ∃ chain, Reader.codec.readManifest body = some chain ∧ verifyChain chain =
          (true, none) := by
  obtain ⟨calls, runs⟩ := failed_captures_keep_chains Reader.codec
  constructor
  · exact (calls .new emptyMessage [.got none, .failed] _ rfl).mpr ⟨not_suffix nofun, nofun⟩
  · obtain ⟨s, e, reached, safe, manifest⟩ := manifest_after_failedObject
    refine ⟨s, reached, by rw [manifest]; rfl, ?_⟩
    intro d body stored
    rcases runs _ _ found_empty _ _ reached safe d body stored with ⟨log, _, parsed, verified⟩
      | ⟨there, _⟩
    · exact ⟨_, parsed, verified⟩
    · cases there

/-- A manifest put that fails, and a capture after it on the same day. -/
def failedPut (r r' : Request) : List Event :=
  [.call r, .grant 0, .resume, .effect, .resume, .fail, .call r', .grant 1, .effect,
    .resume, .effect]

theorem manifest_after_failedPut (codec : Codec) (r r' : Request) (same : r'.date = r.date) :
    ∃ s, run (step codec) .init (failedPut r r') = some s ∧
      s.bucket (manifestKey r.date) = some (renderManifest
        [CaptureWriter.new.entryFor r, CaptureWriter.new.entryFor r']) := by
  have date : r'.capturedAt.date = r.capturedAt.date := same
  simp [failedPut, run_cons, step, System.init, System.on, start, CaptureWriter.new, System.settle,
    System.answer, resume, afterRead, rollChain, Holder.put, afterObject, date, manifestKeyFor,
    Request.date]
  rfl

/-- The second line of that manifest names the genesis value, as the first does. -/
theorem failedPut_breaks_chain :
    (∃ w', capture Reader.codec .new emptyMessage [.got none, .stored, .failed] =
      some (.raised w') ∧
      ¬ Restored Reader.codec .new w' emptyMessage [.got none, .stored, .failed]) ∧
    ∃ s body chain, run (step Reader.codec) .init (failedPut emptyMessage emptyMessage) = some s ∧
      s.bucket (manifestKey emptyMessage.date) = some body ∧
      Reader.codec.readManifest body = some chain ∧ verifyChain chain ≠ (true, none) := by
  constructor
  · refine ⟨_, rfl, ?_⟩
    rw [restored_iff rfl]
    exact fun early => early.1 ⟨[.got none], rfl⟩
  · obtain ⟨s, reached, stored⟩ :=
      manifest_after_failedPut Reader.codec emptyMessage emptyMessage rfl
    refine ⟨s, _, _, reached, stored, read_render _ (by simp), ?_⟩
    rw [ne_eq, verifyChain_accepted]
    rintro ⟨_, _, linked, _⟩
    have unlikely : computeEntryHash genesisPrevHash (sha256 []) emptyMessage.capturedAt ≠
        genesisPrevHash := by
      decide +kernel
    exact unlikely linked.symm

end TacticalGateway.Capture
