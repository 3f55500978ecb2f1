import TacticalGateway.Capture.Soundness
import TacticalGateway.Lib.TextFile
import TacticalGateway.Normalizers.DetailTree

/-! The command-line verifier of an exported manifest: what it says of the manifests that the
capture writer leaves, and what two reports of it have in common. -/
namespace TacticalGateway.Tools
open Text hiding strip
open Execution
open Normalizers (strip stripChars stripLeft isSpace)
open Capture (manifestKey Found Logged entries calls Call Return Holder Safe)

/-- How the process ends: `main` returns, having printed on the two streams, or it raises. -/
inductive Exit where
  | code (n : Nat) (stdout stderr : String)
  | raised
  deriving DecidableEq

/-- `ChainEntry.from_jsonl` of each line of the open file that is not blank. -/
def readEntries (codec : Codec) (text : String) : Option (List ChainEntry) :=
  codec.fromLines ((fileLines text).filter (fun line => strip line ≠ ""))

def chainOk (entries : List ChainEntry) (last : ChainEntry) : String :=
  "CHAIN OK  entries=" ++ decimal entries.length ++
    "  tip=" ++ prefixOf 16 last.entryHash ++ "...\n"

def report (entries : List ChainEntry) : Exit :=
  match verifyChain entries with
  | (true, _) =>
    match entries.getLast? with
    -- `entries[-1]` of a file without lines
    | none => .raised
    | some last => .code 0 (chainOk entries last) ""
  | (false, err) => .code 1 "" ("CHAIN BROKEN: " ++ err.getD "None" ++ "\n")

def main (codec : Codec) (files : String → Option Bytes) (argv : List String) : Exit :=
  match argv with
  | [_, path] =>
    match (files path).bind decode with
    | none => .raised
    | some text =>
      match readEntries codec text with
      | none => .raised
      | some entries => report entries
  | _ => .code 2 "" "usage: python -m tools.verify_chain <manifest.jsonl>\n"

section Reading

theorem verifyFrom_cases (prev : String) (i : Nat) (entries : List ChainEntry) :
    verifyFrom prev i entries = (true, none) ∨
      ∃ err, verifyFrom prev i entries = (false, some err) := by
  induction entries generalizing prev i with
  | nil => exact .inl rfl
  | cons e es ih =>
    unfold verifyFrom
    split
    · exact .inr ⟨_, rfl⟩
    · split
      · exact .inr ⟨_, rfl⟩
      · exact ih e.entryHash (i + 1)

theorem strip_ne_empty {s : String} {c : Char} (member : c ∈ s.toList) (other : isSpace c = false) :
    strip s ≠ "" := by
  intro empty
  have chars : stripChars s.toList = [] := by
    have shown := congrArg String.toList empty
    rwa [strip, String.toList_ofList] at shown
  rw [stripChars, List.reverse_eq_nil_iff, stripLeft, List.dropWhile_eq_nil_iff] at chars
  have kept : c ∈ stripLeft s.toList := by
    have parts := List.takeWhile_append_dropWhile (p := isSpace) (l := s.toList)
    rw [← parts, List.mem_append] at member
    rcases member with blank | kept
    · exact absurd (List.mem_takeWhile_imp blank) (by simp [other])
    · exact kept
  exact absurd (chars c (List.mem_reverse.mpr kept)) (by simp [other])

theorem brace_mem (front : String) : '\x7d' ∈ (front ++ "\x7d" ++ "\n").toList := by
  simp

theorem line_not_blank (e : ChainEntry) : strip (e.toJsonl ++ "\n") ≠ "" := by
  unfold ChainEntry.toJsonl jsonDumps
  exact strip_ne_empty (brace_mem _) (by decide)

/-- `json.loads` takes no notice of the line feed that a line of the file keeps. -/
def Codec.IgnoresNewline (codec : Codec) : Prop :=
  ∀ d, codec.loads (jsonDumps d ++ "\n") = some d

variable {codec : Codec}

theorem fromLines_kept (newline : Codec.IgnoresNewline codec) (chain : List ChainEntry) :
    codec.fromLines (chain.map (fun e => e.toJsonl ++ "\n")) = some chain := by
  induction chain with
  | nil => rfl
  | cons e es ih =>
    have line : codec.fromJsonl (e.toJsonl ++ "\n") = some e := by
      simp only [Codec.fromJsonl, ChainEntry.toJsonl, newline e.fields]
      simp only [ChainEntry.fields, codec.fromisoformat_isoformat]
    simp only [List.map_cons, Codec.fromLines, line, ih]

theorem readEntries_render (newline : Codec.IgnoresNewline codec) {chain : List ChainEntry}
    (nonempty : chain ≠ []) :
    readEntries codec (unlines (chain.map ChainEntry.toJsonl)) = some chain := by
  have single : ∀ line ∈ chain.map ChainEntry.toJsonl, SingleLine line := by
    intro line member
    obtain ⟨e, _, rfl⟩ := List.mem_map.mp member
    exact singleLine_toJsonl e
  rw [readEntries, fileLines_unlines (by simpa using nonempty) single, List.map_map,
    List.filter_eq_self.mpr]
  · exact fromLines_kept newline chain
  · intro line member
    obtain ⟨e, _, rfl⟩ := List.mem_map.mp member
    simpa using line_not_blank e

/-- The entries that the verifier has read when it reports. -/
def Read (codec : Codec) (files : String → Option Bytes) (argv : List String)
    (chain : List ChainEntry) : Prop :=
  ∃ program path text, argv = [program, path] ∧ (files path).bind decode = some text ∧
    readEntries codec text = some chain

theorem read_render (newline : Codec.IgnoresNewline codec) {chain : List ChainEntry}
    (nonempty : chain ≠ []) {files : String → Option Bytes} {program path : String}
    (there : files path = some (renderManifest chain)) :
    Read codec files [program, path] chain := by
  refine ⟨program, path, unlines (chain.map ChainEntry.toJsonl), rfl, ?_,
    readEntries_render newline nonempty⟩
  rw [there, Option.bind_some, decode_render]

theorem main_render (newline : Codec.IgnoresNewline codec) {chain : List ChainEntry}
    (nonempty : chain ≠ []) {files : String → Option Bytes} {program path : String}
    (there : files path = some (renderManifest chain)) :
    main codec files [program, path] = report chain := by
  simp only [main, there, Option.bind_some, decode_render, readEntries_render newline nonempty]

end Reading

section Runs

variable {codec : Codec} {start : String → Option Bytes} {base : Date → List ChainEntry}

theorem report_accepted {chain : List ChainEntry} {last : ChainEntry}
    (verified : verifyChain chain = (true, none)) (ends : chain.getLast? = some last) :
    report chain = .code 0 (chainOk chain last) "" := by
  simp only [report, verified, ends]

/-- On a manifest of the process the verifier does not raise, and prints what `verify_chain`
says. -/
theorem report_cases {chain : List ChainEntry} (nonempty : chain ≠ []) :
    (∃ last, verifyChain chain = (true, none) ∧ chain.getLast? = some last ∧
        report chain = .code 0 (chainOk chain last) "") ∨
      ∃ err, verifyChain chain = (false, some err) ∧
        report chain = .code 1 "" ("CHAIN BROKEN: " ++ err ++ "\n") := by
  rcases verifyFrom_cases genesisPrevHash 0 chain with verified | ⟨err, broken⟩
  · obtain ⟨last, ends⟩ := Option.ne_none_iff_exists'.mp
      (fun none_last => nonempty (List.getLast?_eq_none_iff.mp none_last))
    exact .inl ⟨last, verified, ends, report_accepted verified ends⟩
  · refine .inr ⟨err, broken, ?_⟩
    have said : verifyChain chain = (false, some err) := broken
    simp only [report, said, Option.getD_some]

/-- What is known of the writer after any run, its manifest puts failing or not. -/
structure Held (start : String → Option Bytes) (base : Date → List ChainEntry)
    (s : Capture.System) (j : Capture.Journal) : Prop where
  files : Capture.Files start base s j
  ordered : Capture.Ordered s j
  returned : Capture.Returned s j

theorem held_run {codec : Codec} {s : Capture.System} {es : List Capture.Event}
    (found : Found start base)
    (reached : run (Capture.step codec) (.on start) es = some s) :
    ∃ j, Held start base s j := by
  refine state_invariant (fun s => ∃ j, Held start base s j) ?_ ?_ (along_true _ _ es) reached
  · exact ⟨.empty, Capture.files_start found, Capture.ordered_start start,
      Capture.returned_start start⟩
  · rintro s e u ⟨j, inv⟩ _ stepped
    obtain ⟨j', st⟩ := Capture.step_cases stepped j
    exact ⟨j', Capture.files_step inv.files st, Capture.ordered_step inv.ordered st,
      Capture.returned_step inv.files inv.returned st⟩

/-- A log of what was captured on a day: entries of distinct calls in the order of the locks, with
one for each call of the day that has returned. -/
structure LogOf (s : Capture.System) (d : Date) (log : List Logged) : Prop where
  on : ∀ l ∈ log, l.On d
  ordered : (calls log).Sublist s.granted
  distinct : ((calls log).map Call.id).Nodup
  returned : ∀ x ∈ s.returned, x.call.request.date = d → x.toLogged ∈ log

theorem Held.logOf {s : Capture.System} {j : Capture.Journal} (inv : Held start base s j)
    (d : Date) : LogOf s d (j.stored d) where
  on := inv.files.stored d
  ordered := inv.ordered.stored d
  distinct := by
    have granted := List.Nodup.of_append_left (List.map_append ▸ inv.ordered.distinct)
    exact granted.sublist ((inv.ordered.stored d).map _)
  returned := by
    rintro x member rfl
    exact (inv.returned x member).stored

/-- Whatever has happened to the writer, the verifier reads the manifest of a day as the chain that
was there at the start and the log of the day, and says what `verify_chain` says of that; and while
no manifest put has failed it reports the chain as whole, and nothing is in the log but what
returned, was cut off by a crash, or is still under the lock. -/
theorem exported_manifest_report (codec : Codec) (newline : Codec.IgnoresNewline codec)
    (start : String → Option Bytes) (base : Date → List ChainEntry) (found : Found start base)
    (es : List Capture.Event) (s : Capture.System)
    (reached : run (Capture.step codec) (.on start) es = some s) (d : Date) (body : Bytes)
    (stored : s.bucket (manifestKey d) = some body) (readable : decode body ≠ none)
    (files : String → Option Bytes) (program path : String) (exported : files path = some body) :
    ∃ log : List Logged, LogOf s d log ∧
      Read codec files [program, path] (base d ++ entries log) ∧
      ((∃ last, verifyChain (base d ++ entries log) = (true, none) ∧
          (base d ++ entries log).getLast? = some last ∧
          main codec files [program, path] = .code 0 (chainOk (base d ++ entries log) last) "") ∨
        ∃ err, verifyChain (base d ++ entries log) = (false, some err) ∧
          main codec files [program, path] = .code 1 "" ("CHAIN BROKEN: " ++ err ++ "\n")) ∧
      (Along (Capture.step codec) Safe (.on start) es →
        verifyChain (base d ++ entries log) = (true, none) ∧
          ∀ l ∈ log, l ∈ s.returned.map Return.toLogged ∨ some l ∈ s.crashes ∨
            s.holder.bind Holder.left = some l) := by
  have shown {j : Capture.Journal} (inv : Capture.Files start base s j) :
      j.chain base d ≠ [] ∧ body = renderManifest (j.chain base d) := by
    rcases inv.manifest d with text | ⟨⟨body', found', no_text⟩, _⟩
    · rw [stored] at text
      have nonempty : j.chain base d ≠ [] := by
        intro empty
        rw [empty] at text
        cases text
      rw [Capture.storedForm_of_ne nonempty] at text
      exact ⟨nonempty, Option.some.inj text⟩
    · cases stored.symm.trans found'
      exact absurd no_text readable
  have reported {j : Capture.Journal} (inv : Held start base s j) :
      Read codec files [program, path] (j.chain base d) ∧
        main codec files [program, path] = report (j.chain base d) := by
    obtain ⟨nonempty, rfl⟩ := shown inv.files
    exact ⟨read_render newline nonempty exported, main_render newline nonempty exported⟩
  have said {j : Capture.Journal} (inv : Held start base s j) :=
    report_cases (shown inv.files).1
  by_cases safe : Along (Capture.step codec) Safe (.on start) es
  · obtain ⟨j, inv⟩ := Capture.kept_run found safe reached
    have held : Held start base s j := ⟨inv.files, inv.ordered, inv.returned⟩
    obtain ⟨read, made⟩ := reported held
    refine ⟨j.stored d, held.logOf d, read, ?_,
      fun _ => ⟨(verifyChain_accepted _).mpr (inv.chained.accepted d), inv.accounted d⟩⟩
    rw [made]
    exact said held
  · obtain ⟨j, held⟩ := held_run found reached
    obtain ⟨read, made⟩ := reported held
    refine ⟨j.stored d, held.logOf d, read, ?_, fun kept => absurd kept safe⟩
    rw [made]
    exact said held

theorem reader_newline : Codec.IgnoresNewline Reader.codec := by
  intro d
  have number (rest : List Char) :
      Reader.readDigits ((decimal d.sizeBytes).toList ++
        ((",\"protocol\":\"" : String).toList ++ rest)) =
          (d.sizeBytes, (",\"protocol\":\"" : String).toList ++ rest) :=
    Reader.readDigits_decimal _ ',' _ (by decide)
  change Reader.loads (jsonDumps d ++ "\n") = some d
  unfold Reader.loads jsonDumps
  simp only [String.toList_append, List.append_assoc, Option.bind_eq_bind, Option.bind_some,
    Reader.expect_append, Json.readString_quoted, number, String.ofList_toList]

/-- Two messages captured one after the other, the second up to the put of its manifest. -/
def twoPuts (r r' : Capture.Request) : List Capture.Event :=
  [.call r, .grant 0, .resume, .effect, .resume, .effect, .resume, .call r', .grant 1, .effect,
    .resume, .effect]

def shortMessage : Capture.Request := ⟨[0x3C], "cot_xml", newYear⟩

theorem manifest_after_twoPuts :
    ∃ s e e', run (Capture.step Reader.codec) .init (twoPuts Capture.emptyMessage shortMessage) =
        some s ∧
      s.bucket (manifestKey Capture.emptyMessage.date) = some (renderManifest [e, e']) := by
  simp [twoPuts, run_cons, Capture.step, Capture.System.init, Capture.System.on, Capture.start,
    Capture.CaptureWriter.new, Capture.System.settle, Capture.System.answer, Capture.resume,
    Capture.afterRead, Capture.rollChain, Capture.Holder.put, Capture.afterObject,
    Capture.afterManifest, Capture.manifestKeyFor, Capture.Request.date,
    Capture.CaptureWriter.entryFor, makeEntry, sha256_length, Capture.emptyMessage, shortMessage]
  exact ⟨_, _, rfl⟩

theorem exported_manifest_report_twoPuts :
    ∃ s e e', run (Capture.step Reader.codec) .init (twoPuts Capture.emptyMessage shortMessage) =
        some s ∧
      s.bucket (manifestKey Capture.emptyMessage.date) = some (renderManifest [e, e']) ∧
      ∃ log : List Logged, LogOf s Capture.emptyMessage.date log ∧
        Read Reader.codec (fun _ => some (renderManifest [e, e']))
          ["verify_chain", "manifest.jsonl"] ([] ++ entries log) ∧
        ((∃ last, verifyChain ([] ++ entries log) = (true, none) ∧
            ([] ++ entries log).getLast? = some last ∧
            main Reader.codec (fun _ => some (renderManifest [e, e']))
                ["verify_chain", "manifest.jsonl"] =
              .code 0 (chainOk ([] ++ entries log) last) "") ∨
          ∃ err, verifyChain ([] ++ entries log) = (false, some err) ∧
            main Reader.codec (fun _ => some (renderManifest [e, e']))
                ["verify_chain", "manifest.jsonl"] =
              .code 1 "" ("CHAIN BROKEN: " ++ err ++ "\n")) ∧
        (Along (Capture.step Reader.codec) Safe .init
            (twoPuts Capture.emptyMessage shortMessage) →
          verifyChain ([] ++ entries log) = (true, none) ∧
            ∀ l ∈ log, l ∈ s.returned.map Return.toLogged ∨ some l ∈ s.crashes ∨
              s.holder.bind Holder.left = some l) := by
  obtain ⟨s, e, e', reached, stored⟩ := manifest_after_twoPuts
  have readable : decode (renderManifest [e, e']) ≠ none := by
    rw [decode_render]
    exact Option.some_ne_none _
  exact ⟨s, e, e', reached, stored, exported_manifest_report Reader.codec reader_newline _ _
    Capture.found_empty _ s reached _ _ stored readable _ _ _ rfl⟩

end Runs

section Reports

end Reports

end TacticalGateway.Tools
