import TacticalGateway.Gateway.Watcher
import TacticalGateway.Lib.Execution

/-! The pickup of a file, step by step, while a planner writes into the inbox. The watcher knows a
file by its name alone: what it moves at the end need not be what it has read. -/
namespace TacticalGateway.Gateway
open Text Execution

/-- Where the watcher stands; between any two of these the planner may write. -/
inductive Stage where
  | idle
  /-- Asleep after the first look. -/
  | sized (name : String) (size1 : Nat)
  /-- In `_process`, before the file is read. -/
  | stable (name : String)
  | holding (name : String) (data : Bytes)
  | ingesting (name : String)
  | ingested (name : String) (ok : Bool)
  deriving DecidableEq

/-- The file that was read, has not been moved and can still be archived. -/
def Stage.held : Stage → Option String
  | .holding name _ => some name
  | .ingesting name => some name
  | .ingested name true => some name
  | _ => none

/-- The files of the inbox, the names of the scan that are still to come, what was passed to an
ingestor and what was moved, each with the name of its file. -/
structure Pickup where
  inbox : Dict String Bytes
  todo : List String := []
  stage : Stage := .idle
  passed : List (String × Bytes) := []
  processed : List (String × Bytes) := []
  failed : List (String × Bytes) := []

inductive PickupEvent where
  /-- The planner creates the file or overwrites it. -/
  | write (name : String) (content : Bytes)
  | list
  | look
  | lookAgain
  | read
  | call
  /-- The ingestor returns its verdict; none is an exception. -/
  | ended (ok : Option Bool)
  | move (works : Bool)

namespace Pickup

/-- `_scan_once` and `_process`, from one look at the file system to the next. -/
def step (w : Watcher) (s : Pickup) : PickupEvent → Option Pickup
  | .write name content => some { s with inbox := s.inbox.set name content }
  | .list =>
    if s.stage = .idle ∧ s.todo = [] then
      some { s with todo := s.inbox.keys.insertionSort (· ≤ ·) }
    else none
  | .look =>
    match s.stage, s.todo with
    | .idle, name :: todo =>
      match w.matchHandler name, s.inbox.get? name with
      | some _, some content =>
        some { s with
          todo := todo
          stage := if content = [] then .idle else .sized name content.length }
      | _, _ => some { s with todo := todo }
    | _, _ => none
  | .lookAgain =>
    match s.stage with
    | .sized name size1 =>
      some { s with
        stage := if (s.inbox.get? name).map List.length = some size1 then .stable name else .idle }
    | _ => none
  | .read =>
    match s.stage with
    | .stable name =>
      match s.inbox.get? name with
      | some data => some { s with stage := .holding name data }
      -- the `stat` for the log raises
      | none => some { s with stage := .idle, todo := [] }
    | _ => none
  | .call =>
    match s.stage with
    | .holding name data =>
      some { s with stage := .ingesting name, passed := s.passed ++ [(name, data)] }
    | _ => none
  | .ended ok =>
    match s.stage, ok with
    | .ingesting name, some ok => some { s with stage := .ingested name ok }
    | .ingesting _, none => some { s with stage := .idle, todo := [] }
    | _, _ => none
  | .move works =>
    match s.stage with
    | .ingested name ok =>
      match works, s.inbox.get? name with
      | true, some content =>
        some { s with
          inbox := s.inbox.erase name
          stage := .idle
          processed := if ok then s.processed ++ [(name, content)] else s.processed
          failed := if ok then s.failed else s.failed ++ [(name, content)] }
      | _, _ => some { s with stage := .idle }
    | _ => none

def held (s : Pickup) : Option String := s.stage.held

/-- Over a file that is held the planner writes only what was passed to an ingestor under the name,
or is about to be. -/
def Safe (s : Pickup) : PickupEvent → Prop
  | .write name content =>
    s.held = some name → (name, content) ∈ s.passed ∨ s.stage = .holding name content
  | _ => True

/-- What would be archived now has been passed on, or is about to be. -/
def Current (s : Pickup) : Prop :=
  ∀ name, s.held = some name → ∀ content, s.inbox.get? name = some content →
    (name, content) ∈ s.passed ∨ s.stage = .holding name content

structure Sound (s : Pickup) : Prop where
  archived : ∀ p ∈ s.processed, p ∈ s.passed
  current : s.Current

theorem current_of_free {s : Pickup} (free : s.held = none) : s.Current := by
  intro name held
  rw [free] at held
  cases held

section Steps

variable {w : Watcher} {s s' : Pickup} {name : String} {content : Bytes}

/-- A step that lets the file go, or holds none, and neither calls an ingestor nor moves a file. -/
theorem Sound.released (sound : s.Sound) (processed : s'.processed = s.processed)
    (passed : s'.passed = s.passed) (free : s'.held = none) : s'.Sound := by
  refine ⟨?_, current_of_free free⟩
  rw [processed, passed]
  exact sound.archived

theorem Sound.write (sound : s.Sound) (safe : s.Safe (.write name content)) :
    Sound { s with inbox := s.inbox.set name content } := by
  refine ⟨sound.archived, ?_⟩
  intro other held there found
  by_cases same : other = name
  · subst same
    rw [Dict.get?_set_self] at found
    cases found
    exact safe held
  · rw [Dict.get?_set_ne s.inbox content same] at found
    exact sound.current other held there found

theorem Sound.look (sound : s.Sound) (stepped : s.step w .look = some s') : s'.Sound := by
  simp only [step] at stepped
  split at stepped
  · rename_i idle _
    split at stepped
    · cases stepped
      refine sound.released rfl rfl ?_
      dsimp only [held]
      split <;> rfl
    · cases stepped
      refine sound.released rfl rfl ?_
      rw [held, idle]
      rfl
  · cases stepped

theorem Sound.lookAgain (sound : s.Sound) (stepped : s.step w .lookAgain = some s') : s'.Sound := by
  simp only [step] at stepped
  split at stepped
  · cases stepped
    refine sound.released rfl rfl ?_
    dsimp only [held]
    split <;> rfl
  · cases stepped

theorem Sound.read (sound : s.Sound) (stepped : s.step w .read = some s') : s'.Sound := by
  simp only [step] at stepped
  split at stepped
  · split at stepped
    · rename_i name _ data there
      cases stepped
      refine ⟨sound.archived, ?_⟩
      intro other held content found
      cases held
      rw [there] at found
      cases found
      exact .inr rfl
    · cases stepped
      exact sound.released rfl rfl rfl
  · cases stepped

theorem Sound.call (sound : s.Sound) (stepped : s.step w .call = some s') : s'.Sound := by
  simp only [step] at stepped
  split at stepped
  · rename_i name data stage
    cases stepped
    refine ⟨fun p member => List.mem_append_left _ (sound.archived p member), ?_⟩
    intro other held content found
    cases held
    rcases sound.current name (by rw [Pickup.held, stage]; rfl) content found with earlier | same
    · exact .inl (List.mem_append_left _ earlier)
    · rw [stage] at same
      cases same
      exact .inl (List.mem_append_right _ (List.mem_singleton_self _))
  · cases stepped

/-- While the ingestor runs and after it, what is in the place of the file has been passed on. -/
theorem Sound.passed_on (sound : s.Sound) (held : s.held = some name)
    (called : ∀ data, s.stage ≠ .holding name data) (there : s.inbox.get? name = some content) :
    (name, content) ∈ s.passed := by
  rcases sound.current name held content there with earlier | contrary
  · exact earlier
  · exact absurd contrary (called content)

theorem Sound.ended {ok : Option Bool} (sound : s.Sound)
    (stepped : s.step w (.ended ok) = some s') :
    s'.Sound := by
  simp only [step] at stepped
  split at stepped
  · rename_i name ok stage
    cases stepped
    refine ⟨sound.archived, ?_⟩
    intro other held content found
    cases ok with
    | false => cases held
    | true =>
      cases held
      exact .inl (sound.passed_on (by rw [Pickup.held, stage]; rfl) (by simp [stage]) found)
  · cases stepped
    exact sound.released rfl rfl rfl
  · cases stepped

theorem Sound.move {works : Bool} (sound : s.Sound) (stepped : s.step w (.move works) = some s') :
    s'.Sound := by
  simp only [step] at stepped
  split at stepped
  · rename_i name ok stage
    split at stepped
    · rename_i content there
      cases stepped
      refine ⟨?_, current_of_free rfl⟩
      cases ok with
      | false => exact sound.archived
      | true =>
        have passed := sound.passed_on (by rw [Pickup.held, stage]; rfl) (by simp [stage]) there
        intro p member
        rcases List.mem_append.mp member with earlier | new
        · exact sound.archived p earlier
        · exact List.mem_singleton.mp new ▸ passed
    · cases stepped
      exact sound.released rfl rfl rfl
  · cases stepped

theorem step_sound {e : PickupEvent} (sound : s.Sound) (safe : s.Safe e)
    (stepped : s.step w e = some s') : s'.Sound := by
  cases e with
  | write name content =>
    cases stepped
    exact sound.write safe
  | list =>
    simp only [step] at stepped
    split at stepped
    · rename_i idle
      cases stepped
      refine sound.released rfl rfl ?_
      rw [held, idle.1]
      rfl
    · cases stepped
  | look => exact sound.look stepped
  | lookAgain => exact sound.lookAgain stepped
  | read => exact sound.read stepped
  | call => exact sound.call stepped
  | ended ok => exact sound.ended stepped
  | move works => exact sound.move stepped

end Steps

/-- The pickup after its file was archived with this content. -/
def archive (s : Pickup) (name : String) (content : Bytes) : Pickup :=
  { s with
    inbox := s.inbox.erase name
    stage := .idle
    processed := s.processed ++ [(name, content)] }

theorem move_archives (w : Watcher) {s : Pickup} {name : String} {content : Bytes}
    (ended : s.stage = .ingested name true) (there : s.inbox.get? name = some content) :
    s.step w (.move true) = some (s.archive name content) := by
  simp [step, ended, there, archive]

theorem ended_archives (w : Watcher) {s : Pickup} {name : String} {content : Bytes}
    (called : s.stage = .ingesting name) (there : s.inbox.get? name = some content) :
    run (step w) s [.ended (some true), .move true] = some (s.archive name content) := by
  have returned : s.step w (.ended (some true)) = some { s with stage := .ingested name true } := by
    simp [step, called]
  have moved : ({ s with stage := .ingested name true } : Pickup).step w (.move true) =
      some (s.archive name content) := move_archives w rfl there
  rw [run_cons, returned, Option.bind_some, run_cons, moved]
  rfl

/-- The watcher's own steps archive a content that was not passed on, once it is in the place of a
file that is held. -/
theorem unsafe_archived (w : Watcher) {s : Pickup} {name : String} {content : Bytes}
    (unsafe_write : ¬ s.Safe (.write name content)) :
    ∃ later s', (∀ e ∈ later, ∀ n c, e ≠ .write n c) ∧
      run (step w) s (.write name content :: later) = some s' ∧
      (name, content) ∈ s'.processed ∧ (name, content) ∉ s'.passed := by
  obtain ⟨held, unread⟩ := Classical.not_imp.mp unsafe_write
  obtain ⟨fresh, other⟩ := not_or.mp unread
  have there : (s.inbox.set name content).get? name = some content := Dict.get?_set_self _ _ _
  let written : Pickup := { s with inbox := s.inbox.set name content }
  rw [Pickup.held] at held
  cases stage : s.stage with
  | idle =>
    rw [stage] at held
    cases held
  | sized n size1 =>
    rw [stage] at held
    cases held
  | stable n =>
    rw [stage] at held
    cases held
  | holding n data =>
    rw [stage] at held other
    cases held
    let calling : Pickup := { s with
      inbox := s.inbox.set name content
      stage := .ingesting name
      passed := s.passed ++ [(name, data)] }
    have called : written.step w .call = some calling := by
      simp [step, stage, written, calling]
    refine ⟨[.call, .ended (some true), .move true], calling.archive name content,
      by simp, ?_, ?_, ?_⟩
    · rw [run_cons, step, Option.bind_some, run_cons, called, Option.bind_some]
      exact ended_archives w rfl there
    · exact List.mem_append_right _ (List.mem_singleton_self _)
    · intro member
      rcases List.mem_append.mp member with earlier | same
      · exact fresh earlier
      · cases List.mem_singleton.mp same
        exact other rfl
  | ingesting n =>
    rw [stage] at held
    cases held
    refine ⟨[.ended (some true), .move true], written.archive name content, by simp, ?_, ?_, fresh⟩
    · rw [run_cons, step, Option.bind_some]
      exact ended_archives w stage there
    · exact List.mem_append_right _ (List.mem_singleton_self _)
  | ingested n ok =>
    rw [stage] at held
    cases ok with
    | false => cases held
    | true =>
      cases held
      have moved : written.step w (.move true) = some (written.archive name content) :=
        move_archives w stage there
      refine ⟨[.move true], written.archive name content, by simp, ?_, ?_, fresh⟩
      · rw [run_cons, step, Option.bind_some, run_cons, moved]
        rfl
      · exact List.mem_append_right _ (List.mem_singleton_self _)

theorem undisturbed_pickup (w : Watcher) {s : Pickup} {name : String} {data : Bytes}
    {handler : Ingestor}
    {result : Verdict} {publishing : Publishing} (stable : s.stage = .stable name)
    (there : s.inbox.get? name = some data) (works writes : Bool) (ts : String)
    (returns : handler ⟨data, name, .folder, w.sourceLabel⟩ = (some result, publishing)) :
    ∃ s', run (step w) s [.read, .call, .ended (some result.ok), .move works] = some s' ∧
      s'.passed = s.passed ++ [(name, data)] ∧
      match (processFile ⟨true, some data, works, writes⟩ w.inboxPath name ts handler).1 with
      | .inbox => s'.inbox = s.inbox
      | .processed _ => s'.inbox = s.inbox.erase name ∧ s'.processed = s.processed ++ [(name, data)]
      | .failed _ _ => s'.inbox = s.inbox.erase name ∧ s'.failed = s.failed ++ [(name, data)] := by
  unfold Watcher.sourceLabel at returns
  cases works with
  | false => simp [run, step, stable, there, processFile, returns]
  | true =>
    cases ok : result.ok with
    | true => simp [run, step, stable, there, processFile, returns, ok]
    | false => simp [run, step, stable, there, processFile, returns, ok]

/-- In every run whose writes are safe every archived content was passed to an ingestor; and a
write that is not safe can end in the archive with the watcher's own steps. -/
theorem archived_ingested (w : Watcher) (inbox : Dict String Bytes) (events : List PickupEvent)
    (s : Pickup) (ran : run (step w) { inbox } events = some s) :
    (Along (step w) Safe { inbox } events → ∀ p ∈ s.processed, p ∈ s.passed) ∧
      ∀ name content, ¬ s.Safe (.write name content) → ∃ later s',
        (∀ e ∈ later, ∀ n c, e ≠ .write n c) ∧
        run (step w) { inbox } (events ++ .write name content :: later) = some s' ∧
        (name, content) ∈ s'.processed ∧ (name, content) ∉ s'.passed := by
  constructor
  · intro safe
    have start : Sound { inbox } := by
      refine ⟨?_, current_of_free rfl⟩
      intro p member
      cases member
    exact (state_invariant Sound start (fun _ _ _ => step_sound) safe ran).archived
  · intro name content unsafe_write
    obtain ⟨later, s', steps, archived, unread⟩ := unsafe_archived w unsafe_write
    refine ⟨later, s', steps, ?_, unread⟩
    rw [run_append, ran]
    exact archived

/-- One pickup of an overlay, up to the call of the ingestor. -/
def overlayCalled : List PickupEvent :=
  [.write "a.ovl" emptyModel, .list, .look, .lookAgain, .read, .call]

theorem archived_ingested_overlay :
    ∃ s, run (step overlayWatcher) { inbox := .empty }
        (overlayCalled ++ [.ended (some true), .move true]) = some s ∧
      s.processed = [("a.ovl", emptyModel)] ∧ ∀ p ∈ s.processed, p ∈ s.passed := by
  refine ⟨_, rfl, rfl, ?_⟩
  apply (archived_ingested overlayWatcher .empty
    (overlayCalled ++ [.ended (some true), .move true]) _ rfl).1
  refine ⟨?_, ?_⟩
  · intro held
    cases held
  · intro s _
    apply along_of_mem
    intro e member s
    simp only [List.append_eq, List.mem_append, List.mem_cons, List.not_mem_nil, or_false] at member
    rcases member with (rfl | rfl | rfl | rfl | rfl) | rfl | rfl <;> trivial

/-- A new version of the overlay lands while the old one is ingested, and is archived unread. -/
theorem overwrite_archived_unread :
    ∃ s, run (step overlayWatcher) { inbox := .empty }
        (overlayCalled ++ [.write "a.ovl" placeless, .ended (some true), .move true]) = some s ∧
      s.processed = [("a.ovl", placeless)] ∧ s.passed = [("a.ovl", emptyModel)] ∧
        s.inbox.keys = [] :=
  ⟨_, rfl, rfl, rfl, rfl⟩

end Pickup

end TacticalGateway.Gateway
