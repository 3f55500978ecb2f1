import TacticalGateway.Capture.Files

/-! The stored manifests against the history of the process: the chain is never broken, calls
stand in the order of their locks, and every entry has a call that accounts for it. -/
namespace TacticalGateway.Capture
open Text Execution

def calls (log : List Logged) : List Call := log.map Logged.call

def Holder.appended (h : Holder) : Prop :=
  match h.position with
  | .writingManifest _ _ => True
  | _ => False

/-- The step is not the failure of a manifest put. -/
def Safe (s : System) (e : Event) : Prop :=
  e = .fail → ∀ h, s.holder = some h → ¬ h.appended

section
variable (base : Date → List ChainEntry)

/-- The open day while no manifest put has failed: memory is ahead by the line of the call
under the lock at most, and the tip is the end of the stored chain. -/
def Tail (s : System) (j : Journal) (d : Date) : Prop :=
  match s.holder with
  | some ⟨call, .writingManifest entry _, false⟩ =>
    j.memory = j.stored d ++ [⟨call, entry⟩] ∧ entry.prevHash = chainTip (j.chain base d)
  | some ⟨_, .writingManifest entry _, true⟩ =>
    j.memory = j.stored d ∧ entry.entryHash = chainTip (j.chain base d)
  | some ⟨_, .writingObject entry, _⟩ =>
    j.memory = j.stored d ∧ s.writer.chainTip = chainTip (j.chain base d) ∧
      entry.prevHash = chainTip (j.chain base d)
  | some ⟨_, .reading, _⟩ | none =>
    j.memory = j.stored d ∧ s.writer.chainTip = chainTip (j.chain base d)

structure Chained (s : System) (j : Journal) : Prop where
  accepted : ∀ d, ChainAccepted (j.chain base d)
  tail : ∀ d, j.day = some d → Tail base s j d

end

section
variable {start : String → Option Bytes} {base : Date → List ChainEntry}
variable {codec : Codec} {s u : System} {j j' : Journal}

theorem chained_start (found : Found start base) : Chained base (.on start) .empty where
  accepted d := by simpa [Journal.chain, Journal.empty] using found.accepted d
  tail d same := by cases same

theorem Tail.free {d : Date} (free : s.holder = none) (tail : Tail base s j d) :
    j.memory = j.stored d ∧ s.writer.chainTip = chainTip (j.chain base d) := by
  simpa [Tail, free] using tail

theorem Tail.aside {d : Date} {h : Holder} (held : s.holder = some h) (early : ¬ h.appended)
    (tail : Tail base s j d) :
    j.memory = j.stored d ∧ s.writer.chainTip = chainTip (j.chain base d) := by
  obtain ⟨call, position, written⟩ := h
  cases position with
  | reading => simpa [Tail, held] using tail
  | writingObject entry =>
    simp only [Tail, held] at tail
    exact ⟨tail.1, tail.2.1⟩
  | writingManifest entry body => exact absurd trivial early

theorem chained_step {e : Event} (files : Files start base s j) (inv : Chained base s j)
    (safe : Safe s e) (st : Step codec s j e u j') : Chained base u j' := by
  cases st with
  | call r => exact ⟨inv.accepted, inv.tail⟩
  | grantOpen call free member same =>
    refine ⟨inv.accepted, ?_⟩
    intro d today
    obtain ⟨memory, tip⟩ := (inv.tail d today).free free
    exact ⟨memory, tip, tip⟩
  | grantRoll call free member other =>
    refine ⟨inv.accepted, ?_⟩
    intro d today
    have tail := (inv.tail d today).free free
    exact tail
  | loaded call written w held roll =>
    refine ⟨inv.accepted, ?_⟩
    intro d today
    cases today
    obtain ⟨_, rfl⟩ := files.loaded roll
    exact ⟨rfl, rfl, rfl⟩
  | unloaded call written w held roll =>
    cases files.unloaded roll
    refine ⟨inv.accepted, ?_⟩
    intro d today
    have tail := (inv.tail d today).aside held id
    exact tail
  | putObject call entry held =>
    refine ⟨inv.accepted, ?_⟩
    intro d today
    have tail := inv.tail d today
    simp only [Tail, held] at tail
    exact tail
  | appended call entry held =>
    refine ⟨inv.accepted, ?_⟩
    intro d today
    have tail := inv.tail d today
    simp only [Tail, held] at tail
    exact ⟨by rw [Journal.append_memory, tail.1]; rfl, tail.2.2⟩
  | putManifest call entry body held =>
    obtain ⟨describes, today, _⟩ := files.holder _ held
    have tail := inv.tail _ today
    simp only [Tail, held] at tail
    obtain ⟨memory, prev⟩ := tail
    have own : (j.commit call.request.date).chain base call.request.date =
        j.chain base call.request.date ++ [entry] := by
      simp [Journal.chain, Journal.commit_stored, memory]
    constructor
    · intro d
      by_cases same : d = call.request.date
      · rw [same, own]
        exact chainAccepted_concat (inv.accepted _) prev describes.entryHash
      · rw [Journal.chain, Journal.commit_stored, if_neg same]
        exact inv.accepted d
    · intro d still
      cases today.symm.trans still
      refine ⟨?_, ?_⟩
      · rw [Journal.commit_stored, if_pos rfl, Journal.commit_memory]
      · rw [own, chainTip_concat]
  | finished call entry body pointer held built =>
    refine ⟨inv.accepted, ?_⟩
    intro d today
    have tail := inv.tail d today
    simp only [Tail, held] at tail
    exact tail
  | refused call entry body held length =>
    exact absurd (files.holder _ held).1.length length
  | failed h held =>
    refine ⟨inv.accepted, ?_⟩
    intro d today
    have tail := (inv.tail d today).aside held (safe rfl h held)
    exact tail
  | crash =>
    refine ⟨inv.accepted, ?_⟩
    intro d today
    cases today

end

/-- Calls take the lock once, and the logs follow the order in which they took it. -/
structure Ordered (s : System) (j : Journal) : Prop where
  fresh : ∀ c ∈ s.granted ++ s.waiting, c.id < s.calls
  distinct : ((s.granted ++ s.waiting).map Call.id).Nodup
  stored : ∀ d, (calls (j.stored d)).Sublist s.granted
  memory : (calls j.memory).Sublist s.granted
  pending : ∀ h, s.holder = some h → ∃ before, s.granted = before ++ [h.call] ∧
    (h.appended ∨ (calls j.memory).Sublist before ∧ ∀ d, (calls (j.stored d)).Sublist before)

section
variable {codec : Codec} {s u : System} {j j' : Journal}

theorem ordered_start (start : String → Option Bytes) : Ordered (.on start) .empty where
  fresh c member := by cases member
  distinct := List.nodup_nil
  stored d := List.Sublist.refl _
  memory := List.Sublist.refl _
  pending h held := by cases held

theorem Ordered.call (inv : Ordered s j) (r : Request) :
    Ordered { s with waiting := s.waiting ++ [⟨s.calls, r⟩], calls := s.calls + 1 } j where
  fresh c member := by
    rw [← List.append_assoc, List.mem_append, List.mem_singleton] at member
    rcases member with before | rfl
    · exact Nat.lt_succ_of_lt (inv.fresh c before)
    · exact Nat.lt_succ_self _
  distinct := by
    rw [← List.append_assoc, List.map_append, List.nodup_append]
    refine ⟨inv.distinct, List.nodup_singleton _, ?_⟩
    intro id member id' last same
    obtain ⟨c, before, rfl⟩ := List.mem_map.mp member
    cases List.mem_singleton.mp last
    have less := inv.fresh c before
    rw [same] at less
    exact Nat.lt_irrefl _ less
  stored := inv.stored
  memory := inv.memory
  pending := inv.pending

theorem Ordered.grant (inv : Ordered s j) {call : Call} (member : call ∈ s.waiting)
    (position : Position) :
    Ordered
      { s with
        waiting := s.waiting.erase call
        granted := s.granted ++ [call]
        holder := some ⟨call, position, false⟩ } j := by
  have perm : (s.granted ++ [call] ++ s.waiting.erase call).Perm (s.granted ++ s.waiting) := by
    rw [List.append_assoc]
    exact (List.perm_cons_erase member).symm.append_left _
  constructor
  case fresh => exact fun c among => inv.fresh c (perm.mem_iff.mp among)
  case distinct => exact (perm.map _).nodup_iff.mpr inv.distinct
  case stored => exact fun d => (inv.stored d).trans (List.sublist_append_left _ _)
  case memory => exact inv.memory.trans (List.sublist_append_left _ _)
  case pending =>
    intro h held
    cases held
    exact ⟨s.granted, rfl, .inr ⟨inv.memory, inv.stored⟩⟩

theorem Ordered.release (inv : Ordered s j) (granted : u.granted = s.granted)
    (waiting : u.waiting = s.waiting) (numbered : u.calls = s.calls) (free : u.holder = none) :
    Ordered u j where
  fresh := by
    rw [granted, waiting, numbered]
    exact inv.fresh
  distinct := by
    rw [granted, waiting]
    exact inv.distinct
  stored := granted ▸ inv.stored
  memory := granted ▸ inv.memory
  pending h held := by
    rw [free] at held
    cases held

theorem Ordered.early (inv : Ordered s j) {h : Holder} (held : s.holder = some h)
    (early : ¬ h.appended) :
    ∃ before, s.granted = before ++ [h.call] ∧
      (calls j.memory).Sublist before ∧ ∀ d, (calls (j.stored d)).Sublist before := by
  obtain ⟨before, last, appended | logs⟩ := inv.pending h held
  · exact absurd appended early
  · exact ⟨before, last, logs⟩

theorem ordered_step {e : Event} (inv : Ordered s j) (st : Step codec s j e u j') :
    Ordered u j' := by
  cases st with
  | call r => exact inv.call r
  | grantOpen call free member same => exact inv.grant member _
  | grantRoll call free member other => exact inv.grant member _
  | loaded call written w held roll =>
    obtain ⟨before, last, _, logs⟩ := inv.early held id
    refine ⟨inv.fresh, inv.distinct, inv.stored, inv.stored _, ?_⟩
    intro h now
    cases now
    exact ⟨before, last, .inr ⟨logs _, logs⟩⟩
  | putObject call entry held =>
    obtain ⟨before, last, logs⟩ := inv.early held id
    refine ⟨inv.fresh, inv.distinct, inv.stored, inv.memory, ?_⟩
    intro h now
    cases now
    exact ⟨before, last, .inr logs⟩
  | appended call entry held =>
    obtain ⟨before, last, logs⟩ := inv.early held id
    refine ⟨inv.fresh, inv.distinct, inv.stored, ?_, ?_⟩
    · rw [last, Journal.append_memory, calls, List.map_append]
      exact logs.1.append (List.Sublist.refl _)
    · intro h now
      cases now
      exact ⟨before, last, .inl trivial⟩
  | putManifest call entry body held =>
    obtain ⟨before, last, _⟩ := inv.pending _ held
    refine ⟨inv.fresh, inv.distinct, ?_, inv.memory, ?_⟩
    · intro d
      rw [Journal.commit_stored]
      split
      · exact inv.memory
      · exact inv.stored d
    · intro h now
      cases now
      exact ⟨before, last, .inl trivial⟩
  | unloaded call written w held roll => exact inv.release rfl rfl rfl rfl
  | finished call entry body pointer held built => exact inv.release rfl rfl rfl rfl
  | refused call entry body held length => exact inv.release rfl rfl rfl rfl
  | failed h held => exact inv.release rfl rfl rfl rfl
  | crash =>
    refine ⟨?_, ?_, inv.stored, List.nil_sublist _, nofun⟩
    · exact fun c member => inv.fresh c (List.mem_append_left _ (by simpa using member))
    · have granted := List.Nodup.of_append_left (List.map_append ▸ inv.distinct)
      simpa using granted

/-- An entry on the bucket belongs to a call that returned, to one that a crash cut off after
its put, or to the call under the lock. -/
def Accounted (s : System) (j : Journal) : Prop :=
  ∀ d, ∀ l ∈ j.stored d, l ∈ s.returned.map Return.toLogged ∨ some l ∈ s.crashes ∨
    s.holder.bind Holder.left = some l

theorem accounted_start (start : String → Option Bytes) : Accounted (.on start) .empty :=
  fun _ _ member => absurd member List.not_mem_nil

theorem Holder.left_eq_none {h : Holder} (early : ¬ h.appended) : h.left = none := by
  obtain ⟨call, position, written⟩ := h
  cases position with
  | reading => rfl
  | writingObject entry => rfl
  | writingManifest entry body => exact absurd trivial early

theorem Accounted.quiet (inv : Accounted s j) (nothing : s.holder.bind Holder.left = none)
    (returned : u.returned = s.returned) (crashes : u.crashes = s.crashes)
    (stored : j'.stored = j.stored) : Accounted u j' := by
  intro d l member
  rw [stored] at member
  rcases inv d l member with done | crashed | left
  · exact .inl (returned ▸ done)
  · exact .inr (.inl (crashes ▸ crashed))
  · rw [nothing] at left
    cases left

theorem accounted_step {start : String → Option Bytes} {base : Date → List ChainEntry} {e : Event}
    (files : Files start base s j) (chained : Chained base s j) (inv : Accounted s j)
    (safe : Safe s e) (st : Step codec s j e u j') : Accounted u j' := by
  cases st with
  | call r => exact inv
  | grantOpen call free member same => exact inv.quiet (by rw [free]; rfl) rfl rfl rfl
  | grantRoll call free member other => exact inv.quiet (by rw [free]; rfl) rfl rfl rfl
  | loaded call written w held roll => exact inv.quiet (by rw [held]; rfl) rfl rfl rfl
  | unloaded call written w held roll => exact inv.quiet (by rw [held]; rfl) rfl rfl rfl
  | putObject call entry held => exact inv.quiet (by rw [held]; rfl) rfl rfl rfl
  | appended call entry held => exact inv.quiet (by rw [held]; rfl) rfl rfl rfl
  | putManifest call entry body held =>
    intro d l member
    have tail := chained.tail _ (files.holder _ held).2.1
    simp only [Tail, held] at tail
    rw [Journal.commit_stored, tail.1] at member
    have before (stored : l ∈ j.stored d) :
        l ∈ s.returned.map Return.toLogged ∨ some l ∈ s.crashes := by
      rcases inv d l stored with done | crashed | left
      · exact .inl done
      · exact .inr crashed
      · rw [held] at left
        cases left
    split at member
    · rename_i same
      subst same
      rcases List.mem_append.mp member with stored | last
      · rcases before stored with done | crashed
        · exact .inl done
        · exact .inr (.inl crashed)
      · cases List.mem_singleton.mp last
        exact .inr (.inr rfl)
    · rcases before member with done | crashed
      · exact .inl done
      · exact .inr (.inl crashed)
  | finished call entry body pointer held built =>
    intro d l member
    rcases inv d l member with done | crashed | left
    · exact .inl (by simp [done])
    · exact .inr (.inl crashed)
    · rw [held] at left
      cases left
      exact .inl (by simp)
  | refused call entry body held length =>
    exact absurd (files.holder _ held).1.length length
  | failed h held =>
    exact inv.quiet (by rw [held]; exact h.left_eq_none (safe rfl h held)) rfl rfl rfl
  | crash =>
    intro d l member
    rcases inv d l member with done | crashed | left
    · exact .inl done
    · exact .inr (.inl (List.mem_append_left _ crashed))
    · exact .inr (.inl (List.mem_append_right _ (List.mem_singleton.mpr left.symm)))

end

end TacticalGateway.Capture
