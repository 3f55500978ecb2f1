import TacticalGateway.Capture.Ledger

/-! The raw objects. A key holds bytes with the digest that the key ends in, whatever is
captured, fails or crashes later. -/
namespace TacticalGateway.Capture
open Text

def captured (s : System) : List Bytes := s.granted.map (fun c => c.request.rawBytes)

/-- The object of an entry is there, and some call captured its bytes. -/
def HasObject (s : System) (e : ChainEntry) : Prop :=
  ∃ data ∈ captured s, s.bucket e.objectKey = some data ∧ TacticalGateway.sha256 data = e.sha256

structure Objects (s : System) (j : Journal) : Prop where
  stored : ∀ d, ∀ l ∈ j.stored d, HasObject s l.entry
  memory : ∀ d, j.day = some d → ∀ l ∈ j.memory, HasObject s l.entry
  written : ∀ call entry, s.holder = some ⟨call, .writingObject entry, true⟩ → HasObject s entry

section
variable {start : String → Option Bytes} {base : Date → List ChainEntry}
variable {codec : Codec} {s u : System} {j j' : Journal}

theorem objects_start (start : String → Option Bytes) : Objects (.on start) .empty :=
  ⟨nofun, nofun, nofun⟩

theorem HasObject.keep {e : ChainEntry} (has : HasObject s e) (bucket : u.bucket = s.bucket)
    (granted : s.granted ⊆ u.granted) : HasObject u e := by
  obtain ⟨data, member, found, digest⟩ := has
  exact ⟨data, List.map_subset _ granted member, bucket ▸ found, digest⟩

theorem HasObject.putObject {r r' : Request} {e e' : ChainEntry} {holder : Option Holder}
    (has : HasObject s e) (describes : Describes r e) (other : Describes r' e')
    (member : r'.rawBytes ∈ captured s) :
    HasObject
      { s with
        bucket := Function.update s.bucket e'.objectKey (some r'.rawBytes)
        holder := holder } e := by
  by_cases same : e.objectKey = e'.objectKey
  · have keys := same
    rw [describes.objectKey, other.objectKey] at keys
    obtain ⟨_, _, digests⟩ := objectKeyFor_injective describes.length other.length keys
    refine ⟨r'.rawBytes, member, ?_, ?_⟩
    · dsimp only
      rw [same, Function.update_self]
    · rw [digests, other.sha256]
  · obtain ⟨data, among, found, digest⟩ := has
    refine ⟨data, among, ?_, digest⟩
    dsimp only
    rw [Function.update_of_ne same, found]

theorem HasObject.putManifest {r : Request} {e : ChainEntry} {d : Date} {body : Bytes}
    {holder : Option Holder} (has : HasObject s e) (describes : Describes r e) :
    HasObject
      { s with
        bucket := Function.update s.bucket (manifestKey d) (some body)
        holder := holder } e := by
  have other : e.objectKey ≠ manifestKey d := by
    rw [describes.objectKey, describes.sha256]
    exact objectKey_ne_manifestKey _ _ _ _
  obtain ⟨data, among, found, digest⟩ := has
  refine ⟨data, among, ?_, digest⟩
  dsimp only
  rw [Function.update_of_ne other, found]

theorem Objects.keep (inv : Objects s j) (bucket : u.bucket = s.bucket)
    (granted : s.granted ⊆ u.granted)
    (unwritten : ∀ call entry, u.holder ≠ some ⟨call, .writingObject entry, true⟩) :
    Objects u j where
  stored d l member := (inv.stored d l member).keep bucket granted
  memory d today l member := (inv.memory d today l member).keep bucket granted
  written call entry held := absurd held (unwritten call entry)

theorem pending_ne_written (call call' : Call) (position position' : Position) :
    some (Holder.mk call position false) ≠ some (Holder.mk call' position' true) := by
  intro same
  have flags : some false = some true := congrArg (Option.map Holder.written) same
  cases flags

theorem holder_captured (ordered : Ordered s j) {h : Holder} (held : s.holder = some h) :
    h.call.request.rawBytes ∈ captured s := by
  obtain ⟨before, last, _⟩ := ordered.pending h held
  rw [captured, last]
  exact List.mem_map_of_mem (List.mem_append_right _ (List.mem_singleton.mpr rfl))

theorem objects_step {e : Event} (files : Files start base s j) (ordered : Ordered s j)
    (inv : Objects s j) (st : Step codec s j e u j') : Objects u j' := by
  cases st with
  | call r =>
    refine ⟨inv.stored, inv.memory, inv.written⟩
  | grantOpen call free member same =>
    exact inv.keep rfl (List.subset_append_left _ _) (fun _ _ => pending_ne_written _ _ _ _)
  | grantRoll call free member other =>
    exact inv.keep rfl (List.subset_append_left _ _) (fun _ _ => pending_ne_written _ _ _ _)
  | loaded call written w held roll =>
    refine ⟨inv.stored, ?_, fun _ _ same => absurd same (pending_ne_written _ _ _ _)⟩
    intro d today l member
    exact inv.stored _ l member
  | unloaded call written w held roll => exact inv.keep rfl (List.Subset.refl _) nofun
  | putObject call entry held =>
    have describes := (files.holder _ held).1
    have member := holder_captured ordered held
    constructor
    case stored =>
      intro d l stored
      exact (inv.stored d l stored).putObject (files.stored d l stored).describes describes member
    case memory =>
      intro d today l remembered
      exact (inv.memory d today l remembered).putObject
        ((files.opened d today).logged l remembered).describes describes member
    case written =>
      intro call entry held
      cases held
      refine ⟨call.request.rawBytes, member, ?_, describes.sha256.symm⟩
      dsimp only
      rw [Function.update_self]
  | appended call entry held =>
    refine ⟨inv.stored, ?_, fun _ _ same => absurd same (pending_ne_written _ _ _ _)⟩
    intro d today l member
    rcases List.mem_append.mp member with before | last
    · exact inv.memory d today l before
    · cases List.mem_singleton.mp last
      exact inv.written call entry held
  | putManifest call entry body held =>
    have today := (files.holder _ held).2.1
    constructor
    case stored =>
      intro d l stored
      rw [Journal.commit_stored] at stored
      split at stored
      · exact (inv.memory _ today l stored).putManifest
          ((files.opened _ today).logged l stored).describes
      · exact (inv.stored d l stored).putManifest (files.stored d l stored).describes
    case memory =>
      intro d today l remembered
      exact (inv.memory d today l remembered).putManifest
        ((files.opened d today).logged l remembered).describes
    case written => nofun
  | finished call entry body pointer held built =>
    exact inv.keep rfl (List.Subset.refl _) nofun
  | refused call entry body held length => exact inv.keep rfl (List.Subset.refl _) nofun
  | failed h held => exact inv.keep rfl (List.Subset.refl _) nofun
  | crash => exact ⟨inv.stored, nofun, nofun⟩

end

/-- What every run keeps, whatever the storage does. -/
structure Linked (s : System) (j : Journal) : Prop where
  files : Files (fun _ => none) (fun _ => []) s j
  ordered : Ordered s j
  returned : Returned s j
  objects : Objects s j

theorem linked_start : Linked .init .empty :=
  ⟨files_start found_empty, ordered_start _, nofun, objects_start _⟩

theorem linked_step {codec : Codec} {s u : System} {j : Journal} {e : Event} (inv : Linked s j)
    (h : step codec s e = some u) : ∃ j', Linked u j' := by
  obtain ⟨j', st⟩ := step_cases h j
  exact ⟨j', files_step inv.files st, ordered_step inv.ordered st,
    returned_step inv.files inv.returned st, objects_step inv.files inv.ordered inv.objects st⟩

theorem Linked.manifest {s : System} {j : Journal} (inv : Linked s j) (d : Date) :
    s.bucket (manifestKey d) = storedForm (entries (j.stored d)) := by
  rcases inv.files.manifest d with text | ⟨⟨body, found, _⟩, untouched, _⟩
  · exact text
  · rw [untouched] at found
    cases found

theorem Linked.granted {s : System} {j : Journal} (inv : Linked s j) {x : Return}
    (member : x ∈ s.returned) : x.call ∈ s.granted := by
  have stored := (inv.returned x member).stored
  exact (inv.ordered.stored _).subset (List.mem_map_of_mem stored)

end TacticalGateway.Capture
