import TacticalGateway.Lib.Linked
import TacticalGateway.Lib.Sha256
import TacticalGateway.Schema.Datetime

/-! The daily hash chain: entries, their construction and the verifier. -/
namespace TacticalGateway
open Text

def sha256 (data : Bytes) : String := Sha256.hexdigest data

def genesisPrevHash : String := String.ofList (List.replicate 64 '0')

structure ChainEntry where
  sha256 : String
  prevHash : String
  entryHash : String
  capturedAt : Datetime
  objectKey : String
  sizeBytes : Nat
  protocol : String
  deriving DecidableEq

/-- The text that is hashed for an entry. -/
def entryPayload (prevHash sha256 : String) (capturedAt : Datetime) : String :=
  prevHash ++ "\n" ++ sha256 ++ "\n" ++ capturedAt.isoformat

def hashText (payload : String) : String := sha256 (encode payload)

def computeEntryHash (prevHash sha256 : String) (capturedAt : Datetime) : String :=
  hashText (entryPayload prevHash sha256 capturedAt)

def makeEntry (prevHash : String) (rawBytes : Bytes) (capturedAt : Datetime)
    (objectKey protocol : String) : ChainEntry :=
  let sha := sha256 rawBytes
  { sha256 := sha
    prevHash := prevHash
    entryHash := computeEntryHash prevHash sha capturedAt
    capturedAt := capturedAt
    objectKey := objectKey
    sizeBytes := rawBytes.length
    protocol := protocol }

/-- The scan of `verify_chain` from entry `i` on, with the digest expected next. -/
def verifyFrom (prev : String) (i : Nat) : List ChainEntry → Bool × Option String
  | [] => (true, none)
  | e :: es =>
    if e.prevHash ≠ prev then
      (false,
        some ("entry " ++ decimal i ++ ": prev_hash mismatch (expected " ++ prefixOf 16 prev ++
        "..., got " ++ prefixOf 16 e.prevHash ++ "...)"))
    else if e.entryHash ≠ computeEntryHash e.prevHash e.sha256 e.capturedAt then
      (false, some ("entry " ++ decimal i ++ ": entry_hash mismatch"))
    else verifyFrom e.entryHash (i + 1) es

def verifyChain (entries : List ChainEntry) : Bool × Option String :=
  verifyFrom genesisPrevHash 0 entries

def ChainEntry.payload (e : ChainEntry) : String := entryPayload e.prevHash e.sha256 e.capturedAt

def ChainEntry.link (e : ChainEntry) : Linked.Link String String :=
  ⟨e.prevHash, e.payload, e.entryHash⟩

def ChainAccepted (entries : List ChainEntry) : Prop :=
  Linked.Accepted hashText ChainEntry.link genesisPrevHash entries

def chainTip (entries : List ChainEntry) : String :=
  Linked.tip ChainEntry.link genesisPrevHash entries

theorem verifyFrom_accepted (prev : String) (i : Nat) (entries : List ChainEntry) :
    verifyFrom prev i entries = (true, none) ↔
      Linked.Accepted hashText ChainEntry.link prev entries := by
  induction entries generalizing prev i with
  | nil => simp [verifyFrom, Linked.Accepted]
  | cons e es ih =>
    unfold verifyFrom
    by_cases linked : e.prevHash = prev
    · by_cases hashed : e.entryHash = computeEntryHash e.prevHash e.sha256 e.capturedAt
      · rw [if_neg (not_not.mpr linked), if_neg (not_not.mpr hashed), ih]
        exact ⟨fun h => ⟨linked, hashed, h⟩, fun h => h.2.2⟩
      · rw [if_neg (not_not.mpr linked), if_pos hashed]
        exact ⟨fun h => by simp at h, fun h => absurd h.2.1 hashed⟩
    · rw [if_pos linked]
      exact ⟨fun h => by simp at h, fun h => absurd h.1 linked⟩

theorem verifyChain_accepted (entries : List ChainEntry) :
    verifyChain entries = (true, none) ↔ ChainAccepted entries :=
  verifyFrom_accepted genesisPrevHash 0 entries

theorem chainAccepted_concat {entries : List ChainEntry} {e : ChainEntry}
    (accepted : ChainAccepted entries) (prev : e.prevHash = chainTip entries)
    (own : e.entryHash = computeEntryHash e.prevHash e.sha256 e.capturedAt) :
    ChainAccepted (entries ++ [e]) :=
  (Linked.accepted_concat _ _ _ _ _).mpr ⟨accepted, prev, own⟩

@[simp] theorem chainTip_nil : chainTip [] = genesisPrevHash := rfl

@[simp] theorem chainTip_concat (entries : List ChainEntry) (e : ChainEntry) :
    chainTip (entries ++ [e]) = e.entryHash := Linked.tip_concat _ _ _ _

theorem sha256_length (data : Bytes) : (sha256 data).toList.length = 64 :=
  Sha256.hexdigest_length data

theorem hashText_length (payload : String) : (hashText payload).toList.length = 64 := by
  rw [hashText, sha256_length]

theorem genesisPrevHash_toList : genesisPrevHash.toList = List.replicate 64 '0' :=
  String.toList_ofList

theorem genesisPrevHash_length : genesisPrevHash.toList.length = 64 := by
  rw [genesisPrevHash_toList]
  exact List.length_replicate

theorem prevHash_length {entries : List ChainEntry} (accepted : ChainAccepted entries)
    {e : ChainEntry} (member : e ∈ entries) : e.prevHash.toList.length = 64 := by
  rcases Linked.prev_of_accepted accepted member with start | ⟨p, hashed⟩
  · change e.prevHash = genesisPrevHash at start
    rw [start, genesisPrevHash_length]
  · change e.prevHash = hashText p at hashed
    rw [hashed, hashText_length]

/-- The payload determines its parts: the first is 64 characters long and the last has no
line feed. The middle part may hold any text. -/
theorem entryPayload_inj {prev prev' sha sha' : String} {t t' : Datetime}
    (len : prev.toList.length = 64) (len' : prev'.toList.length = 64)
    (same : entryPayload prev sha t = entryPayload prev' sha' t') :
    prev = prev' ∧ sha = sha' ∧ t.isoformat = t'.isoformat := by
  have chars : prev.toList ++ '\n' :: (sha.toList ++ '\n' :: t.isoformat.toList) =
      prev'.toList ++ '\n' :: (sha'.toList ++ '\n' :: t'.isoformat.toList) := by
    simpa [entryPayload, String.toList_append] using congrArg String.toList same
  obtain ⟨prevs, rests⟩ := List.append_inj chars (len.trans len'.symm)
  obtain ⟨shas, isos⟩ := cut_unique_last (newline_not_mem_isoformat t)
    (newline_not_mem_isoformat t') (List.cons.inj rests).2
  exact ⟨String.toList_inj.mp prevs, String.toList_inj.mp shas, String.toList_inj.mp isos⟩

structure SameRecord (e f : ChainEntry) : Prop where
  prevHash : e.prevHash = f.prevHash
  sha256 : e.sha256 = f.sha256
  entryHash : e.entryHash = f.entryHash
  capturedAt : e.capturedAt.isoformat = f.capturedAt.isoformat

theorem entryHash_of_accepted {entries : List ChainEntry} {prev : String}
    (accepted : Linked.Accepted hashText ChainEntry.link prev entries)
    {e : ChainEntry} (member : e ∈ entries) : e.entryHash = hashText e.payload := by
  induction entries generalizing prev with
  | nil => cases member
  | cons first es ih =>
    rcases List.mem_cons.mp member with rfl | later
    · exact accepted.2.1
    · exact ih accepted.2.2 later

theorem sameRecord_of_payload {es fs : List ChainEntry} (accepted_es : ChainAccepted es)
    (accepted_fs : ChainAccepted fs) {e f : ChainEntry} (he : e ∈ es) (hf : f ∈ fs)
    (same : e.payload = f.payload) : SameRecord e f := by
  obtain ⟨prev, sha, iso⟩ :=
    entryPayload_inj (prevHash_length accepted_es he) (prevHash_length accepted_fs hf) same
  exact ⟨prev, sha, by rw [entryHash_of_accepted accepted_es he, same,
    ← entryHash_of_accepted accepted_fs hf], iso⟩

theorem records_of_payloads {es fs : List ChainEntry} (accepted_es : ChainAccepted es)
    (accepted_fs : ChainAccepted fs)
    (payloads : es.map ChainEntry.payload = fs.map ChainEntry.payload) :
    List.Forall₂ SameRecord es fs := by
  have same : List.Forall₂ (fun a b => a.payload = b.payload) es fs :=
    List.forall₂_map_left_iff.mp (List.forall₂_map_right_iff.mp (List.forall₂_eq_eq_eq ▸ payloads))
  exact List.forall₂_iff_zip.mpr ⟨same.length_eq, fun {a b} pair =>
    sameRecord_of_payload accepted_es accepted_fs (List.of_mem_zip pair).1 (List.of_mem_zip pair).2
      ((List.forall₂_iff_zip.mp same).2 pair)⟩

/-- Two verified chains with one final hash agree record by record, or the hashed texts
hold a SHA-256 collision or a text whose SHA-256 is the genesis value. -/
theorem verified_chains_agree (es fs : List ChainEntry)
    (verified_es : verifyChain es = (true, none)) (verified_fs : verifyChain fs = (true, none))
    (e f : ChainEntry) (last_es : es.getLast? = some e) (last_fs : fs.getLast? = some f)
    (same_tip : e.entryHash = f.entryHash) :
    (es.length = fs.length ∧ List.Forall₂ SameRecord es fs) ∨
      (∃ p ∈ (es ++ fs).map ChainEntry.payload, ∃ q ∈ (es ++ fs).map ChainEntry.payload,
        p ≠ q ∧ sha256 (encode p) = sha256 (encode q)) ∨
      (∃ p ∈ (es ++ fs).map ChainEntry.payload, sha256 (encode p) = genesisPrevHash) := by
  have accepted_es := (verifyChain_accepted es).mp verified_es
  have accepted_fs := (verifyChain_accepted fs).mp verified_fs
  have tips : chainTip es = chainTip fs := by
    simp only [chainTip, Linked.tip, last_es, last_fs, Option.map_some, Option.getD_some]
    exact same_tip
  have compared := Linked.common_tip hashText ChainEntry.link genesisPrevHash es fs
    accepted_es accepted_fs
    (fun a ha b hb same => (sameRecord_of_payload accepted_es accepted_fs ha hb same).prevHash) tips
  rcases compared with payloads | collision | preimage
  · have records := records_of_payloads accepted_es accepted_fs payloads
    exact .inl ⟨records.length_eq, records⟩
  · exact .inr (.inl collision)
  · exact .inr (.inr preimage)

def twoEntries (key protocol : String) : List ChainEntry :=
  let first := makeEntry genesisPrevHash [] newYear "raw/a" "cot_xml"
  [first, makeEntry first.entryHash [0x3C] newYear key protocol]

theorem twoEntries_verified (key protocol : String) :
    verifyChain (twoEntries key protocol) = (true, none) :=
  (verifyChain_accepted _).mpr ⟨rfl, rfl, rfl, rfl, trivial⟩

theorem twoEntries_rekeyed : twoEntries "raw/b" "cot_xml" ≠ twoEntries "raw/c" "kmz" := by
  simp [twoEntries, makeEntry]

/-- The key and the protocol are not hashed: chains that differ in them verify alike. -/
theorem verified_chains_agree_rekeyed :
    ∃ es fs, verifyChain es = (true, none) ∧ verifyChain fs = (true, none) ∧ es.length = 2 ∧
      es ≠ fs ∧ ((es.length = fs.length ∧ List.Forall₂ SameRecord es fs) ∨
        (∃ p ∈ (es ++ fs).map ChainEntry.payload, ∃ q ∈ (es ++ fs).map ChainEntry.payload,
          p ≠ q ∧ sha256 (encode p) = sha256 (encode q)) ∨
        (∃ p ∈ (es ++ fs).map ChainEntry.payload, sha256 (encode p) = genesisPrevHash)) := by
  have verified := twoEntries_verified "raw/b" "cot_xml"
  have verified' := twoEntries_verified "raw/c" "kmz"
  exact ⟨_, _, verified, verified', rfl, twoEntries_rekeyed,
    verified_chains_agree _ _ verified verified' _ _ rfl rfl rfl⟩

end TacticalGateway
