import TacticalGateway.Opstore.Batches
import TacticalGateway.Opstore.Order

/-! Whole-overlay supersession: which rows are current after a sequence of KMZ ingests, however
the flushes of the service cut it into batches. -/
namespace TacticalGateway.Opstore
open Execution
open Json (Value)

theorem colon_not_mem_value (source : IngestSource) : ':' ∉ source.value.toList := by
  cases source <;> decide

theorem bufferKey_named (pg : Postgres) {c : CTO} {filename : String} {source : IngestSource}
    (nonempty : filename ≠ "")
    (file : attr c "parent_kmz_filename" = .str filename)
    (from_source : attr c "parent_kmz_source" = .str source.value) :
    bufferKey pg c = "kmz:" ++ filename ++ ":" ++ source.value := by
  have truthy : (Value.str filename).truthy = true := by simp [truthy_str, nonempty]
  simp only [bufferKey, file, from_source, truthy, if_true, pg.pyStr_str]

theorem bufferKey_ingest (pg : Postgres) {i : Ingest} {c : CTO} (member : c ∈ i.ctos) :
    bufferKey pg c = "kmz:" ++ i.filename ++ ":" ++ i.source.value := by
  obtain ⟨name, from_source⟩ := i.attributed c member
  exact bufferKey_named pg i.named name from_source

theorem bufferKey_null (pg : Postgres) {c : CTO} (no_file : attr c "parent_kmz_filename" = .null) :
    bufferKey pg c = "stream:" ++ c.sourceSystem := by
  simp only [bufferKey, no_file]
  rfl

theorem kmzKey_injective {f g : String} {i j : IngestSource}
    (same : "kmz:" ++ f ++ ":" ++ i.value = "kmz:" ++ g ++ ":" ++ j.value) :
    f = g ∧ i.value = j.value := by
  have chars : f.toList ++ ':' :: i.value.toList = g.toList ++ ':' :: j.value.toList := by
    simpa using congrArg String.toList same
  obtain ⟨names, sources⟩ := Text.cut_unique_last (colon_not_mem_value i)
    (colon_not_mem_value j) chars
  exact ⟨String.toList_injective names, String.toList_injective sources⟩

theorem kmzKey_ne_streamKey (filename source sourceSystem : String) :
    "kmz:" ++ filename ++ ":" ++ source ≠ "stream:" ++ sourceSystem := by
  intro same
  have chars := congrArg String.toList same
  simp at chars

theorem kmzParent_of_key {pg : Postgres} {c d : CTO} (hc : Plain c) (hd : Plain d)
    (same : bufferKey pg c = bufferKey pg d) : kmzParent c = kmzParent d := by
  rcases hc with ⟨i, hc⟩ | hc
  · rcases hd with ⟨j, hd⟩ | hd
    · rw [bufferKey_ingest pg hc, bufferKey_ingest pg hd] at same
      obtain ⟨name, from_source⟩ := kmzKey_injective same
      rw [kmzParent_ingest hc, kmzParent_ingest hd, Ingest.parent, Ingest.parent, name, from_source]
    · rw [bufferKey_ingest pg hc, bufferKey_null pg hd] at same
      exact absurd same (kmzKey_ne_streamKey _ _ _)
  · rcases hd with ⟨j, hd⟩ | hd
    · rw [bufferKey_null pg hc, bufferKey_ingest pg hd] at same
      exact absurd same.symm (kmzKey_ne_streamKey _ _ _)
    · rw [kmzParent_null hc, kmzParent_null hd]

theorem key_of_kmzParent {pg : Postgres} {i : Ingest} {c d : CTO} (hc : c ∈ i.ctos) (hd : Plain d)
    (same : kmzParent d = some i.parent) : bufferKey pg d = bufferKey pg c := by
  rcases hd with ⟨j, hd⟩ | hd
  · rw [kmzParent_ingest hd] at same
    obtain ⟨name, from_source⟩ := Prod.mk.inj (Option.some.inj same)
    rw [bufferKey_ingest pg hc, bufferKey_ingest pg hd, name, from_source]
  · rw [kmzParent_null hd] at same
    cases same

/-- The messages are the objects of these ingests, each file's in the order of its ingests, and
objects without a KMZ file name. All are new to the table. -/
structure Published (db₀ : Database) (ingests : List Ingest) (arrived : List CTO) : Prop where
  inOrder : ∀ i ∈ ingests, arrived.filter (fun c => kmzParent c = some i.parent) =
    (ingests.filter (fun j => j.parent = i.parent)).flatMap Ingest.ctos
  others : ∀ c ∈ arrived, (∃ i ∈ ingests, c ∈ i.ctos) ∨ attr c "parent_kmz_filename" = .null
  distinct : (arrived.map CTO.uid).Nodup
  fresh : ∀ c ∈ arrived, c.uid ∉ db₀.cto.keys

/-- Every message has been flushed, and no write raised or was abandoned. -/
structure Settled (s : Service) : Prop where
  lossless : Lossless s
  buffered : s.buffer.contents = []
  written : s.phase.running = []

/-- The current rows of the file are those of its latest ingest, and the rows of the earlier
ingests have an end of validity. -/
def Superseded (db : Database) (earlier : List Ingest) (latest : Ingest) : Prop :=
  (∀ uid, (∃ r ∈ db.cto.rows, r.uid = uid ∧
      r.currentOf latest.filename latest.source.value = true) ↔ uid ∈ latest.ctos.map CTO.uid) ∧
    ∀ i ∈ earlier, ∀ c ∈ i.ctos, ∃ r ∈ db.cto.rows, r.uid = c.uid ∧ r.validTo ≠ none

variable {M : Type*} {validate : M → Option CTO} {pg : Postgres} {db₀ : Database}

theorem Published.plain {ingests : List Ingest} {arrived : List CTO}
    (published : Published db₀ ingests arrived) {c : CTO} (member : c ∈ arrived) : Plain c := by
  rcases published.others c member with ⟨i, _, own⟩ | no_file
  · exact .inl ⟨i, own⟩
  · exact .inr no_file

theorem regular_taken {ingests : List Ingest} {arrived : List CTO} {s : Service}
    (published : Published db₀ ingests arrived) (queued : Queued pg arrived s)
    (all : arrived.Perm s.taken.flatten) : Regular db₀ s.taken where
  uniform batch member := by
    obtain ⟨nonempty, k, keyed⟩ := queued.uniform batch member
    refine ⟨nonempty, ?_⟩
    intro c hc d hd
    have arrived_of (x : CTO) (hx : x ∈ batch) : x ∈ arrived :=
      all.mem_iff.mpr (List.mem_flatten.mpr ⟨batch, member, hx⟩)
    exact kmzParent_of_key (published.plain (arrived_of c hc)) (published.plain (arrived_of d hd))
      ((keyed c hc).trans (keyed d hd).symm)
  plain c member := published.plain (all.mem_iff.mpr member)
  distinct := (all.map CTO.uid).nodup_iff.mp published.distinct
  fresh c member := published.fresh c (all.mem_iff.mpr member)

theorem batches_of_file {ingests : List Ingest} {arrived : List CTO} {s : Service} {i : Ingest}
    (published : Published db₀ ingests arrived) (queued : Queued pg arrived s)
    (empty : ∀ k, s.buffer.queue k = []) (member : i ∈ ingests) :
    (batchesOf i.parent s.taken).flatten =
      (ingests.filter (fun j => j.parent = i.parent)).flatMap Ingest.ctos := by
  have all := queued.perm empty
  have regular := regular_taken published queued all
  obtain ⟨c, own⟩ := List.exists_mem_of_ne_nil _ i.nonempty
  have by_key (d : CTO) (plain : Plain d) :
      decide (kmzParent d = some i.parent) = decide (bufferKey pg d = bufferKey pg c) := by
    apply decide_eq_decide.mpr
    constructor
    · exact key_of_kmzParent own plain
    · intro same
      rw [kmzParent_of_key plain (.inl ⟨i, own⟩) same, kmzParent_ingest own]
  have order := queued.order (bufferKey pg c)
  rw [empty, List.append_nil] at order
  calc (batchesOf i.parent s.taken).flatten
    _ = s.taken.flatten.filter (fun d => kmzParent d = some i.parent) := by
      apply KeyedQueue.flatten_filter_head
      intro batch taken
      obtain ⟨nonempty, one_file⟩ := regular.uniform batch taken
      exact ⟨nonempty, fun a ha b hb => by rw [one_file a ha b hb]⟩
    _ = s.taken.flatten.filter (fun d => bufferKey pg d = bufferKey pg c) :=
      List.filter_congr (fun d hd => by_key d (regular.plain d hd))
    _ = arrived.filter (fun d => bufferKey pg d = bufferKey pg c) := order.symm
    _ = arrived.filter (fun d => kmzParent d = some i.parent) :=
      List.filter_congr (fun d hd => (by_key d (published.plain hd)).symm)
    _ = (ingests.filter (fun j => j.parent = i.parent)).flatMap Ingest.ctos :=
      published.inOrder i member

theorem ends_eq {A K : Type*} {f : A → K} {xs ys b l : List A} (same : xs ++ b = ys ++ l)
    (distinct : ((ys ++ l).map f).Nodup) (keys : ∀ k, k ∈ b.map f ↔ k ∈ l.map f) : b = l := by
  have left : (b.map f).Nodup := by
    rw [← same, List.map_append] at distinct
    exact (List.nodup_append.mp distinct).2.1
  have right : (l.map f).Nodup := by
    rw [List.map_append] at distinct
    exact (List.nodup_append.mp distinct).2.1
  have size := ((List.perm_ext_iff_of_nodup left right).mpr keys).length_eq
  rw [List.length_map, List.length_map] at size
  exact (List.append_inj' same size).2

theorem retired_row {db : Database} {batches : List (List CTO)} {parent : String × String}
    {last : List CTO} {c : CTO} (written : Written db₀ db batches)
    (found : (batchesOf parent batches).getLast? = some last) (member : c ∈ batches.flatten)
    (own : kmzParent c = some parent) (old : c.uid ∉ last.map CTO.uid) :
    ∃ r ∈ db.cto.rows, r.uid = c.uid ∧ r.validTo ≠ none := by
  obtain ⟨r, there, same, parents⟩ := written.stored c member
  obtain ⟨name, from_source⟩ := parents _ _ own
  refine ⟨r, there, same, ?_⟩
  intro open_ended
  have now : r.currentOf parent.1 parent.2 = true := by
    simp [Row.currentOf, name, from_source, open_ended]
  exact old ((written.current parent.1 parent.2 last found c.uid).mp ⟨r, there, same, now⟩)

/-- Once every message has been flushed without error, the current rows of a file are those of its
latest ingest, and all earlier ones are retired, exactly when the last flush that found objects
of the file in the buffer found that ingest, whole and alone. -/
theorem superseded_iff {M : Type*} (validate : M → Option CTO) (pg : Postgres) (db₀ : Database)
    (events : List (Event M)) (s : Service)
    (ran : run (step validate pg) (start db₀) events = some s) (settled : Settled s)
    (ingests : List Ingest) (published : Published db₀ ingests (arrivals validate events))
    (earlier : List Ingest) (latest : Ingest)
    (own : ingests.filter (fun i => i.parent = latest.parent) = earlier ++ [latest]) :
    Superseded s.db earlier latest ↔
      (batchesOf latest.parent s.taken).getLast? = some latest.ctos := by
  have queued := run_queued ran
  have empty := (Dict.contents_eq_nil_iff s.buffer).mp settled.buffered
  have all := queued.perm empty
  have regular := regular_taken published queued all
  obtain ⟨_, batches, taken, table⟩ := run_sequenced ran settled.lossless
  rw [settled.written, List.append_nil] at taken
  subst taken
  have written := run_written regular table
  have member : latest ∈ ingests := by
    have among : latest ∈ ingests.filter (fun i => i.parent = latest.parent) := by simp [own]
    exact (List.mem_filter.mp among).1
  have stream := batches_of_file published queued empty member
  have order := published.inOrder latest member
  simp only [own, List.flatMap_append, List.flatMap_singleton] at stream order
  have distinct : ((earlier.flatMap Ingest.ctos ++ latest.ctos).map CTO.uid).Nodup :=
    order ▸ published.distinct.sublist (List.filter_sublist.map _)
  have nonempty : batchesOf latest.parent s.taken ≠ [] := by
    intro none_taken
    rw [none_taken, List.flatten_nil] at stream
    exact latest.nonempty (List.append_eq_nil_iff.mp stream.symm).2
  obtain ⟨init, last, split⟩ := (List.eq_nil_or_concat' _).resolve_left nonempty
  have found : (batchesOf latest.parent s.taken).getLast? = some last := by
    rw [split, List.getLast?_concat]
  have current := written.current latest.filename latest.source.value last found
  rw [split, List.flatten_append, List.flatten_singleton] at stream
  rw [found, Option.some.injEq]
  constructor
  · rintro ⟨now, _⟩
    -- the last batch and the latest ingest end the same stream of objects
    exact ends_eq stream distinct (fun uid => (current uid).symm.trans (now uid))
  · rintro rfl
    refine ⟨current, ?_⟩
    intro i before c published_by
    have in_earlier : c ∈ earlier.flatMap Ingest.ctos :=
      List.mem_flatMap.mpr ⟨i, before, published_by⟩
    have among : c ∈ (arrivals validate events).filter
      (fun c => kmzParent c = some latest.parent) :=
      order ▸ List.mem_append_left _ in_earlier
    obtain ⟨arrived, parent⟩ := List.mem_filter.mp among
    apply retired_row written found (all.mem_iff.mp arrived) (of_decide_eq_true parent)
    intro in_latest
    rw [List.map_append] at distinct
    exact (List.nodup_append.mp distinct).2.2 _ (List.mem_map_of_mem in_earlier) _ in_latest rfl

def overlay (uid : UUID) (uids : List UUID) : Ingest where
  filename := "a.kmz"
  source := .folder
  receivedAt := newYear
  ctos := (uid :: uids).map (fun u => placemark u newYear)
  named := by decide
  nonempty := by simp
  attributed := by
    intro c member
    obtain ⟨u, _, rfl⟩ := List.mem_map.mp member
    exact ⟨rfl, rfl⟩
  open_ended := by
    intro c member
    obtain ⟨u, _, rfl⟩ := List.mem_map.mp member
    exact ⟨rfl, rfl⟩

def flushRound : List (Event CTO) := [.elapse batchWindow, .wake, .writeEnds true, .resume]

def twoFlushes : List (Event CTO) :=
  [.wake, .message (placemark 1 newYear)] ++ flushRound ++
    [.message (placemark 2 newYear)] ++ flushRound

def oneFlush : List (Event CTO) :=
  [.wake, .message (placemark 1 newYear), .message (placemark 2 newYear)] ++ flushRound

theorem twoFlushes_run : ∃ s, run (step some plainPostgres)
    (start ⟨.empty, []⟩) twoFlushes = some s ∧
    Settled s ∧ s.taken = [[placemark 1 newYear], [placemark 2 newYear]] ∧
    s.db.cto.rows.map (fun r => (r.uid, r.validTo)) = [(1, some newYear), (2, none)] :=
  ⟨_, rfl, ⟨⟨rfl, rfl⟩, rfl, rfl⟩, rfl, rfl⟩

theorem oneFlush_run : ∃ s, run (step some plainPostgres) (start ⟨.empty, []⟩) oneFlush = some s ∧
    Settled s ∧ s.db.cto.rows.map (fun r => (r.uid, r.validTo)) = [(1, none), (2, none)] :=
  ⟨_, rfl, ⟨⟨rfl, rfl⟩, rfl, rfl⟩, rfl⟩

theorem published_overlays {ingests : List Ingest}
    (one_file : ∀ i ∈ ingests, i.parent = ("a.kmz", "folder"))
    (both : ingests.flatMap Ingest.ctos = [placemark 1 newYear, placemark 2 newYear]) :
    Published ⟨.empty, []⟩ ingests [placemark 1 newYear, placemark 2 newYear] where
  inOrder i member := by
    have same : ingests.filter (fun j => j.parent = i.parent) = ingests := by
      apply List.filter_eq_self.mpr
      intro j other
      simp [one_file j other, one_file i member]
    rw [same, both, one_file i member]
    rfl
  others c member := by
    rw [← both] at member
    exact .inl (List.mem_flatMap.mp member)
  distinct := by decide
  fresh c _ := List.not_mem_nil

theorem superseded_iff_twoFlushes :
    ∃ s, run (step some plainPostgres) (start ⟨.empty, []⟩) twoFlushes = some s ∧ Settled s ∧
      (Superseded s.db [overlay 1 []] (overlay 2 []) ↔
        (batchesOf ("a.kmz", "folder") s.taken).getLast? = some [placemark 2 newYear]) := by
  obtain ⟨s, ran, settled, _⟩ := twoFlushes_run
  have published : Published ⟨.empty, []⟩ [overlay 1 [], overlay 2 []] (arrivals some twoFlushes) :=
    published_overlays (by simp [overlay, Ingest.parent, IngestSource.value]) rfl
  exact ⟨s, ran, settled, superseded_iff some plainPostgres ⟨.empty, []⟩ twoFlushes s ran settled
    [overlay 1 [], overlay 2 []] published [overlay 1 []] (overlay 2 []) rfl⟩

/-- One ingest cut by a flush retires its own first half, and of two ingests in one flush the
earlier one stays current. -/
theorem cuts_break_overlays :
    (∃ s, run (step some plainPostgres) (start ⟨.empty, []⟩) twoFlushes = some s ∧ Settled s ∧
      Published ⟨.empty, []⟩ [overlay 1 [2]] (arrivals some twoFlushes) ∧
      ¬ Superseded s.db [] (overlay 1 [2])) ∧
    ∃ s, run (step some plainPostgres) (start ⟨.empty, []⟩) oneFlush = some s ∧ Settled s ∧
      Published ⟨.empty, []⟩ [overlay 1 [], overlay 2 []] (arrivals some oneFlush) ∧
      ¬ Superseded s.db [overlay 1 []] (overlay 2 []) := by
  constructor
  · obtain ⟨s, ran, settled, _, rows⟩ := twoFlushes_run
    refine ⟨s, ran, settled, published_overlays ?_ rfl, ?_⟩
    · simp [overlay, Ingest.parent, IngestSource.value]
    · rintro ⟨now, _⟩
      obtain ⟨r, there, uid, current⟩ := (now 1).mpr (List.mem_cons_self)
      have listed : (r.uid, r.validTo) ∈ [(1, some newYear), (2, none)] :=
        rows ▸ List.mem_map.mpr ⟨r, there, rfl⟩
      simp only [Row.currentOf, Bool.and_eq_true, Option.isNone_iff_eq_none] at current
      simp [uid, current.2] at listed
  · obtain ⟨s, ran, settled, rows⟩ := oneFlush_run
    refine ⟨s, ran, settled, published_overlays ?_ rfl, ?_⟩
    · simp [overlay, Ingest.parent, IngestSource.value]
    · rintro ⟨_, retired⟩
      obtain ⟨r, there, uid, closed⟩ := retired _ List.mem_cons_self _ List.mem_cons_self
      have listed : (r.uid, r.validTo) ∈ [(1, none), (2, none)] :=
        rows ▸ List.mem_map.mpr ⟨r, there, rfl⟩
      simp [uid, closed] at listed

end TacticalGateway.Opstore
