import Mathlib

/-! The entry of a table with the longest key that begins a text, and the search for it by cutting
the text to shorter and shorter lengths. -/
namespace LongestPrefix

variable {α β : Type*} (Entry : List α → β → Prop)

/-- The value of the longest key that begins the text, none where no key does. -/
def Longest (text : List α) : Option β → Prop
  | none => ∀ key v, Entry key v → ¬ key <+: text
  | some v => ∃ key, Entry key v ∧ key <+: text ∧
    ∀ key' v', Entry key' v' → key' <+: text → key'.length ≤ key.length

variable {Entry}

theorem longest_congr {s t : List α} (same : ∀ key v, Entry key v → (key <+: s ↔ key <+: t))
    (r : Option β) : Longest Entry s r ↔ Longest Entry t r := by
  cases r with
  | none =>
    constructor
    · intro missing key v entry begins
      exact missing key v entry ((same key v entry).mpr begins)
    · intro missing key v entry begins
      exact missing key v entry ((same key v entry).mp begins)
  | some v =>
    constructor
    · rintro ⟨key, entry, begins, most⟩
      exact ⟨key, entry, (same key v entry).mp begins, fun key' v' entry' begins' =>
        most key' v' entry' ((same key' v' entry').mpr begins')⟩
    · rintro ⟨key, entry, begins, most⟩
      exact ⟨key, entry, (same key v entry).mpr begins, fun key' v' entry' begins' =>
        most key' v' entry' ((same key' v' entry').mp begins')⟩

/-- Trying the lengths downwards finds it, where no key has a length that is left out. -/
theorem longest_findSome? {find : List α → Option β} (finds : ∀ key v, find key = some v ↔ Entry key v)
    {ns : List Nat} (descending : ns.Pairwise (· ≥ ·)) {text : List α}
    (complete : ∀ key v, Entry key v → key <+: text → key.length ∈ ns) :
    Longest Entry text (ns.findSome? (fun n => find (text.take n))) := by
  cases found : ns.findSome? (fun n => find (text.take n)) with
  | none =>
    intro key v entry begins
    have tried := List.findSome?_eq_none_iff.mp found _ (complete key v entry begins)
    rw [← List.prefix_iff_eq_take.mp begins, (finds key v).mpr entry] at tried
    cases tried
  | some v =>
    obtain ⟨before, n, after, rfl, here, failed⟩ := List.findSome?_eq_some_iff.mp found
    refine ⟨text.take n, (finds _ v).mp here, List.take_prefix n text, ?_⟩
    intro key v' entry begins
    have shorter : key.length ≤ n := by
      rcases List.mem_append.mp (complete key v' entry begins) with early | late
      · have tried := failed _ early
        rw [← List.prefix_iff_eq_take.mp begins, (finds key v').mpr entry] at tried
        cases tried
      · rcases List.mem_cons.mp late with same | later
        · exact Nat.le_of_eq same
        · exact (List.pairwise_cons.mp (List.pairwise_append.mp descending).2.1).1 _ later
    rw [List.length_take]
    exact Nat.le_min.mpr ⟨shorter, begins.length_le⟩

theorem Longest.of_entry {text : List α} {r : Option β} (longest : Longest Entry text r)
    (apart : ∀ key v key' v', Entry key v → Entry key' v' → key <+: key' → key = key' ∧ v = v')
    {key : List α} {v : β} (entry : Entry key v) (begins : key <+: text) : r = some v := by
  cases r with
  | none => exact absurd begins (longest key v entry)
  | some w =>
    obtain ⟨other, listed, front, -⟩ := longest
    rcases List.prefix_or_prefix_of_prefix begins front with inside | inside
    · rw [(apart key v other w entry listed inside).2]
    · rw [(apart other w key v listed entry inside).2]

section

variable {p : α → Bool}

theorem exists_prefix_filter {key text : List α} (begins : key <+: text.filter p) :
    ∃ front, front <+: text ∧ front.filter p = key ∧ ∀ c, front.getLast? = some c → p c = true := by
  induction text generalizing key with
  | nil =>
    rw [List.filter_nil, List.prefix_nil] at begins
    exact ⟨[], List.prefix_rfl, begins.symm, fun c last => by cases last⟩
  | cons a text ih =>
    cases key with
    | nil => exact ⟨[], List.nil_prefix, rfl, fun c last => by cases last⟩
    | cons k key =>
      cases kept : p a with
      | true =>
        rw [List.filter_cons_of_pos kept] at begins
        obtain ⟨rfl, later⟩ := List.cons_prefix_cons.mp begins
        obtain ⟨front, first, same, ends⟩ := ih later
        refine ⟨k :: front, List.cons_prefix_cons.mpr ⟨rfl, first⟩, ?_, ?_⟩
        · rw [List.filter_cons_of_pos kept, same]
        · intro c last
          cases front with
          | nil =>
            cases Option.some.inj last
            exact kept
          | cons d front => exact ends c (by rwa [List.getLast?_cons_cons] at last)
      | false =>
        rw [List.filter_cons_of_neg (by simp [kept])] at begins
        obtain ⟨front, first, same, ends⟩ := ih begins
        refine ⟨a :: front, List.cons_prefix_cons.mpr ⟨rfl, first⟩, ?_, ?_⟩
        · rw [List.filter_cons_of_neg (by simp [kept]), same]
        · intro c last
          cases front with
          | nil => cases same
          | cons d front => exact ends c (by rwa [List.getLast?_cons_cons] at last)

end

end LongestPrefix
