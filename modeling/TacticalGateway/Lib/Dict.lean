import Mathlib

/-! Insertion-ordered dictionaries with distinct keys, and dictionaries of lists used as
per-key queues. -/

structure Dict (K V : Type*) where
  items : List (K × V)
  distinct : (items.map Prod.fst).Nodup

namespace Dict

variable {K V : Type*}

def empty : Dict K V := ⟨[], List.nodup_nil⟩

def keys (d : Dict K V) : List K := d.items.map Prod.fst

theorem ext_items {d d' : Dict K V} (same : d.items = d'.items) : d = d' := by
  cases d
  cases d'
  cases same
  rfl

variable [DecidableEq K]

def get? (d : Dict K V) (key : K) : Option V := (d.items.find? (fun i => i.1 = key)).map Prod.snd

/-- `d.pop(key, None)`, the dictionary that is left. -/
def erase (d : Dict K V) (key : K) : Dict K V :=
  ⟨d.items.filter (fun i => i.1 ≠ key), d.distinct.sublist (List.filter_sublist.map _)⟩

theorem keys_replace (items : List (K × V)) (key : K) (value : V) :
    (items.map (fun i => if i.1 = key then (key, value) else i)).map Prod.fst =
      items.map Prod.fst := by
  rw [List.map_map]
  apply List.map_congr_left
  intro i _
  by_cases h : i.1 = key
  · simp [h]
  · simp [h]

/-- `d[key] = value`: a present key keeps its place, a new one goes to the end. -/
def set (d : Dict K V) (key : K) (value : V) : Dict K V :=
  if h : key ∈ d.keys then
    ⟨d.items.map (fun i => if i.1 = key then (key, value) else i), by
      rw [keys_replace]; exact d.distinct⟩
  else
    ⟨d.items ++ [(key, value)], by
      rw [List.map_append, List.map_cons, List.map_nil]
      exact List.nodup_append.mpr ⟨d.distinct, List.nodup_singleton key, by
        intro a ha b hb same
        have hk : a = key := same.trans (List.mem_singleton.mp hb)
        exact h (hk ▸ ha)⟩⟩

theorem items_set (d : Dict K V) (key : K) (value : V) :
    (d.set key value).items =
      if key ∈ d.keys then d.items.map (fun i => if i.1 = key then (key, value) else i)
      else d.items ++ [(key, value)] := by
  unfold set
  split <;> rfl

theorem keys_set (d : Dict K V) (key : K) (value : V) :
    (d.set key value).keys = if key ∈ d.keys then d.keys else d.keys ++ [key] := by
  rw [keys, items_set]
  split
  · rw [keys_replace]
    rfl
  · rw [List.map_append]
    rfl

@[simp] theorem get?_empty (key : K) : (empty : Dict K V).get? key = none := rfl

theorem mem_keys_iff (d : Dict K V) (key : K) : key ∈ d.keys ↔ (d.get? key).isSome := by
  simp only [keys, get?, Option.isSome_map, List.find?_isSome, List.mem_map, decide_eq_true_eq]

theorem get?_eq_none_iff (d : Dict K V) (key : K) : d.get? key = none ↔ key ∉ d.keys := by
  rw [mem_keys_iff, Option.not_isSome_iff_eq_none]

theorem mem_items_of_get? {d : Dict K V} {key : K} {value : V} (found : d.get? key = some value) :
    (key, value) ∈ d.items := by
  obtain ⟨item, here, rfl⟩ := Option.map_eq_some_iff.mp found
  have own : item.1 = key := by simpa using List.find?_some here
  subst own
  exact List.mem_of_find?_eq_some here

theorem get?_of_mem {d : Dict K V} {i : K × V} (member : i ∈ d.items) :
    d.get? i.1 = some i.2 := by
  rw [get?]
  cases found : d.items.find? (fun j => j.1 = i.1) with
  | none => exact absurd (List.find?_eq_none.mp found i member) (by simp)
  | some j =>
    have same : j.1 = i.1 := by simpa using List.find?_some found
    rw [List.inj_on_of_nodup_map d.distinct (List.mem_of_find?_eq_some found) member same]
    rfl

theorem keys_erase (d : Dict K V) (key : K) : (d.erase key).keys = d.keys.filter (· ≠ key) := by
  simp only [keys, erase, List.filter_map]
  rfl

@[simp] theorem get?_erase_self (d : Dict K V) (key : K) : (d.erase key).get? key = none := by
  rw [get?_eq_none_iff, keys_erase]
  simp

theorem get?_erase_ne (d : Dict K V) {key other : K} (h : other ≠ key) :
    (d.erase key).get? other = d.get? other := by
  simp only [get?, erase, List.find?_filter]
  congr 2
  funext i
  by_cases same : i.1 = other
  · simp [same, h]
  · simp [same]

theorem find?_replace_self (items : List (K × V)) (key : K) (value : V)
    (present : key ∈ items.map Prod.fst) :
    (items.map (fun i => if i.1 = key then (key, value) else i)).find? (fun i => i.1 = key) =
      some (key, value) := by
  induction items with
  | nil => cases present
  | cons i items ih =>
    by_cases h : i.1 = key
    · simp [h]
    · have later : key ∈ items.map Prod.fst := by
        rcases List.mem_cons.mp present with here | later
        · exact absurd here.symm h
        · exact later
      simp only [List.map_cons, if_neg h, List.find?_cons, decide_eq_false h]
      exact ih later

@[simp] theorem get?_set_self (d : Dict K V) (key : K) (value : V) :
    (d.set key value).get? key = some value := by
  unfold set
  split
  · rename_i present
    simp only [get?, find?_replace_self d.items key value present, Option.map_some]
  · rename_i absent
    have none_before := (get?_eq_none_iff d key).mpr absent
    simp only [get?, Option.map_eq_none_iff] at none_before
    simp [get?, List.find?_append, none_before]

theorem get?_set_ne (d : Dict K V) {key other : K} (value : V) (h : other ≠ key) :
    (d.set key value).get? other = d.get? other := by
  unfold set
  split
  · simp only [get?, List.find?_map]
    congr 1
    have same : ((fun i : K × V => decide (i.1 = other)) ∘
        fun i : K × V => if i.1 = key then (key, value) else i) =
          fun i => decide (i.1 = other) := by
      funext i
      by_cases hi : i.1 = key
      · simp [hi]
      · simp [hi]
    rw [same]
    cases found : d.items.find? (fun i => decide (i.1 = other)) with
    | none => rfl
    | some i =>
      have hi : i.1 = other := by simpa using List.find?_some found
      simp [hi, h]
  · simp only [get?, List.find?_append]
    cases d.items.find? (fun i => decide (i.1 = other)) with
    | none => simp [h.symm]
    | some i => rfl

theorem items_foldl_set (entries : List (K × V)) (d : Dict K V)
    (distinct : (d.keys ++ entries.map Prod.fst).Nodup) :
    (entries.foldl (fun d e => d.set e.1 e.2) d).items = d.items ++ entries := by
  induction entries generalizing d with
  | nil => simp
  | cons e entries ih =>
    have absent : e.1 ∉ d.keys := by
      intro present
      exact (List.nodup_append.mp distinct).2.2 e.1 present e.1 List.mem_cons_self rfl
    have items : (d.set e.1 e.2).items = d.items ++ [e] := by rw [items_set, if_neg absent]
    have keys : (d.set e.1 e.2).keys = d.keys ++ [e.1] := by
      rw [Dict.keys, items, List.map_append]
      rfl
    rw [List.foldl_cons, ih _ (by rw [keys]; simpa using distinct), items]
    simp

/-! A dictionary of lists as a family of queues. -/

section Queues

variable {A : Type*}

def queue (d : Dict K (List A)) (key : K) : List A := (d.get? key).getD []

/-- `d[key].append(a)` on a `defaultdict(list)`. -/
def push (d : Dict K (List A)) (key : K) (a : A) : Dict K (List A) :=
  d.set key (d.queue key ++ [a])

def contents (d : Dict K (List A)) : List A := d.items.flatMap Prod.snd

@[simp] theorem queue_empty (key : K) : (empty : Dict K (List A)).queue key = [] := rfl

@[simp] theorem queue_push_self (d : Dict K (List A)) (key : K) (a : A) :
    (d.push key a).queue key = d.queue key ++ [a] := by
  simp [queue, push]

theorem queue_push_ne (d : Dict K (List A)) {key other : K} (a : A) (h : other ≠ key) :
    (d.push key a).queue other = d.queue other := by
  simp [queue, push, get?_set_ne d _ h]

@[simp] theorem queue_erase_self (d : Dict K (List A)) (key : K) :
    (d.erase key).queue key = [] := by
  simp [queue]

theorem queue_erase_ne (d : Dict K (List A)) {key other : K} (h : other ≠ key) :
    (d.erase key).queue other = d.queue other := by
  simp [queue, get?_erase_ne d h]

theorem flatMap_erase_perm (items : List (K × List A)) (key : K)
    (distinct : (items.map Prod.fst).Nodup) :
    (((items.find? (fun i => i.1 = key)).map Prod.snd).getD [] ++
      (items.filter (fun i => i.1 ≠ key)).flatMap Prod.snd).Perm (items.flatMap Prod.snd) := by
  induction items with
  | nil => exact List.Perm.nil
  | cons i items ih =>
    obtain ⟨fresh, rest⟩ := List.nodup_cons.mp distinct
    by_cases h : i.1 = key
    · have kept : items.filter (fun j => j.1 ≠ key) = items := by
        apply List.filter_eq_self.mpr
        intro j hj
        have other : j.1 ≠ key := fun hk => fresh (List.mem_map.mpr ⟨j, hj, hk.trans h.symm⟩)
        simpa using other
      have front : (i :: items).find? (fun j => j.1 = key) = some i := by simp [h]
      have back : (i :: items).filter (fun j => j.1 ≠ key) = items := by
        rw [List.filter_cons_of_neg (by simp [h]), kept]
      rw [front, back]
      exact List.Perm.refl _
    · simp only [List.find?_cons, List.filter_cons, h, ne_eq, not_false_eq_true,
        decide_true, if_true, List.flatMap_cons]
      refine (List.perm_append_comm_assoc _ _ _).trans ?_
      exact (ih rest).append_left i.2

theorem contents_erase_perm (d : Dict K (List A)) (key : K) :
    (d.queue key ++ (d.erase key).contents).Perm d.contents :=
  flatMap_erase_perm d.items key d.distinct

theorem filter_replace (items : List (K × V)) (key : K) (value : V) :
    (items.map (fun i => if i.1 = key then (key, value) else i)).filter (fun i => i.1 ≠ key) =
      items.filter (fun i => i.1 ≠ key) := by
  induction items with
  | nil => rfl
  | cons i items ih =>
    by_cases h : i.1 = key
    · rw [List.map_cons, if_pos h, List.filter_cons_of_neg (by simp),
        List.filter_cons_of_neg (by simp [h]), ih]
    · rw [List.map_cons, if_neg h, List.filter_cons_of_pos (by simp [h]),
        List.filter_cons_of_pos (by simp [h]), ih]

theorem erase_set_self (d : Dict K V) (key : K) (value : V) :
    (d.set key value).erase key = d.erase key := by
  apply ext_items
  simp only [erase, items_set]
  split
  · rw [filter_replace]
  · simp [List.filter_append]

theorem erase_set_ne (d : Dict K V) {key other : K} (value : V) (h : other ≠ key) :
    (d.set key value).erase other = (d.erase other).set key value := by
  apply ext_items
  have erased : ((d.set key value).erase other).items =
      (d.set key value).items.filter (fun i => i.1 ≠ other) := rfl
  have rest : (d.erase other).items = d.items.filter (fun i => i.1 ≠ other) := rfl
  rw [erased, items_set, items_set, rest, keys_erase]
  by_cases present : key ∈ d.keys
  · rw [if_pos present, if_pos (List.mem_filter.mpr ⟨present, by simp [h.symm]⟩), List.filter_map]
    congr 1
    apply List.filter_congr
    intro i _
    by_cases here : i.1 = key
    · simp [here]
    · simp [here]
  · rw [if_neg present, if_neg (fun listed => present (List.mem_of_mem_filter listed)),
      List.filter_append]
    simp [h.symm]
theorem erase_push (d : Dict K (List A)) (key : K) (a : A) :
    ((d.push key a).erase key).contents = (d.erase key).contents := by
  simp only [contents, erase, push, items_set]
  split
  · rw [filter_replace]
  · simp [List.filter_append]

theorem contents_push_perm (d : Dict K (List A)) (key : K) (a : A) :
    (d.push key a).contents.Perm (d.contents ++ [a]) := by
  have after := contents_erase_perm (d.push key a) key
  have before := contents_erase_perm d key
  rw [queue_push_self, erase_push] at after
  calc (d.push key a).contents
    _ |>.Perm ((d.queue key ++ [a]) ++ (d.erase key).contents) := after.symm
    _ |>.Perm ((d.queue key ++ (d.erase key).contents) ++ [a]) := by
      rw [List.append_assoc, List.append_assoc]
      exact List.perm_append_comm.append_left _
    _ |>.Perm (d.contents ++ [a]) := before.append_right [a]

theorem contents_eq_nil_iff (d : Dict K (List A)) :
    d.contents = [] ↔ ∀ key, d.queue key = [] := by
  constructor
  · intro h key
    have perm := contents_erase_perm d key
    rw [h] at perm
    exact (List.append_eq_nil_iff.mp perm.eq_nil).1
  · intro h
    rw [contents, List.flatMap_eq_nil_iff]
    intro i hi
    have found := h i.1
    cases hf : d.items.find? (fun j => j.1 = i.1) with
    | none =>
      have missing := List.find?_eq_none.mp hf i hi
      simp at missing
    | some j =>
      have hj := List.mem_of_find?_eq_some hf
      have same : j.1 = i.1 := by simpa using List.find?_some hf
      have one : j = i := by
        exact List.inj_on_of_nodup_map d.distinct hj hi same
      rw [queue, get?, hf, one] at found
      exact found

end Queues

end Dict
