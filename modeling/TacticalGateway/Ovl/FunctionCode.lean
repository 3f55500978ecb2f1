import TacticalGateway.Lib.LongestPrefix
import TacticalGateway.Ovl.Sidc

/-! Which class the table gives a symbol code, against the longest key of its function code. All
dashes are removed from the code, not only the trailing ones, so that a key is also found where
dashes stand inside it. -/
namespace TacticalGateway.Ovl
open LongestPrefix (Longest)

/-- `sidc[4:10]`. -/
def functionId (sidc : String) : List Char := (sidc.toList.drop 4).take 6

def withoutTrailingDashes (code : List Char) : List Char := code.rdropWhile (· = '-')

def Keyed (key : List Char) (c : GeometryClass) : Prop := (String.ofList key, c) ∈ functionGeometry

/-- The class that is documented: that of the longest key in front of the function code with its
trailing dashes stripped. -/
def Documented (sidc : String) (r : Option GeometryClass) : Prop :=
  if sidc.toList.length < 5 then r = none
  else Longest Keyed (withoutTrailingDashes (functionId sidc)) r

/-- A key begins the function code with one or more dashes put between its characters. -/
def Spread (sidc : String) : Prop :=
  ∃ text key c, text <+: functionId sidc ∧ Keyed key c ∧ text.filter (· ≠ '-') = key ∧
    '-' ∈ text ∧ text.getLast? ≠ some '-'

theorem functionGeometry_keys :
    ∀ e ∈ functionGeometry, '-' ∉ e.1.toList ∧ 2 ≤ e.1.toList.length := by
  decide +kernel

theorem functionGeometry_apart :
    ∀ e ∈ functionGeometry, ∀ e' ∈ functionGeometry, e.1.toList <+: e'.1.toList → e = e' := by
  decide +kernel

theorem functionGeometry_lookup :
    ∀ e ∈ functionGeometry, functionGeometry.lookup e.1 = some e.2 := by
  decide +kernel

section

variable {key key' : List Char} {c c' : GeometryClass} {sidc : String}

theorem Keyed.dashless (keyed : Keyed key c) : '-' ∉ key := by
  have facts := (functionGeometry_keys _ keyed).1
  rwa [String.toList_ofList] at facts

theorem Keyed.long (keyed : Keyed key c) : 2 ≤ key.length := by
  have facts := (functionGeometry_keys _ keyed).2
  rwa [String.toList_ofList] at facts

theorem Keyed.apart (keyed : Keyed key c) (keyed' : Keyed key' c') (begins : key <+: key') :
    key = key' ∧ c = c' := by
  have same := functionGeometry_apart _ keyed _ keyed' (by
    rwa [String.toList_ofList, String.toList_ofList])
  obtain ⟨keys, classes⟩ := Prod.mk.inj same
  exact ⟨String.ofList_injective keys, classes⟩

theorem keyed_iff (key : List Char) (c : GeometryClass) :
    functionGeometry.lookup (String.ofList key) = some c ↔ Keyed key c := by
  constructor
  · intro found
    obtain ⟨front, back, split, _⟩ := List.lookup_eq_some_iff.mp found
    rw [Keyed, split]
    exact List.mem_append_right front List.mem_cons_self
  · exact functionGeometry_lookup _

theorem Keyed.filter (keyed : Keyed key c) : key.filter (· ≠ '-') = key := by
  rw [List.filter_eq_self]
  intro d member
  exact decide_eq_true fun dash => keyed.dashless (dash ▸ member)

theorem Keyed.stripped_iff (keyed : Keyed key c) (code : List Char) :
    key <+: withoutTrailingDashes code ↔ key <+: code := by
  have parts : withoutTrailingDashes code ++ code.rtakeWhile (· = '-') = code :=
    List.rdropWhile_append_rtakeWhile
  have front : withoutTrailingDashes code <+: code := List.rdropWhile_prefix _ code
  constructor
  · intro begins
    exact begins.trans front
  · intro begins
    rcases List.prefix_or_prefix_of_prefix begins front with inside | ⟨more, rfl⟩
    · exact inside
    · have tail : more <+: code.rtakeWhile (· = '-') := by
        rw [← List.prefix_append_right_inj (withoutTrailingDashes code), parts]
        exact begins
      cases more with
      | nil => rw [List.append_nil]
      | cons d more =>
        have dash : d = '-' := by
          have trailing := List.mem_rtakeWhile_imp (tail.subset List.mem_cons_self)
          simpa using trailing
        exact absurd (List.mem_append_right _ (dash ▸ List.mem_cons_self)) keyed.dashless

/-- The function ID without any dash. -/
def dashless (sidc : String) : List Char := (functionId sidc).filter (· ≠ '-')

theorem descending_prefixLengths (n : Nat) : (n :: prefixLengths n).Pairwise (· ≥ ·) := by
  have below : ∀ m ∈ prefixLengths n, m ≤ n := by
    intro m member
    have range := List.mem_reverse.mp (List.mem_of_mem_filter member)
    exact Nat.le_of_lt_succ (List.mem_range.mp range)
  refine List.pairwise_cons.mpr ⟨below, List.Pairwise.filter _ ?_⟩
  rw [List.pairwise_reverse]
  exact List.pairwise_le_range

/-- The exact lookup and the loop find the longest key of the code without dashes. -/
theorem classifyGeometry_longest (long : ¬ sidc.toList.length < 5) :
    Longest Keyed (dashless sidc) (classifyGeometry sidc) := by
  have code : functionCode sidc = String.ofList (dashless sidc) := if_neg long
  by_cases empty : dashless sidc = []
  · have unknown : classifyGeometry sidc = none := by
      unfold classifyGeometry
      rw [code, empty]
      exact if_pos rfl
    rw [unknown, empty]
    intro key c keyed begins
    have none_left := keyed.long
    rw [List.prefix_nil.mp begins, List.length_nil] at none_left
    omega
  · have full : String.ofList (dashless sidc) ≠ "" :=
      fun none_left => empty (String.ofList_injective none_left)
    have tried : classifyGeometry sidc =
        ((dashless sidc).length :: prefixLengths (dashless sidc).length).findSome?
          (fun n => functionGeometry.lookup (String.ofList ((dashless sidc).take n))) := by
      unfold classifyGeometry
      simp only [code, full, if_false, List.findSome?_cons, List.take_length,
        String.toList_ofList, Text.prefixOf]
      cases functionGeometry.lookup (String.ofList (dashless sidc)) with
      | none => rfl
      | some known => rfl
    rw [tried]
    refine LongestPrefix.longest_findSome? keyed_iff (descending_prefixLengths _) ?_
    intro key c keyed begins
    have least := keyed.long
    have most := begins.length_le
    simp only [prefixLengths, List.mem_cons, List.mem_filter, List.mem_reverse, List.mem_range,
      decide_eq_true_eq]
    omega

theorem begins_dashless_iff (whole : ¬ Spread sidc) (keyed : Keyed key c) :
    key <+: dashless sidc ↔ key <+: withoutTrailingDashes (functionId sidc) := by
  rw [keyed.stripped_iff]
  constructor
  · intro begins
    obtain ⟨front, first, same, ends⟩ := LongestPrefix.exists_prefix_filter begins
    have kept : '-' ∉ front := by
      intro dash
      refine whole ⟨front, key, c, first, keyed, same, dash, ?_⟩
      intro last
      exact of_decide_eq_true (ends '-' last) rfl
    have unchanged : front.filter (· ≠ '-') = front := by
      rw [List.filter_eq_self]
      exact fun d member => decide_eq_true fun dash => kept (dash ▸ member)
    rw [unchanged] at same
    exact same ▸ first
  · intro begins
    have filtered := begins.filter (· ≠ '-')
    rwa [keyed.filter] at filtered

theorem Spread.undocumented (spread : Spread sidc) : ¬ Documented sidc (classifyGeometry sidc) := by
  obtain ⟨text, key, c, first, keyed, same, dash, last⟩ := spread
  have long : ¬ sidc.toList.length < 5 := by
    intro short
    have size := first.length_le
    have some_dash := List.length_pos_of_mem dash
    rw [functionId, List.length_take, List.length_drop] at size
    omega
  have filtered : key <+: dashless sidc := same ▸ first.filter _
  have found := (classifyGeometry_longest long).of_entry
    (fun key c key' c' keyed keyed' => keyed.apart keyed') keyed filtered
  rw [Documented, if_neg long, found]
  rintro ⟨other, keyed', begins, -⟩
  rw [keyed'.stripped_iff] at begins
  rcases List.prefix_or_prefix_of_prefix begins first with inside | inside
  · -- what is in front of the first dash of the text is shorter than the spread key
    have begin_key : other <+: key := by
      have filtered := inside.filter (· ≠ '-')
      rwa [keyed'.filter, same] at filtered
    obtain ⟨rfl, -⟩ := keyed'.apart keyed begin_key
    obtain ⟨rest, rfl⟩ := inside
    rw [List.filter_append, keyed'.filter, List.append_right_eq_self, List.filter_eq_nil_iff] at same
    have only : ∀ d ∈ rest, d = '-' := by simpa using same
    have some_rest : rest ≠ [] := by
      rintro rfl
      rw [List.append_nil] at dash
      exact keyed'.dashless dash
    rw [List.getLast?_append_of_ne_nil _ some_rest, List.getLast?_eq_some_getLast some_rest] at last
    exact last (congrArg some (only _ (List.getLast_mem some_rest)))
  · exact keyed'.dashless (inside.subset dash)

end

/-- The class is the documented one exactly where no key is spread over dashes. -/
theorem documented_iff (sidc : String) :
    Documented sidc (classifyGeometry sidc) ↔ ¬ Spread sidc := by
  constructor
  · intro documented spread
    exact spread.undocumented documented
  · intro whole
    unfold Documented
    split
    · rename_i short
      have code : functionCode sidc = "" := if_pos short
      unfold classifyGeometry
      rw [code]
      exact if_pos rfl
    · rename_i long
      have same := fun key c (keyed : Keyed key c) => begins_dashless_iff whole keyed
      exact (LongestPrefix.longest_congr same _).mp (classifyGeometry_longest long)

/-- The code is `G-AA`, which no key begins; its dash is removed, and GAA is a key. -/
theorem spread_code_classified :
    classifyGeometry "GFGPG-AA-------" = some .area ∧
      ¬ Documented "GFGPG-AA-------" (classifyGeometry "GFGPG-AA-------") := by
  refine ⟨by decide +kernel, Spread.undocumented ?_⟩
  refine ⟨"G-AA".toList, "GAA".toList, .area, ?_, ?_, ?_, ?_, ?_⟩
  · decide +kernel
  · rw [Keyed]
    decide +kernel
  · decide +kernel
  · decide +kernel
  · decide +kernel

end TacticalGateway.Ovl
