import TacticalGateway.Kmz.Suspected

/-! Which labels the entries of the prefix table match: those that begin with one of their words,
with the end of the label or white space behind it. The pattern of the boundary entry is an
alternative of an anchored word and a word with the boundary, so that only one of them has both. -/
namespace TacticalGateway.Kmz
open Normalizers (strip stripChars isSpace)
open Regex (Pattern wordBefore wordAfter)

/-- The call that makes the pattern of an entry. -/
inductive PrefixForm where
  | whole (p : String)
  | word
  deriving DecidableEq

def PrefixForm.pattern : PrefixForm → Pattern
  | .whole p => prefixPattern p
  | .word => boundaryPattern

def PrefixForm.prefixes : PrefixForm → List String
  | .whole p => [p]
  | .word => ["BNDRY", "BOUNDARY"]

/-- The calls in the order of the table. -/
def prefixForms : List PrefixForm :=
  [.whole "PL", .whole "LDLC", .whole "LD", .whole "LOA", .whole "FEBA", .whole "FLOT", .word,
    .whole "AO", .whole "EA", .whole "AA", .whole "BP", .whole "HA", .whole "SBF", .whole "ATK",
    .whole "SP", .whole "RP", .whole "MSR", .whole "ASR", .whole "CCP", .whole "CP", .whole "OBJ",
    .whole "TAI", .whole "NAI", .whole "TRP", .whole "FSCL", .whole "CFL", .whole "RFL",
    .whole "NFL", .whole "NFA", .whole "RFA", .whole "ROZ", .whole "PZ", .whole "LZ", .whole "DZ"]

theorem prefixTable_patterns :
    prefixTable.map PrefixEntry.pattern = prefixForms.map PrefixForm.pattern := rfl

/-- The characters are the letters of the prefix, ignoring case as `re.IGNORECASE` does. -/
def SpelledAs (p : String) (word : List Char) : Prop :=
  List.Forall₂ (fun letter c => ignoringCase letter c = true) p.toList word

section

variable (t : Tables)

/-- `\b` at a place of the label. -/
def Boundary (s : List Char) (i : Nat) : Prop := wordBefore t.isWord s i ≠ wordAfter t.isWord s i

/-- What has to follow the prefix: the end of the label or white space, and for the boundary entry a
word boundary. -/
def PrefixForm.Ended (word rest : List Char) : PrefixForm → Prop
  | .whole _ => ∀ c, rest.head? = some c → isSpace c = true
  | .word => Boundary t (word ++ rest) word.length

/-- The label begins with one of the prefixes, as a whole word. -/
def WholeWord (form : PrefixForm) (label : String) : Prop :=
  ∃ p ∈ form.prefixes, ∃ word rest, label.toList = word ++ rest ∧ SpelledAs p word ∧
    form.Ended t word rest

/-- The label begins with BNDRY, and the word goes on. -/
def RunsOn (label : String) : Prop :=
  ∃ word rest, label.toList = word ++ rest ∧ SpelledAs "BNDRY" word ∧
    ¬ Boundary t (word ++ rest) word.length

end

section

variable {t : Tables} {s word rest : List Char} {p q : String} {label : String}

theorem mem_ends_literal {i e : Nat} :
    e ∈ (literal p).ends t.isWord s i ↔
      ∃ word rest, s.drop i = word ++ rest ∧ SpelledAs p word ∧ e = i + word.length := by
  rw [literal_ones, Regex.mem_ends_ones]
  simp only [SpelledAs, List.forall₂_map_left_iff]

theorem boundaryPattern_iff :
    (boundaryPattern.matchEnd t.isWord s).isSome = true ↔
      (∃ word rest, s = word ++ rest ∧ SpelledAs "BNDRY" word) ∨
        ∃ word rest, s = word ++ rest ∧ SpelledAs "BOUNDARY" word ∧
          Boundary t (word ++ rest) word.length := by
  simp only [Regex.isSome_matchEnd_iff, boundaryPattern, Regex.mem_ends_alt,
    Regex.mem_ends_inOrder_cons, Regex.mem_ends_inOrder_nil, Regex.mem_ends_start,
    Regex.mem_ends_boundary, mem_ends_literal]
  constructor
  · rintro ⟨e, ⟨m, ⟨-, rfl⟩, e', ⟨word, rest, parts, spelled, rfl⟩, -⟩ |
      ⟨m, ⟨word, rest, parts, spelled, rfl⟩, e', ⟨stop, rfl⟩, -⟩⟩
    · exact .inl ⟨word, rest, parts, spelled⟩
    · rw [List.drop_zero] at parts
      rw [parts, Nat.zero_add] at stop
      exact .inr ⟨word, rest, parts, spelled, stop⟩
  · rintro (⟨word, rest, rfl, spelled⟩ | ⟨word, rest, rfl, spelled, stop⟩)
    · exact ⟨_, .inl ⟨0, ⟨trivial, rfl⟩, _, ⟨word, rest, rfl, spelled, rfl⟩, rfl⟩⟩
    · refine ⟨_, .inr ⟨_, ⟨word, rest, rfl, spelled, rfl⟩, _, ⟨?_, rfl⟩, rfl⟩⟩
      rw [Nat.zero_add]
      exact stop

/-- What the alternatives behind a prefix look for. -/
def Followed (rest : List Char) : Prop :=
  (∃ n, 1 ≤ n ∧ n ≤ (rest.takeWhile isSpace).length ∧
    (rest[n]?).any (fun c => !isSpace c) = true) ∨ rest = [] ∨ rest = ['\n']

theorem ends_behind_iff :
    (∃ e, e ∈ (Pattern.alt (.seq spaces (.one (fun c => !isSpace c))) .finish).ends t.isWord
      (word ++ rest) word.length) ↔ Followed rest := by
  have next (n : Nat) : (word ++ rest)[word.length + n]? = rest[n]? := by
    rw [List.getElem?_append_right (Nat.le_add_right _ _), Nat.add_sub_cancel_left]
  have done : word.length = (word ++ rest).length ↔ rest = [] := by
    rw [List.length_append, ← List.length_eq_zero_iff]
    omega
  simp only [spaces, Regex.mem_ends_alt, Regex.mem_ends_seq, Regex.mem_ends_many,
    Regex.mem_ends_one, Regex.mem_ends_finish, List.drop_left, done]
  constructor
  · rintro ⟨e, ⟨m, ⟨n, least, most, rfl⟩, found, -⟩ | ⟨stop, -⟩⟩
    · exact .inl ⟨n, least, most, next n ▸ found⟩
    · exact .inr stop
  · rintro (⟨n, least, most, found⟩ | stop)
    · exact ⟨_, .inl ⟨_, ⟨n, least, most, rfl⟩, (next n).symm ▸ found, rfl⟩⟩
    · exact ⟨_, .inr ⟨stop, rfl⟩⟩

theorem prefixPattern_iff :
    ((prefixPattern p).matchEnd t.isWord s).isSome = true ↔
      ∃ word rest, s = word ++ rest ∧ SpelledAs p word ∧ Followed rest := by
  simp only [Regex.isSome_matchEnd_iff, prefixPattern, Regex.mem_ends_inOrder_cons,
    Regex.mem_ends_inOrder_nil, Regex.mem_ends_start, mem_ends_literal]
  constructor
  · rintro ⟨e, m, ⟨-, rfl⟩, e', ⟨word, rest, parts, spelled, rfl⟩, m, later, rfl⟩
    rw [List.drop_zero] at parts
    subst parts
    rw [Nat.zero_add] at later
    exact ⟨word, rest, rfl, spelled, ends_behind_iff.mp ⟨_, later⟩⟩
  · rintro ⟨word, rest, rfl, spelled, followed⟩
    obtain ⟨e, later⟩ := ends_behind_iff.mpr followed
    refine ⟨e, 0, ⟨trivial, rfl⟩, _, ⟨word, rest, rfl, spelled, rfl⟩, e, ?_, rfl⟩
    rwa [Nat.zero_add]

theorem last_of_trimmed (trimmed : strip label = label) :
    ∀ c, label.toList.getLast? = some c → isSpace c = false := by
  have chars : stripChars label.toList = label.toList := by
    have same := congrArg String.toList trimmed
    rwa [strip, String.toList_ofList] at same
  intro c last
  have full : stripChars label.toList ≠ [] := by
    rw [chars]
    rintro none_left
    rw [none_left] at last
    cases last
  obtain ⟨_, _, _, firm, -⟩ := stripChars_parts full
  rw [chars] at firm
  exact firm.last c last

theorem followed_iff (firm : ∀ c, (word ++ rest).getLast? = some c → isSpace c = false) :
    Followed rest ↔ ∀ c, rest.head? = some c → isSpace c = true := by
  constructor
  · rintro (⟨n, least, most, -⟩ | rfl | rfl) c first
    · cases rest with
      | nil => cases first
      | cons d rest =>
        cases Option.some.inj first
        by_contra other
        rw [List.takeWhile_cons_of_neg other, List.length_nil] at most
        omega
    · cases first
    · cases Option.some.inj first
      decide
  · intro blank
    cases whole : rest.dropWhile isSpace with
    | nil =>
      -- nothing but white space would be the end of the label
      have all := List.dropWhile_eq_nil_iff.mp whole
      refine .inr (.inl ?_)
      by_contra full
      have last := firm (rest.getLast full)
        (by rw [List.getLast?_append_of_ne_nil _ full, List.getLast?_eq_some_getLast full])
      rw [all _ (List.getLast_mem full)] at last
      cases last
    | cons d tail =>
      have parts := List.takeWhile_append_dropWhile (p := isSpace) (l := rest)
      rw [whole] at parts
      have stop : isSpace d = false := by
        have head := List.head?_dropWhile_not isSpace rest
        rw [whole] at head
        simpa using head
      cases run : rest.takeWhile isSpace with
      | nil =>
        rw [run, List.nil_append] at parts
        rw [blank d (by rw [← parts]; rfl)] at stop
        cases stop
      | cons c gap =>
        refine .inl ⟨(c :: gap).length, Nat.succ_le_succ (Nat.zero_le _), by rw [run], ?_⟩
        rw [run] at parts
        rw [← parts, List.getElem?_append_right (Nat.le_refl _), Nat.sub_self]
        simp [stop]

theorem whole_iff (trimmed : strip label = label) :
    ((prefixPattern p).matchEnd t.isWord label.toList).isSome = true ↔
      WholeWord t (.whole p) label := by
  have firm := last_of_trimmed trimmed
  rw [prefixPattern_iff]
  simp only [WholeWord, PrefixForm.prefixes, List.mem_singleton, exists_eq_left, PrefixForm.Ended]
  constructor
  · rintro ⟨word, rest, parts, spelled, followed⟩
    exact ⟨word, rest, parts, spelled, (followed_iff (parts ▸ firm)).mp followed⟩
  · rintro ⟨word, rest, parts, spelled, ended⟩
    exact ⟨word, rest, parts, spelled, (followed_iff (parts ▸ firm)).mpr ended⟩

theorem prefixes_capital :
    ∀ form ∈ prefixForms, ∀ p ∈ form.prefixes, ∀ letter ∈ p.toList, letter ∈ capitals := by
  have all : ∀ form ∈ prefixForms, ∀ p ∈ form.prefixes,
      p.toList.all (fun letter => decide (letter ∈ capitals)) = true := by decide +kernel
  intro form listed p member letter here
  exact of_decide_eq_true (List.all_eq_true.mp (all form listed p member) letter here)

theorem letters_of_spelled {ps qs word word' : List Char} (capital : ∀ c ∈ ps, c ∈ capitals)
    (capital' : ∀ c ∈ qs, c ∈ capitals)
    (spelled : List.Forall₂ (fun letter c => ignoringCase letter c = true) ps word)
    (spelled' : List.Forall₂ (fun letter c => ignoringCase letter c = true) qs word')
    (inside : word' <+: word) : qs <+: ps := by
  induction spelled' generalizing ps word with
  | nil => exact List.nil_prefix
  | @cons q c qs word' fits spelled' ih =>
    cases spelled with
    | nil => exact absurd (List.prefix_nil.mp inside) (List.cons_ne_nil _ _)
    | @cons p d ps word first spelled =>
      obtain ⟨rfl, later⟩ := List.cons_prefix_cons.mp inside
      rw [List.forall_mem_cons] at capital capital'
      exact List.cons_prefix_cons.mpr ⟨ignoringCase_unique capital'.1 capital.1 fits first,
        ih capital.2 capital'.2 spelled later⟩

theorem SpelledAs.length (spelled : SpelledAs p word) : word.length = p.toList.length :=
  (List.Forall₂.length_eq spelled).symm

/-- The word that goes on is no whole word: its boundary is missing, and BOUNDARY is another one. -/
theorem RunsOn.not_wholeWord (runs : RunsOn t label) : ¬ WholeWord t .word label := by
  obtain ⟨word, rest, parts, spelled, goes_on⟩ := runs
  rintro ⟨q, listed, word', rest', parts', spelled', ended⟩
  rw [parts] at parts'
  simp only [PrefixForm.prefixes, List.mem_cons, List.not_mem_nil, or_false] at listed
  rcases listed with rfl | rfl
  · obtain ⟨rfl, rfl⟩ := List.append_inj parts' (spelled.length.trans spelled'.length.symm)
    exact goes_on ended
  · have inside : word <+: word' := by
      refine List.prefix_of_prefix_length_le (parts' ▸ List.prefix_append word rest)
        (List.prefix_append word' rest') ?_
      rw [spelled.length, spelled'.length]
      decide
    have capital := prefixes_capital .word (by decide)
    have letters := letters_of_spelled (capital "BOUNDARY" (by decide))
      (capital "BNDRY" (by decide)) spelled' spelled inside
    exact absurd letters (by decide)

theorem word_iff : (boundaryPattern.matchEnd t.isWord label.toList).isSome = true ↔
    WholeWord t .word label ∨ RunsOn t label := by
  rw [boundaryPattern_iff]
  simp only [WholeWord, PrefixForm.prefixes, List.mem_cons, List.not_mem_nil, or_false,
    exists_eq_or_imp, exists_eq_left, PrefixForm.Ended]
  constructor
  · rintro (⟨word, rest, parts, spelled⟩ | ⟨word, rest, parts, spelled, stop⟩)
    · by_cases stop : Boundary t (word ++ rest) word.length
      · exact .inl (.inl ⟨word, rest, parts, spelled, stop⟩)
      · exact .inr ⟨word, rest, parts, spelled, stop⟩
    · exact .inl (.inr ⟨word, rest, parts, spelled, stop⟩)
  · rintro ((⟨word, rest, parts, spelled, -⟩ | ⟨word, rest, parts, spelled, stop⟩) |
      ⟨word, rest, parts, spelled, -⟩)
    · exact .inl ⟨word, rest, parts, spelled⟩
    · exact .inr ⟨word, rest, parts, spelled, stop⟩
    · exact .inl ⟨word, rest, parts, spelled⟩

theorem paired_pattern {e : PrefixEntry} {form : PrefixForm}
    (paired : (e, form) ∈ prefixTable.zip prefixForms) : e.pattern = form.pattern := by
  obtain ⟨i, here⟩ := List.mem_iff_getElem?.mp paired
  obtain ⟨entry, called⟩ := List.getElem?_zip_eq_some.mp here
  have same := congrArg (fun patterns => patterns[i]?) prefixTable_patterns
  simpa [List.getElem?_map, entry, called] using same

end

/-- An entry matches a label exactly where the label begins with one of its prefixes as a whole word,
but for the boundary entry and a word that goes on behind BNDRY. -/
theorem wholeWord_iff_not_runsOn (t : Tables) {label : String} (trimmed : strip label = label)
    {e : PrefixEntry} {form : PrefixForm} (paired : (e, form) ∈ prefixTable.zip prefixForms) :
    (e.recognizes t label = true ↔ WholeWord t form label) ↔
      ¬ (form = .word ∧ RunsOn t label) := by
  rw [PrefixEntry.recognizes, paired_pattern paired]
  cases form with
  | whole p => simp [PrefixForm.pattern, whole_iff trimmed]
  | word =>
    rw [PrefixForm.pattern, word_iff]
    constructor
    · rintro same ⟨-, runs⟩
      exact runs.not_wholeWord (same.mp (.inr runs))
    · intro stops
      exact or_iff_left fun runs => stops ⟨rfl, runs⟩

def asciiTables : Tables := ⟨Char.isDigit, Char.isAlphanum⟩

theorem boundary_paired : ∃ e ∈ prefixTable, e.doctrinalKind = "boundary" ∧
    (e, PrefixForm.word) ∈ prefixTable.zip prefixForms :=
  ⟨prefixTable[6], List.getElem_mem _, rfl, List.mem_iff_getElem?.mpr ⟨6, rfl⟩⟩

theorem wholeWord_iff_not_runsOn_echelon :
    ∃ e ∈ prefixTable, e.doctrinalKind = "boundary" ∧
      ((e.recognizes asciiTables "BNDRY 2-3" = true ↔ WholeWord asciiTables .word "BNDRY 2-3") ↔
        ¬ (PrefixForm.word = .word ∧ RunsOn asciiTables "BNDRY 2-3")) := by
  obtain ⟨e, listed, kind, paired⟩ := boundary_paired
  exact ⟨e, listed, kind, wholeWord_iff_not_runsOn asciiTables (by decide +kernel) paired⟩

/-- The longer word BNDRYLAND gets the code of a boundary. -/
theorem longer_word_matched :
    strip "BNDRYLAND" = "BNDRYLAND" ∧
      ∃ e ∈ prefixTable, (e, PrefixForm.word) ∈ prefixTable.zip prefixForms ∧
        e.recognizes asciiTables "BNDRYLAND" = true ∧
        ¬ WholeWord asciiTables .word "BNDRYLAND" ∧
        (recognize asciiTables none (some "BNDRYLAND") none .point).map
          RecognitionResult.doctrinalKind = .ok (some "boundary") := by
  obtain ⟨e, listed, -, paired⟩ := boundary_paired
  have runs : RunsOn asciiTables "BNDRYLAND" := by
    refine ⟨"BNDRY".toList, "LAND".toList, by decide +kernel, ?_, ?_⟩
    · rw [SpelledAs]
      decide +kernel
    · rw [Boundary, not_not]
      decide +kernel
  refine ⟨by decide +kernel, e, listed, paired, ?_, runs.not_wholeWord, by decide +kernel⟩
  rw [PrefixEntry.recognizes, paired_pattern paired, PrefixForm.pattern]
  exact word_iff.mpr (.inr runs)

end TacticalGateway.Kmz
