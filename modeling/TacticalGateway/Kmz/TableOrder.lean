import TacticalGateway.Kmz.WholeWords
import TacticalGateway.Lib.Table

/-! The order of the prefix table: no label is matched by two entries, so that the recognizer does
not depend on it. -/
namespace TacticalGateway.Kmz
open Normalizers (strip isSpace strip_strip lower)

section

variable {α : Type*} {p : α → Bool} {l l' : List α}

theorem length_filter_le_one (apart : l.Pairwise (fun a b => ¬ (p a = true ∧ p b = true))) :
    (l.filter p).length ≤ 1 := by
  have kept : ∀ a ∈ l.filter p, p a = true := fun a member => (List.mem_filter.mp member).2
  have still := apart.filter p
  cases found : l.filter p with
  | nil => exact Nat.zero_le 1
  | cons a rest =>
    rw [found] at kept still
    cases rest with
    | nil => exact Nat.le_refl 1
    | cons b rest =>
      have both := (List.pairwise_cons.mp still).1 b List.mem_cons_self
      exact absurd ⟨kept a List.mem_cons_self, kept b (List.mem_cons_of_mem a List.mem_cons_self)⟩
        both

theorem find?_perm (perm : l.Perm l') (one : (l'.filter p).length ≤ 1) :
    l.find? p = l'.find? p := by
  have filtered := perm.filter p
  rw [← List.head?_filter, ← List.head?_filter]
  cases found : l'.filter p with
  | nil =>
    rw [found] at filtered
    rw [filtered.eq_nil]
  | cons a rest =>
    rw [found, List.length_cons] at one
    rw [found, List.length_eq_zero_iff.mp (Nat.le_zero.mp (Nat.le_of_succ_le_succ one))] at filtered
    rw [List.perm_singleton.mp filtered]
    rfl

end

theorem prefixForms_nodup : prefixForms.Nodup := by decide +kernel

theorem boundary_apart :
    ∀ form ∈ prefixForms, form ≠ .word → ∀ p ∈ form.prefixes, ∀ q ∈ PrefixForm.word.prefixes,
      ¬ q.toList <+: p.toList := by
  decide +kernel

section

variable {t : Tables} {label : String} {form form' : PrefixForm}

def PrefixForm.Matches (t : Tables) (form : PrefixForm) (label : String) : Prop :=
  (form.pattern.matchEnd t.isWord label.toList).isSome = true

theorem PrefixForm.Matches.begins (matched : form.Matches t label) :
    ∃ p ∈ form.prefixes, ∃ word rest, label.toList = word ++ rest ∧ SpelledAs p word := by
  cases form with
  | whole p =>
    obtain ⟨word, rest, parts, spelled, -⟩ := prefixPattern_iff.mp matched
    exact ⟨p, List.mem_singleton_self p, word, rest, parts, spelled⟩
  | word =>
    rcases boundaryPattern_iff.mp matched with ⟨word, rest, parts, spelled⟩ |
      ⟨word, rest, parts, spelled, -⟩
    · exact ⟨"BNDRY", by decide, word, rest, parts, spelled⟩
    · exact ⟨"BOUNDARY", by decide, word, rest, parts, spelled⟩

theorem letters_of_wholeWord {p q : String} (capital : ∀ c ∈ p.toList, c ∈ capitals)
    (capital' : ∀ c ∈ q.toList, c ∈ capitals) (matched : WholeWord t (.whole p) label)
    {word' rest' : List Char} (parts' : label.toList = word' ++ rest')
    (spelled' : SpelledAs q word') : q.toList <+: p.toList := by
  obtain ⟨_, listed, word, rest, parts, spelled, ended⟩ := matched
  cases List.mem_singleton.mp listed
  rcases List.prefix_or_prefix_of_prefix (parts' ▸ List.prefix_append word' rest')
    (parts ▸ List.prefix_append word rest) with inside | ⟨more, same⟩
  · exact letters_of_spelled capital capital' spelled spelled' inside
  · cases more with
    | nil =>
      rw [List.append_nil] at same
      exact letters_of_spelled capital capital' spelled spelled' (same ▸ List.prefix_rfl)
    | cons c more =>
      -- the letter behind the whole word would be the white space behind it
      rw [parts, ← same, List.append_assoc, List.append_cancel_left_eq] at parts'
      have blank := ended c (by rw [parts']; rfl)
      have here : c ∈ word' := same ▸ List.mem_append_right word List.mem_cons_self
      obtain ⟨letter, member, fits⟩ := Table.forall₂_right spelled' here
      rw [ignoringCase_blank (capital' letter member) blank] at fits
      cases fits

theorem PrefixForm.Matches.unique (trimmed : strip label = label)
    (listed : form ∈ prefixForms) (listed' : form' ∈ prefixForms)
    (matched : form.Matches t label) (matched' : form'.Matches t label) : form = form' := by
  have inside {p q : String} {g : PrefixForm} (whole : .whole p ∈ prefixForms)
      (found : (PrefixForm.whole p).Matches t label) (other : g ∈ prefixForms)
      (member : q ∈ g.prefixes) {word rest : List Char} (parts : label.toList = word ++ rest)
      (spelled : SpelledAs q word) : q.toList <+: p.toList :=
    letters_of_wholeWord (prefixes_capital (.whole p) whole p (List.mem_singleton_self p))
      (prefixes_capital g other q member) ((whole_iff trimmed).mp found) parts spelled
  obtain ⟨p, member, word, rest, parts, spelled⟩ := matched.begins
  obtain ⟨q, member', word', rest', parts', spelled'⟩ := matched'.begins
  cases form with
  | whole p' =>
    cases List.mem_singleton.mp member
    have back := inside listed matched listed' member' parts' spelled'
    cases form' with
    | whole q' =>
      cases List.mem_singleton.mp member'
      have forth := inside listed' matched' listed member parts spelled
      rw [String.toList_inj.mp (back.eq_of_length (Nat.le_antisymm back.length_le forth.length_le))]
    | word => exact absurd back (boundary_apart _ listed nofun _ (List.mem_singleton_self _) q member')
  | word =>
    cases form' with
    | whole q' =>
      cases List.mem_singleton.mp member'
      have back := inside listed' matched' listed member parts spelled
      exact absurd back (boundary_apart _ listed' nofun _ (List.mem_singleton_self _) p member)
    | word => rfl

theorem recognizes_one (t : Tables) (trimmed : strip label = label) :
    (prefixTable.filter (fun e => e.recognizes t label)).length ≤ 1 := by
  have patterns : (prefixTable.map PrefixEntry.pattern).Pairwise
      (fun r r' => ¬ ((r.matchEnd t.isWord label.toList).isSome = true ∧
        (r'.matchEnd t.isWord label.toList).isSome = true)) := by
    rw [prefixTable_patterns, List.pairwise_map]
    refine List.Pairwise.imp_of_mem ?_ prefixForms_nodup
    rintro f g listed listed' other ⟨matched, matched'⟩
    exact other (PrefixForm.Matches.unique trimmed listed listed' matched matched')
  exact length_filter_le_one (List.pairwise_map.mp patterns)

end

section

variable (t : Tables) (env : Option String)

/-- The layers behind the prefix table. -/
def laterLayers (working desc : String) (suspected : Bool) (geometryType : GeometryType) :
    Except RecognizerError RecognitionResult :=
  if ((targetDesignatorPattern t).matchEnd t.isWord working.toList).isSome then
    resultOf t env desc suspected targetDesignatorSidc .target (some targetDesignatorKind) .clean []
  else
    match wordTable.find? (fun w => w.recognizes working) with
    | some w =>
      resultOf t env desc suspected w.sidcTemplate .word (some w.doctrinalKind) w.status [w.notes]
    | none =>
      if (routePattern.matchEnd t.isWord working.toList).isSome then
        resultOf t env desc suspected routeSidc .route (some routeKind) .bestEffort
          ["route label preserved verbatim; no further normalization"]
      else
        geometryFallback t env geometryType desc suspected
          ["no doctrinal/target/word/route pattern matched; generic geometry SIDC assigned"]

/-- `recognize` with another table in the place of `PREFIX_TABLE`. -/
def recognizeWith (table : List PrefixEntry) (label description : Option String)
    (geometryType : GeometryType) : Except RecognizerError RecognitionResult :=
  let desc := description.getD ""
  let (suspected, working) := workingLabel t label
  if working = "" then
    geometryFallback t env geometryType desc suspected ["label was empty or whitespace only"]
  else
    match table.find? (fun e => e.recognizes t working) with
    | some entry =>
      resultOf t env desc suspected entry.sidcTemplate .doctrinal (some entry.doctrinalKind)
        entry.status (if entry.notes = "" then [] else [entry.notes])
    | none => laterLayers t env working desc suspected geometryType

theorem recognizeWith_prefixTable : recognizeWith t env prefixTable = recognize t env := by
  funext label description geometryType
  cases listed : prefixTable.find? (fun e => e.recognizes t (workingLabel t label).2) with
  | some entry => simp only [recognizeWith, recognize, listed]
  | none =>
    cases word : wordTable.find? (fun w => w.recognizes (workingLabel t label).2) with
    | some w => simp only [recognizeWith, recognize, laterLayers, listed, word]
    | none => simp only [recognizeWith, recognize, laterLayers, listed, word]

theorem workingLabel_trimmed (label : Option String) :
    strip (workingLabel t label).2 = (workingLabel t label).2 := by
  unfold workingLabel
  simp only
  split
  · exact strip_strip _
  · exact strip_strip _

end

/-- At most one entry matches a trimmed label, so that the recognizer has the same result with the
table in any order. -/
theorem order_independent (t : Tables) :
    (∀ label, strip label = label →
      (prefixTable.filter (fun e => e.recognizes t label)).length ≤ 1) ∧
    ∀ (env : Option String) (table : List PrefixEntry), table.Perm prefixTable →
      ∀ label description geometryType,
        recognizeWith t env table label description geometryType =
          recognize t env label description geometryType := by
  refine ⟨fun label trimmed => recognizes_one t trimmed, ?_⟩
  intro env table perm label description geometryType
  have found := find?_perm perm (recognizes_one t (workingLabel_trimmed t label))
  rw [← recognizeWith_prefixTable]
  unfold recognizeWith
  simp only [found]

theorem order_independent_reverse :
    (prefixTable.filter (fun e => e.recognizes asciiTables "LDLC ALPHA")).length ≤ 1 ∧
      recognizeWith asciiTables none prefixTable.reverse (some "LDLC ALPHA") none .lineString =
        recognize asciiTables none (some "LDLC ALPHA") none .lineString :=
  ⟨(order_independent asciiTables).1 _ (by decide +kernel),
    (order_independent asciiTables).2 none _ (List.reverse_perm _) _ _ _⟩

end TacticalGateway.Kmz
