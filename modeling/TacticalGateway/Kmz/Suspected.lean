import TacticalGateway.Kmz.Recognize

/-! What the modifier in front of a label changes: the recognizer sees the same label behind it, and
sets another identity. -/
namespace TacticalGateway.Kmz
open Normalizers (strip stripChars stripLeft isSpace strip_strip)
open Regex (Pattern)

/-- The word of the modifier in capital or small letters. -/
def Spelled (word : List Char) : Prop :=
  List.Forall₂ (fun letter c => ignoringCase letter c = true) "suspected".toList word

/-- The text begins with the word and white space. -/
def BeginsSuspected (s : String) : Prop :=
  ∃ word c rest, s.toList = word ++ c :: rest ∧ Spelled word ∧ isSpace c = true

/-- The text in front of a label: the word, and white space of any amount. -/
structure Modifier (text : String) : Prop where
  parts : ∃ word gap, text.toList = word ++ gap ∧ Spelled word ∧ gap ≠ [] ∧
    ∀ c ∈ gap, isSpace c = true

/-- The first result is the second one with the identity of the modifier. -/
structure IdentityOnly (r r' : RecognitionResult) : Prop where
  kind : r.doctrinalKind = r'.doctrinalKind
  status : r.status = r'.status
  layer : r.matchedLayer = r'.matchedLayer
  length : r.sidc.toList.length = r'.sidc.toList.length
  sidc : ∀ i, i ≠ 1 → r.sidc.toList[i]? = r'.sidc.toList[i]?
  modifier : r.suspectedModifier = true
  source : r.affiliationSource = .suspectedModifier
  affiliation : r.affiliation =
    if r'.affiliation = "friend" then "assumed_friend" else "suspect"

section Trim

/-- White space is neither the first character nor the last. -/
structure Firm (cs : List Char) : Prop where
  nonempty : cs ≠ []
  head : ∀ c, cs.head? = some c → isSpace c = false
  last : ∀ c, cs.getLast? = some c → isSpace c = false

theorem dropWhile_gap {gap cs : List Char} (blank : ∀ c ∈ gap, isSpace c = true)
    (head : ∀ c, cs.head? = some c → isSpace c = false) :
    (gap ++ cs).dropWhile isSpace = cs := by
  induction gap with
  | nil =>
    cases cs with
    | nil => rfl
    | cons c cs => exact List.dropWhile_cons_of_neg (by simp [head c rfl])
  | cons c gap ih =>
    rw [List.cons_append, List.dropWhile_cons_of_pos (blank c List.mem_cons_self)]
    exact ih (fun d later => blank d (List.mem_cons_of_mem c later))

theorem takeWhile_gap {gap cs : List Char} (blank : ∀ c ∈ gap, isSpace c = true)
    (head : ∀ c, cs.head? = some c → isSpace c = false) :
    (gap ++ cs).takeWhile isSpace = gap := by
  induction gap with
  | nil =>
    cases cs with
    | nil => rfl
    | cons c cs => exact List.takeWhile_cons_of_neg (by simp [head c rfl])
  | cons c gap ih =>
    rw [List.cons_append, List.takeWhile_cons_of_pos (blank c List.mem_cons_self),
      ih (fun d later => blank d (List.mem_cons_of_mem c later))]

theorem stripChars_around {front core back : List Char} (firm : Firm core)
    (blank_front : ∀ c ∈ front, isSpace c = true) (blank_back : ∀ c ∈ back, isSpace c = true) :
    stripChars (front ++ core ++ back) = core := by
  have head : ∀ c, (core ++ back).head? = some c → isSpace c = false := by
    intro c first
    rw [List.head?_append_of_ne_nil _ firm.nonempty] at first
    exact firm.head c first
  have last : ∀ c, core.reverse.head? = some c → isSpace c = false := by
    intro c final
    rw [List.head?_reverse] at final
    exact firm.last c final
  rw [stripChars, stripLeft, stripLeft, List.append_assoc, dropWhile_gap blank_front head,
    List.reverse_append, dropWhile_gap (by simpa using blank_back) last, List.reverse_reverse]

theorem stripChars_parts {cs : List Char} (full : stripChars cs ≠ []) :
    ∃ front back, cs = front ++ stripChars cs ++ back ∧ Firm (stripChars cs) ∧
      (∀ c ∈ front, isSpace c = true) ∧ ∀ c ∈ back, isSpace c = true := by
  have rest : stripLeft cs = stripChars cs ++
      ((stripLeft cs).reverse.takeWhile isSpace).reverse := by
    have whole := List.takeWhile_append_dropWhile (p := isSpace) (l := (stripLeft cs).reverse)
    have turned := congrArg List.reverse whole
    rw [List.reverse_append, List.reverse_reverse] at turned
    exact turned.symm
  have all {ds : List Char} : ∀ c ∈ ds.takeWhile isSpace, isSpace c = true :=
    fun c member => List.mem_takeWhile_imp member
  refine ⟨cs.takeWhile isSpace, ((stripLeft cs).reverse.takeWhile isSpace).reverse, ?_, ?_, all, ?_⟩
  · rw [List.append_assoc, ← rest]
    exact (List.takeWhile_append_dropWhile).symm
  · refine ⟨full, ?_, ?_⟩
    · intro c first
      have head := List.head?_dropWhile_not isSpace cs
      rw [← stripLeft, rest, List.head?_append_of_ne_nil _ full, first] at head
      simpa using head
    · intro c final
      have head := List.head?_dropWhile_not isSpace (stripLeft cs).reverse
      rw [← List.head?_reverse, stripChars, List.reverse_reverse] at final
      rw [← stripLeft, final] at head
      simpa using head
  · intro c member
    exact all c (List.mem_reverse.mp member)

end Trim

section WorkingLabel

variable (t : Tables)

theorem suspectedPrefix_ends (s : List Char) :
    suspectedPrefix.ends t.isWord s 0 =
      ((literal "suspected").ends t.isWord s 0).flatMap (spaces.ends t.isWord s) := by
  show [0].flatMap (fun i => ((literal "suspected").ends t.isWord s i).flatMap
    (fun j => (spaces.ends t.isWord s j).flatMap (fun e => [e]))) = _
  simp only [List.flatMap_singleton, List.flatMap_singleton']

theorem spelled_fits {word : List Char} :
    Spelled word ↔ List.Forall₂ (fun p c => p c = true)
      ("suspected".toList.map ignoringCase) word := by
  rw [Spelled, List.forall₂_map_left_iff]

theorem literal_ones (letters : String) :
    literal letters = Pattern.inOrder ((letters.toList.map ignoringCase).map .one) := by
  rw [List.map_map]
  rfl

theorem matchEnd_modifier {word gap rest : List Char} (spelled : Spelled word) (wide : gap ≠ [])
    (run : (gap ++ rest).takeWhile isSpace = gap) :
    suspectedPrefix.matchEnd t.isWord (word ++ gap ++ rest) = some (word ++ gap).length := by
  have parts : (word ++ gap ++ rest).drop 0 = word ++ (gap ++ rest) :=
    List.append_assoc word gap rest
  have ended : (literal "suspected").ends t.isWord (word ++ gap ++ rest) 0 = [word.length] := by
    rw [literal_ones, Regex.ends_ones t.isWord (spelled_fits.mp spelled) parts, Nat.zero_add]
  have behind : (word ++ gap ++ rest).drop word.length = gap ++ rest := by
    rw [List.append_assoc, List.drop_left]
  have found : ((word ++ gap ++ rest).drop word.length).takeWhile isSpace = gap := by
    rw [behind, run]
  rw [Pattern.matchEnd, suspectedPrefix_ends, ended, List.flatMap_singleton, spaces,
    Regex.ends_many_head t.isWord (found.symm ▸ wide), found, List.length_append]

theorem matchEnd_plain {s : String} (plain : ¬ BeginsSuspected s) :
    suspectedPrefix.matchEnd t.isWord s.toList = none := by
  rw [Pattern.matchEnd, suspectedPrefix_ends, List.head?_eq_none_iff, List.flatMap_eq_nil_iff]
  intro e ended
  rw [literal_ones] at ended
  obtain ⟨word, rest, parts, fits, rfl⟩ := Regex.parts_of_ends_ones t.isWord ended
  rw [Nat.zero_add]
  have behind : s.toList.drop word.length = rest := by
    rw [← List.drop_zero (l := s.toList), parts, List.drop_left]
  refine Regex.ends_many_nil t.isWord ?_
  rw [behind]
  cases rest with
  | nil => rfl
  | cons c rest =>
    refine List.takeWhile_cons_of_neg ?_
    intro blank
    exact plain ⟨word, c, rest, parts, spelled_fits.mpr fits, blank⟩

theorem blank_unspelled {c : Char} (blank : isSpace c = true) : ignoringCase 's' c = false := by
  have capital : 'S' ∈ capitals := by decide
  have same : ignoringCase 's' c = ignoringCase 'S' c := by simp [ignoringCase]
  rw [same, ignoringCase_blank capital blank]

theorem Spelled.head {word : List Char} (spelled : Spelled word) :
    ∃ c rest, word = c :: rest ∧ ignoringCase 's' c = true := by
  have letters : "suspected".toList = 's' :: "uspected".toList := rfl
  rw [Spelled, letters, List.forall₂_cons_left_iff] at spelled
  obtain ⟨c, rest, fits, -, rfl⟩ := spelled
  exact ⟨c, rest, rfl, fits⟩

theorem BeginsSuspected.head {s : String} (begins : BeginsSuspected s) :
    ∃ c rest, s.toList = c :: rest ∧ ignoringCase 's' c = true := by
  obtain ⟨word, d, rest, parts, spelled, -⟩ := begins
  obtain ⟨c, letters, rfl, fits⟩ := spelled.head
  exact ⟨c, letters ++ d :: rest, parts, fits⟩

theorem workingLabel_plain {label : String} (plain : ¬ BeginsSuspected (strip label)) :
    workingLabel t (some label) = (false, strip label) := by
  unfold workingLabel
  simp only [Option.getD_some, matchEnd_plain t plain]

theorem workingLabel_modified {text label : String} (modifier : Modifier text)
    (full : strip label ≠ "") : workingLabel t (some (text ++ label)) = (true, strip label) := by
  obtain ⟨word, gap, spelling, spelled, wide, blank⟩ := modifier.parts
  have core : stripChars label.toList ≠ [] := by
    intro missing
    exact full (by rw [strip, missing])
  obtain ⟨front, back, whole, firm, blank_front, blank_back⟩ := stripChars_parts core
  -- the white space of the modifier and that in front of the label are one run for the pattern
  have between : ∀ c ∈ gap ++ front, isSpace c = true := by
    intro c member
    rcases List.mem_append.mp member with member | member
    · exact blank c member
    · exact blank_front c member
  have stripped : stripChars (text ++ label).toList =
      word ++ (gap ++ front) ++ stripChars label.toList := by
    have chars : (text ++ label).toList =
        [] ++ (word ++ (gap ++ front) ++ stripChars label.toList) ++ back := by
      rw [String.toList_append, spelling]
      conv_lhs => rw [whole]
      simp only [List.append_assoc, List.nil_append]
    rw [chars]
    refine stripChars_around ⟨?_, ?_, ?_⟩ (by simp) blank_back
    · exact List.append_ne_nil_of_right_ne_nil _ core
    · intro c first
      obtain ⟨d, rest, rfl, fits⟩ := spelled.head
      obtain rfl : d = c := Option.some.inj first
      cases blank : isSpace d with
      | false => rfl
      | true => exact absurd fits (by simp [blank_unspelled blank])
    · intro c final
      rw [List.getLast?_append_of_ne_nil _ core] at final
      exact firm.last c final
  have ended := matchEnd_modifier t spelled (by simp [wide] : gap ++ front ≠ [])
    (takeWhile_gap between firm.head)
  have trimmed : (strip (text ++ label)).toList =
      word ++ (gap ++ front) ++ stripChars label.toList := by
    rw [strip, String.toList_ofList, stripped]
  have left : String.ofList ((strip (text ++ label)).toList.drop (word ++ (gap ++ front)).length) =
      strip label := by
    rw [trimmed, List.drop_left, strip]
  rw [← trimmed] at ended
  unfold workingLabel
  simp only [Option.getD_some, ended, left, strip_strip]

end WorkingLabel

/-- The layer and its template are those of the working label, with or without the modifier. -/
theorem recognize_chosen (t : Tables) (env : Option String) {working : String}
    (full : working ≠ "") (description : Option String) (geometryType : GeometryType) :
    ∃ template layer kind status reasons, template.toList.length = 15 ∧
      ∀ label suspected, workingLabel t label = (suspected, working) →
        recognize t env label description geometryType =
          resultOf t env (description.getD "") suspected template layer kind status reasons := by
  cases doctrinal : prefixTable.find? (fun e => e.recognizes t working) with
  | some entry =>
    refine ⟨entry.sidcTemplate, .doctrinal, some entry.doctrinalKind, entry.status,
      if entry.notes = "" then [] else [entry.notes],
      prefixTable_length entry (List.mem_of_find?_eq_some doctrinal), ?_⟩
    intro label suspected split
    simp only [recognize, split, full, if_false, doctrinal]
  | none =>
    cases target : ((targetDesignatorPattern t).matchEnd t.isWord working.toList).isSome with
    | true =>
      refine ⟨targetDesignatorSidc, .target, some targetDesignatorKind, .clean, [],
        length_g _ _, ?_⟩
      intro label suspected split
      simp only [recognize, split, full, if_false, doctrinal, target, if_true]
    | false =>
      cases word : wordTable.find? (fun w => w.recognizes working) with
      | some entry =>
        refine ⟨entry.sidcTemplate, .word, some entry.doctrinalKind, entry.status, [entry.notes],
          wordTable_length entry (List.mem_of_find?_eq_some word), ?_⟩
        intro label suspected split
        simp only [recognize, split, full, if_false, doctrinal, target, Bool.false_eq_true, word]
      | none =>
        cases route : (routePattern.matchEnd t.isWord working.toList).isSome with
        | true =>
          refine ⟨routeSidc, .route, some routeKind, .bestEffort,
            ["route label preserved verbatim; no further normalization"], length_g _ _, ?_⟩
          intro label suspected split
          simp only [recognize, split, full, if_false, doctrinal, target, Bool.false_eq_true, word,
            route, if_true]
        | false =>
          refine ⟨geometryFallbackSidc geometryType, .geometryFallback, none, .bestEffort,
            ["no doctrinal/target/word/route pattern matched; generic geometry SIDC assigned"],
            geometryFallback_length geometryType, ?_⟩
          intro label suspected split
          simp only [recognize, split, full, if_false, doctrinal, target, Bool.false_eq_true, word,
            route, geometryFallback]

/-- The modifier sets the identity of the label behind it, and changes nothing else. -/
theorem suspected_identity (t : Tables) (env : Option String) {text label : String}
    (modifier : Modifier text) (full : strip label ≠ "")
    (plain : ¬ BeginsSuspected (strip label)) (description : Option String)
    (geometryType : GeometryType) :
    ∃ r r', recognize t env (some (text ++ label)) description geometryType = .ok r ∧
      recognize t env (some label) description geometryType = .ok r' ∧ IdentityOnly r r' := by
  obtain ⟨template, layer, kind, status, reasons, length, same⟩ :=
    recognize_chosen t env full description geometryType
  -- both runs look at the trimmed label, so they end in the same layer with the same template
  have behind := same (some (text ++ label)) true (workingLabel_modified t modifier full)
  have alone := same (some label) false (workingLabel_plain t plain)
  obtain ⟨c, first, second, rest, chars, -, built⟩ :=
    resultOf_made t env length (description.getD "") true layer kind status reasons
  obtain ⟨c', first', second', rest', chars', -, built'⟩ :=
    resultOf_made t env length (description.getD "") false layer kind status reasons
  obtain ⟨rfl, rfl, rfl⟩ : first' = first ∧ second' = second ∧ rest' = rest := by
    simpa [chars] using chars'.symm
  refine ⟨_, _, behind.trans built, alone.trans built', rfl, rfl, rfl, ?_, ?_, rfl, rfl, rfl⟩
  · simp only [String.toList_ofList, List.length_cons]
  · intro i other
    simp only [String.toList_ofList]
    exact getElem?_second other

theorem modifier_plain : Modifier "Suspected " :=
  ⟨"Suspected".toList, [' '], rfl, by rw [Spelled]; decide +kernel, by simp, by simp [isSpace]⟩

theorem suspected_identity_nai :
    ∃ r r', recognize ⟨Char.isDigit, Char.isAlphanum⟩ (some "friend")
      (some ("Suspected " ++ " NAI 7"))
        none .polygon = .ok r ∧
      recognize ⟨Char.isDigit, Char.isAlphanum⟩ (some "friend") (some " NAI 7") none .polygon =
        .ok r' ∧ IdentityOnly r r' := by
  refine suspected_identity _ _ modifier_plain (by decide +kernel) ?_ none .polygon
  intro begins
  have trimmed : (strip " NAI 7").toList = 'N' :: "AI 7".toList := by decide +kernel
  obtain ⟨c, rest, parts, fits⟩ := begins.head
  rw [trimmed] at parts
  obtain ⟨rfl, -⟩ := List.cons.inj parts
  exact absurd fits (by decide)

/-- Only a label that is alone is trimmed first: behind a modifier its own one, with white space in
front, stays. -/
theorem indented_modifier :
    strip " suspected NAI 7" ≠ "" ∧ ¬ BeginsSuspected " suspected NAI 7" ∧
      Modifier "Suspected " ∧
      ¬ ∃ r r', recognize ⟨Char.isDigit, Char.isAlphanum⟩ none
          (some ("Suspected " ++ " suspected NAI 7")) none .polygon = .ok r ∧
        recognize ⟨Char.isDigit, Char.isAlphanum⟩ none (some " suspected NAI 7") none .polygon =
          .ok r' ∧ IdentityOnly r r' := by
  refine ⟨by decide +kernel, ?_, modifier_plain, ?_⟩
  · intro begins
    have chars : " suspected NAI 7".toList = ' ' :: "suspected NAI 7".toList := rfl
    obtain ⟨c, rest, parts, fits⟩ := begins.head
    rw [chars] at parts
    obtain ⟨rfl, -⟩ := List.cons.inj parts
    exact absurd fits (by decide)
  · rintro ⟨r, r', behind, alone, same⟩
    have behind_kind : (recognize ⟨Char.isDigit, Char.isAlphanum⟩ none
        (some ("Suspected " ++ " suspected NAI 7")) none .polygon).map (·.doctrinalKind) =
        .ok none := by decide +kernel
    have alone_kind : (recognize ⟨Char.isDigit, Char.isAlphanum⟩ none (some " suspected NAI 7")
        none .polygon).map (·.doctrinalKind) = .ok (some "named_area_of_interest") := by
      decide +kernel
    rw [behind] at behind_kind
    rw [alone] at alone_kind
    have none_kind : r.doctrinalKind = none := Except.ok.inj behind_kind
    have some_kind : r'.doctrinalKind = some "named_area_of_interest" := Except.ok.inj alone_kind
    rw [same.kind, some_kind] at none_kind
    cases none_kind

end TacticalGateway.Kmz
