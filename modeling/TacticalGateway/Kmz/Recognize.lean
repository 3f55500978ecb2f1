import TacticalGateway.Kmz.PrefixTable

/-! The label recognizer: a symbol code and an affiliation for every placemark, by the first layer
that knows its label. -/
namespace TacticalGateway.Kmz
open Normalizers (strip lower)
open Regex (Pattern)

/-- `_AFFIL_CHAR`. -/
def affilChar : List (String × Char) :=
  [("friend", 'F'), ("hostile", 'H'), ("neutral", 'N'), ("unknown", 'U'), ("suspect", 'S'),
    ("assumed_friend", 'A'), ("pending", 'P')]

def suspectedDefault : String := "suspect"

/-- What Python can raise inside the recognizer; the ValueError is that of a code with another
length than 15. -/
inductive RecognizerError where
  | valueError (sidc : String)
  | keyError (key : String)
  | indexError
  deriving DecidableEq

inductive AffiliationSource where
  | descriptionHostile
  | descriptionFriendly
  | suspectedModifier
  | configuredDefault
  deriving DecidableEq

def AffiliationSource.value : AffiliationSource → String
  | .descriptionHostile => "description_hostile"
  | .descriptionFriendly => "description_friendly"
  | .suspectedModifier => "suspected_modifier"
  | .configuredDefault => "configured_default"

inductive MatchedLayer where
  | doctrinal
  | target
  | word
  | route
  | geometryFallback
  deriving DecidableEq

def MatchedLayer.value : MatchedLayer → String
  | .doctrinal => "prefix"
  | .target => "target"
  | .word => "word"
  | .route => "route"
  | .geometryFallback => "geometry_fallback"

structure RecognitionResult where
  sidc : String
  affiliation : String
  affiliationSource : AffiliationSource
  doctrinalKind : Option String
  status : Status
  matchedLayer : MatchedLayer
  suspectedModifier : Bool
  reasons : List String

def hostileDesc : Pattern :=
  .inOrder [.boundary,
    .anyOf (literal "enemy") [literal "hostile", literal "opfor", literal "threat",
      .inOrder [literal "red", spaces, literal "force"]], .boundary]

def friendlyDesc : Pattern :=
  .inOrder [.boundary,
    .anyOf (literal "friendly") [literal "blufor",
      .inOrder [literal "blue", spaces, literal "force"], literal "own",
      .inOrder [literal "own", spaces, literal "force"]], .boundary]

def suspectedPrefix : Pattern := .inOrder [.start, literal "suspected", spaces]

section

variable (t : Tables) (env : Option String)

/-- `_get_default_affiliation`, by the variable `KMZ_DEFAULT_AFFILIATION`. -/
def defaultAffiliation : String :=
  let val := lower (strip (env.getD "unknown"))
  if val ∈ affilChar.map Prod.fst then val else "unknown"

/-- The affiliation before the modifier, and where it comes from. -/
def baseAffiliation (description : String) : String × AffiliationSource :=
  if hostileDesc.occurs t.isWord description.toList then ("hostile", .descriptionHostile)
  else if friendlyDesc.occurs t.isWord description.toList then ("friend", .descriptionFriendly)
  else (defaultAffiliation env, .configuredDefault)

def applyAffiliation (sidc description : String) (suspected : Bool) :
    Except RecognizerError (String × AffiliationSource) :=
  match sidc.toList with
  | first :: _ :: rest =>
    if sidc.toList.length ≠ 15 then .error (.valueError sidc)
    else
      let (base, source) := baseAffiliation t env description
      let affil := if suspected then if base = "friend" then "assumed_friend" else suspectedDefault
        else base
      match affilChar.lookup affil with
      | none => .error (.keyError affil)
      | some c => .ok (String.ofList (first :: c :: rest),
          if suspected then .suspectedModifier else source)
  | _ => .error (.valueError sidc)

def affilName (c : Char) : Option String := (affilChar.find? (fun i => i.2 = c)).map Prod.fst

def affilFromSidc (sidc : String) : Except RecognizerError String :=
  match sidc.toList[1]? with
  | some c => .ok ((affilName c).getD "unknown")
  | none => .error .indexError

/-- `affiliation_from_explicit_sidc`. -/
def affiliationFromExplicitSidc (sidc : String) : Option String :=
  if sidc.toList.length = 15 then (sidc.toList[1]?).bind affilName else none

def suspectedReason (suspected : Bool) : List String :=
  if suspected then ["'Suspected ' prefix detected; identity set accordingly"] else []

/-- How every layer builds its result from its template. -/
def resultOf (description : String) (suspected : Bool) (template : String) (layer : MatchedLayer)
    (kind : Option String) (status : Status) (reasons : List String) :
    Except RecognizerError RecognitionResult := do
  let (sidc, source) ← applyAffiliation t env template description suspected
  let affiliation ← affilFromSidc sidc
  return {
    sidc := sidc
    affiliation := affiliation
    affiliationSource := source
    doctrinalKind := kind
    status := status
    matchedLayer := layer
    suspectedModifier := suspected
    reasons := reasons ++ suspectedReason suspected }

def geometryFallback (geometryType : GeometryType) (description : String) (suspected : Bool)
    (reasons : List String) : Except RecognizerError RecognitionResult :=
  resultOf t env description suspected (geometryFallbackSidc geometryType) .geometryFallback none
    .bestEffort reasons

/-- Whether the modifier is there, and the label without it. -/
def workingLabel (label : Option String) : Bool × String :=
  let stripped := strip (label.getD "")
  match suspectedPrefix.matchEnd t.isWord stripped.toList with
  | some e => (true, strip (String.ofList (stripped.toList.drop e)))
  | none => (false, stripped)

def PrefixEntry.recognizes (e : PrefixEntry) (working : String) : Bool :=
  (e.pattern.matchEnd t.isWord working.toList).isSome

def WordEntry.recognizes (w : WordEntry) (working : String) : Bool :=
  decide (w.word.toList <:+: (lower working).toList)

def recognize (label description : Option String) (geometryType : GeometryType) :
    Except RecognizerError RecognitionResult :=
  let desc := description.getD ""
  let (suspected, working) := workingLabel t label
  if working = "" then
    geometryFallback t env geometryType desc suspected ["label was empty or whitespace only"]
  else
    match prefixTable.find? (fun e => e.recognizes t working) with
    | some entry =>
      resultOf t env desc suspected entry.sidcTemplate .doctrinal (some entry.doctrinalKind)
        entry.status (if entry.notes = "" then [] else [entry.notes])
    | none =>
      if ((targetDesignatorPattern t).matchEnd t.isWord working.toList).isSome then
        resultOf t env desc suspected targetDesignatorSidc .target (some targetDesignatorKind)
          .clean []
      else
        match wordTable.find? (fun w => w.recognizes working) with
        | some w =>
          resultOf t env desc suspected w.sidcTemplate .word (some w.doctrinalKind) w.status
            [w.notes]
        | none =>
          if (routePattern.matchEnd t.isWord working.toList).isSome then
            resultOf t env desc suspected routeSidc .route (some routeKind) .bestEffort
              ["route label preserved verbatim; no further normalization"]
          else
            geometryFallback t env geometryType desc suspected
              ["no doctrinal/target/word/route pattern matched; generic geometry SIDC assigned"]

end

/-- There is a label, and no entry of the prefix table recognizes it. -/
structure NotDoctrinal (t : Tables) (working : String) : Prop where
  labelled : working ≠ ""
  missed : prefixTable.find? (fun e => e.recognizes t working) = none

structure NotTarget (t : Tables) (working : String) : Prop extends NotDoctrinal t working where
  no_target : ((targetDesignatorPattern t).matchEnd t.isWord working.toList).isSome = false

structure NotWord (t : Tables) (working : String) : Prop extends NotTarget t working where
  no_word : wordTable.find? (fun w => w.recognizes working) = none

structure NotRoute (t : Tables) (working : String) : Prop extends NotWord t working where
  no_route : (routePattern.matchEnd t.isWord working.toList).isSome = false

/-- The template of the first layer that recognizes the label. -/
inductive Chosen (t : Tables) (working : String) (geometryType : GeometryType) :
    MatchedLayer → String → Prop where
  | doctrinal (entry : PrefixEntry) (labelled : working ≠ "")
      (found : prefixTable.find? (fun e => e.recognizes t working) = some entry) :
      Chosen t working geometryType .doctrinal entry.sidcTemplate
  | target (missed : NotDoctrinal t working)
      (found : ((targetDesignatorPattern t).matchEnd t.isWord working.toList).isSome = true) :
      Chosen t working geometryType .target targetDesignatorSidc
  | word (entry : WordEntry) (missed : NotTarget t working)
      (found : wordTable.find? (fun w => w.recognizes working) = some entry) :
      Chosen t working geometryType .word entry.sidcTemplate
  | route (missed : NotWord t working)
      (found : (routePattern.matchEnd t.isWord working.toList).isSome = true) :
      Chosen t working geometryType .route routeSidc
  | geometryFallback (missed : working = "" ∨ NotRoute t working) :
      Chosen t working geometryType .geometryFallback (geometryFallbackSidc geometryType)

/-- The second character of the code is that of the affiliation, and of no other one. -/
def Agree (sidc affiliation : String) : Prop :=
  ∃ c, sidc.toList[1]? = some c ∧ ∀ name, (name, c) ∈ affilChar ↔ name = affiliation

structure Recognized (sidc affiliation template : String) : Prop where
  length : sidc.toList.length = 15
  template : ∀ i, i ≠ 1 → sidc.toList[i]? = template.toList[i]?
  agree : Agree sidc affiliation
  valid : ∃ a : Affiliation, a.value = affiliation

variable {t : Tables} {env : Option String}

theorem prefixTable_length : ∀ e ∈ prefixTable, e.sidcTemplate.toList.length = 15 := by
  simp [prefixTable, clean, length_g]

theorem wordTable_length : ∀ w ∈ wordTable, w.sidcTemplate.toList.length = 15 := by
  simp [wordTable, length_g]

theorem geometryFallback_length (geometryType : GeometryType) :
    (geometryFallbackSidc geometryType).toList.length = 15 := by
  cases geometryType with
  | point => exact length_g "GPP" (by decide)
  | lineString => exact length_g "GLG" (by decide)
  | polygon => exact length_g "GAG" (by decide)

theorem Chosen.length {working : String} {geometryType : GeometryType} {layer : MatchedLayer}
    {template : String} (chosen : Chosen t working geometryType layer template) :
    template.toList.length = 15 := by
  cases chosen with
  | doctrinal entry _ found => exact prefixTable_length entry (List.mem_of_find?_eq_some found)
  | target => exact length_g _ _
  | word entry _ found => exact wordTable_length entry (List.mem_of_find?_eq_some found)
  | route => exact length_g _ _
  | geometryFallback => exact geometryFallback_length geometryType

theorem affilChar_unique : ∀ i ∈ affilChar, ∀ j ∈ affilChar, i.1 = j.1 ∨ i.2 = j.2 → i = j := by
  decide

theorem affilChar_valid : ∀ i ∈ affilChar, ∃ a : Affiliation, a.value = i.1 := by
  simp only [affilChar, List.forall_mem_cons]
  exact ⟨⟨.friend, rfl⟩, ⟨.hostile, rfl⟩, ⟨.neutral, rfl⟩, ⟨.unknown, rfl⟩, ⟨.suspect, rfl⟩,
    ⟨.assumedFriend, rfl⟩, ⟨.pending, rfl⟩, by simp⟩

theorem affilName_of_mem {name : String} {c : Char} (listed : (name, c) ∈ affilChar) :
    affilName c = some name := by
  unfold affilName
  cases found : affilChar.find? (fun i => i.2 = c) with
  | none =>
    have missing := List.find?_eq_none.mp found (name, c) listed
    simp at missing
  | some i =>
    have own : i.2 = c := by simpa using List.find?_some found
    have same := affilChar_unique i (List.mem_of_find?_eq_some found) (name, c) listed (.inr own)
    rw [same]
    rfl

theorem agree_of_mem {name : String} {c : Char} {sidc : String}
    (here : sidc.toList[1]? = some c) (listed : (name, c) ∈ affilChar) : Agree sidc name := by
  refine ⟨c, here, ?_⟩
  intro other
  constructor
  · intro also
    exact congrArg Prod.fst (affilChar_unique (other, c) also (name, c) listed (.inr rfl))
  · rintro rfl
    exact listed

theorem affilChar_lookup : ∀ i ∈ affilChar, affilChar.lookup i.1 = some i.2 := by decide

theorem defaultAffiliation_known (env : Option String) :
    defaultAffiliation env ∈ affilChar.map Prod.fst := by
  unfold defaultAffiliation
  simp only
  split
  · assumption
  · decide

theorem baseAffiliation_known (t : Tables) (env : Option String) (description : String) :
    (baseAffiliation t env description).1 ∈ affilChar.map Prod.fst := by
  unfold baseAffiliation
  split
  · decide
  · split
    · decide
    · simp only
      exact defaultAffiliation_known env

/-- The affiliation that the modifier makes of the base. -/
def modified (suspected : Bool) (base : String) : String :=
  if suspected then if base = "friend" then "assumed_friend" else suspectedDefault else base

theorem modified_known {base : String} (known : base ∈ affilChar.map Prod.fst) (suspected : Bool) :
    modified suspected base ∈ affilChar.map Prod.fst := by
  unfold modified
  split
  · split
    · decide
    · decide
  · exact known

theorem applyAffiliation_spec (t : Tables) (env : Option String) {template : String}
    (length : template.toList.length = 15) (description : String) (suspected : Bool) :
    ∃ c first second rest, template.toList = first :: second :: rest ∧
      (modified suspected (baseAffiliation t env description).1, c) ∈ affilChar ∧
      applyAffiliation t env template description suspected =
        .ok (String.ofList (first :: c :: rest), if suspected then .suspectedModifier
          else (baseAffiliation t env description).2) := by
  unfold applyAffiliation
  cases chars : template.toList with
  | nil => simp [chars] at length
  | cons first tail =>
    cases tail with
    | nil => simp [chars] at length
    | cons second rest =>
      rw [chars] at length
      simp only [length, ne_eq, not_true_eq_false, if_false]
      have base := modified_known (baseAffiliation_known t env description) suspected
      obtain ⟨⟨name, c⟩, listed, same⟩ := List.mem_map.mp base
      have found := affilChar_lookup (name, c) listed
      simp only at same found
      rw [same] at listed found
      refine ⟨c, first, second, rest, rfl, listed, ?_⟩
      rw [modified] at found
      simp only [found]

theorem resultOf_made (t : Tables) (env : Option String) {template : String}
    (length : template.toList.length = 15) (description : String) (suspected : Bool)
    (layer : MatchedLayer) (kind : Option String)
    (status : Status) (reasons : List String) :
    ∃ c first second rest, template.toList = first :: second :: rest ∧
      (modified suspected (baseAffiliation t env description).1, c) ∈ affilChar ∧
      resultOf t env description suspected template layer kind status reasons =
        .ok ⟨String.ofList (first :: c :: rest),
          modified suspected (baseAffiliation t env description).1,
          if suspected then .suspectedModifier else (baseAffiliation t env description).2,
          kind, status, layer, suspected, reasons ++ suspectedReason suspected⟩ := by
  obtain ⟨c, first, second, rest, chars, listed, applied⟩ :=
    applyAffiliation_spec t env length description suspected
  have here : (String.ofList (first :: c :: rest)).toList[1]? = some c := by
    rw [String.toList_ofList]
    rfl
  have read : affilFromSidc (String.ofList (first :: c :: rest)) =
      .ok (modified suspected (baseAffiliation t env description).1) := by
    unfold affilFromSidc
    simp only [here, affilName_of_mem listed, Option.getD_some]
  refine ⟨c, first, second, rest, chars, listed, ?_⟩
  rw [resultOf, applied]
  simp only [bind, Except.bind, read]
  rfl

theorem getElem?_second {first c d : Char} {rest : List Char} {i : Nat} (other : i ≠ 1) :
    (first :: c :: rest)[i]? = (first :: d :: rest)[i]? := by
  cases i with
  | zero => rfl
  | succ i =>
    cases i with
    | zero => exact absurd rfl other
    | succ i => rfl

theorem resultOf_spec (t : Tables) (env : Option String) {template : String}
    (length : template.toList.length = 15) (description : String) (suspected : Bool)
    (layer : MatchedLayer) (kind : Option String)
    (status : Status) (reasons : List String) :
    ∃ r, resultOf t env description suspected template layer kind status reasons = .ok r ∧
      r.matchedLayer = layer ∧ Recognized r.sidc r.affiliation template := by
  obtain ⟨c, first, second, rest, chars, listed, built⟩ :=
    resultOf_made t env length description suspected layer kind status reasons
  have toList : (String.ofList (first :: c :: rest)).toList = first :: c :: rest :=
    String.toList_ofList
  have here : (String.ofList (first :: c :: rest)).toList[1]? = some c := by
    rw [toList]
    rfl
  refine ⟨_, built, rfl, ?_, ?_, agree_of_mem here listed, affilChar_valid _ listed⟩
  · rw [chars] at length
    rw [toList]
    exact length
  · intro i other
    rw [toList, chars]
    exact getElem?_second other

theorem recognize_spec (t : Tables) (env label description : Option String)
    (geometryType : GeometryType) :
    ∃ r template, recognize t env label description geometryType = .ok r ∧
      Chosen t (workingLabel t label).2 geometryType r.matchedLayer template ∧
      Recognized r.sidc r.affiliation template := by
  unfold recognize
  generalize workingLabel t label = pair
  obtain ⟨suspected, working⟩ := pair
  have by_layer {layer : MatchedLayer} {template : String}
      (chosen : Chosen t working geometryType layer template) (kind : Option String)
      (status : Status) (reasons : List String) :
      ∃ r template', resultOf t env (description.getD "") suspected template layer kind status
          reasons = .ok r ∧ Chosen t working geometryType r.matchedLayer template' ∧
        Recognized r.sidc r.affiliation template' := by
    obtain ⟨r, built, layer_eq, recognized⟩ := resultOf_spec t env chosen.length
      (description.getD "") suspected layer kind status reasons
    subst layer_eq
    exact ⟨r, template, built, chosen, recognized⟩
  simp only
  split
  · rename_i unlabelled
    exact by_layer (.geometryFallback (.inl unlabelled)) _ _ _
  · rename_i labelled
    split
    · rename_i entry found
      exact by_layer (.doctrinal entry labelled found) _ _ _
    · rename_i missed
      split
      · rename_i found
        exact by_layer (.target ⟨labelled, missed⟩ found) _ _ _
      · rename_i no_target
        have untargeted : NotTarget t working :=
          ⟨⟨labelled, missed⟩, Bool.eq_false_of_not_eq_true no_target⟩
        split
        · rename_i entry found
          exact by_layer (.word entry untargeted found) _ _ _
        · rename_i no_word
          split
          · rename_i found
            exact by_layer (.route ⟨untargeted, no_word⟩ found) _ _ _
          · rename_i no_route
            exact by_layer (.geometryFallback
              (.inr ⟨⟨untargeted, no_word⟩, Bool.eq_false_of_not_eq_true no_route⟩)) _ _ _

example : (recognize ⟨Char.isDigit, Char.isAlphanum⟩ none (some " Suspected  NAI 7")
    (some "own forces") .polygon).map (fun r => (r.sidc, r.affiliation)) =
      .ok ("GAGPGPRN-------", "assumed_friend") := by decide +kernel

end TacticalGateway.Kmz
