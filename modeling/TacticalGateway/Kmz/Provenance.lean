import TacticalGateway.Kmz.Coverage
import TacticalGateway.Lib.JsonText

/-! What the parser records about a symbol code and an affiliation, and where it took them from. -/
namespace TacticalGateway.Kmz
open ElementTree (Element)
open Json (Value lookup loads ReadAs)
open Normalizers (strip)
open Ovl (noneIfEmpty noneIfEmpty_eq_some noneIfEmpty_eq_none)

/-- The text of a value of the extended data with this name; an empty one does not count. -/
def valueText (name : String) (item : Element) : Option String :=
  if item.get "name" = some name then
    ((directFindNs item "value").bind Element.text).filter (· ≠ "")
  else none

def dataItems (placemark : Element) : List Element :=
  (directFindNs placemark "ExtendedData").toList.flatMap (findallNs · "Data")

/-- The last value with this name, trimmed. -/
def valueGiven (placemark : Element) (name : String) : Option String :=
  (((dataItems placemark).filterMap (valueText name)).getLast?).map strip

def TakenFromFile (placemark : Element) (cto : CTO) : Prop :=
  ∃ name ∈ ["sidc", "SIDC"], ∃ sidc, valueGiven placemark name = some sidc ∧
    cto.symbology.sidc2525c = some sidc

/-- The affiliation is that of the second character of the code. -/
def Decoded (cto : CTO) : Prop :=
  ∃ sidc a c, cto.symbology.sidc2525c = some sidc ∧ cto.symbology.affiliation = some a ∧
    sidc.toList.length = 15 ∧ sidc.toList[1]? = some c ∧ (a.value, c) ∈ affilChar

/-- The notes of a step say this value. -/
def Says (step : ProvenanceEntry) (name : String) (v : Value) : Prop :=
  ∃ text members, step.notes = some text ∧ loads text = some (.obj members) ∧
    lookup name members = some v

def labelStep (cto : CTO) : Option ProvenanceEntry :=
  cto.provenance.find? (fun p => p.step = "kmz_label_recognized")

/-- The loss list and the notes of the step say where the code and the affiliation are from. -/
structure Truthful (placemark : Element) (cto : CTO) (step : ProvenanceEntry) : Prop where
  code : TakenFromFile placemark cto ↔ "sidc_2525c" ∉ step.lossyFields
  used : "sidc_2525c" ∉ step.lossyFields ↔ Says step "explicit_sidc_used" (.bool true)
  affiliation : "affiliation" ∉ step.lossyFields ↔
    Says step "affiliation_source" (.str "explicit_sidc")
  source : Says step "affiliation_source" (.str "explicit_sidc") ↔
    TakenFromFile placemark cto ∧ Decoded cto
  agree : ∀ sidc a name c, cto.symbology.sidc2525c = some sidc →
    cto.symbology.affiliation = some a → sidc.toList.length = 15 → sidc.toList[1]? = some c →
      (name, c) ∈ affilChar → name = a.value

/-- There is nothing but white space for a code, under the name in capitals. -/
structure BlankCode (placemark : Element) : Prop where
  unset : ∀ text, valueGiven placemark "sidc" = some text → text = ""
  blank : valueGiven placemark "SIDC" = some ""

section Data

theorem addData_get? (data : Dict String String) (item : Element) {name : String}
    (named : name ≠ "") :
    (addData data item).get? name = ((valueText name item).map strip).or (data.get? name) := by
  unfold addData valueText
  by_cases same : item.get "name" = some name
  · rw [if_pos same, same]
    cases (directFindNs item "value").bind Element.text with
    | none => simp
    | some value =>
      by_cases empty : value = ""
      · simp [empty, Option.filter]
      · simp [named, empty, Option.filter]
  · rw [if_neg same]
    simp only [Option.map_none, Option.none_or]
    split
    · rename_i full
      refine Dict.get?_set_ne _ _ ?_
      rintro rfl
      cases given : item.get "name" with
      | none => simp [given] at full
      | some other => exact same (by simp [given])
    · rfl

theorem foldl_addData (items : List Element) (data : Dict String String) {name : String}
    (named : name ≠ "") :
    (items.foldl addData data).get? name =
      (((items.filterMap (valueText name)).getLast?).map strip).or (data.get? name) := by
  induction items generalizing data with
  | nil => rfl
  | cons item items ih =>
    rw [List.foldl_cons, ih, addData_get? data item named]
    cases text : valueText name item with
    | none =>
      rw [List.filterMap_cons_none text]
      rfl
    | some value =>
      rw [List.filterMap_cons_some text, List.getLast?_cons]
      cases (items.filterMap (valueText name)).getLast? with
      | none => rfl
      | some later => rfl

theorem extendedData_get? (placemark : Element) {name : String} (named : name ≠ "") :
    (extendedData placemark).get? name = valueGiven placemark name := by
  unfold extendedData valueGiven dataItems
  cases directFindNs placemark "ExtendedData" with
  | none => rfl
  | some ext =>
    simp only [foldl_addData _ _ named, Option.toList_some, List.flatMap_singleton,
      Dict.get?_empty, Option.or_none]

end Data

section Code

variable {placemark : Element}

theorem explicitSidcOf_eq (placemark : Element) :
    explicitSidcOf (extendedData placemark) =
      ((valueGiven placemark "sidc").bind noneIfEmpty).or (valueGiven placemark "SIDC") := by
  rw [explicitSidcOf_or, extendedData_get? placemark (by decide),
    extendedData_get? placemark (by decide)]

theorem given_of_explicit {sidc : String}
    (explicit : (explicitSidcOf (extendedData placemark)).bind noneIfEmpty = some sidc) :
    ∃ name ∈ ["sidc", "SIDC"], valueGiven placemark name = some sidc := by
  obtain ⟨value, used, nonempty⟩ := Option.bind_eq_some_iff.mp explicit
  obtain ⟨-, rfl⟩ := noneIfEmpty_eq_some.mp nonempty
  rw [explicitSidcOf_eq] at used
  rcases Option.or_eq_some_iff.mp used with small | ⟨-, capital⟩
  · obtain ⟨text, given, same⟩ := Option.bind_eq_some_iff.mp small
    obtain ⟨-, rfl⟩ := noneIfEmpty_eq_some.mp same
    exact ⟨"sidc", by simp, given⟩
  · exact ⟨"SIDC", by simp, capital⟩

theorem empty_of_no_explicit
    (explicit : (explicitSidcOf (extendedData placemark)).bind noneIfEmpty = none) :
    ∀ name ∈ ["sidc", "SIDC"], ∀ text, valueGiven placemark name = some text → text = "" := by
  intro name named text given
  have named_text : name ≠ "" := by
    rintro rfl
    simp at named
  have unused := explicitSidcOf_none_iff.mp explicit name named
  rw [extendedData_get? placemark named_text, given] at unused
  exact noneIfEmpty_eq_none.mp unused

theorem blankCode_iff :
    BlankCode placemark ↔ (explicitSidcOf (extendedData placemark)).bind noneIfEmpty = none ∧
      (explicitSidcOf (extendedData placemark)).isSome = true := by
  constructor
  · rintro ⟨unset, blank⟩
    have small : (valueGiven placemark "sidc").bind noneIfEmpty = none := by
      cases given : valueGiven placemark "sidc" with
      | none => rfl
      | some text => exact noneIfEmpty_eq_none.mpr (unset text given)
    rw [explicitSidcOf_eq, small, blank]
    exact ⟨noneIfEmpty_eq_none.mpr rfl, rfl⟩
  · rintro ⟨unused, present⟩
    refine ⟨empty_of_no_explicit unused "sidc" (by simp), ?_⟩
    obtain ⟨text, here⟩ := Option.isSome_iff_exists.mp present
    rw [here, Option.bind_some, noneIfEmpty_eq_none] at unused
    subst unused
    rw [explicitSidcOf_eq] at here
    rcases Option.or_eq_some_iff.mp here with small | ⟨-, capital⟩
    · obtain ⟨text, -, same⟩ := Option.bind_eq_some_iff.mp small
      obtain ⟨nonempty, rfl⟩ := noneIfEmpty_eq_some.mp same
      exact absurd rfl nonempty
    · exact capital

end Code

section Notes

def noteMembers (r : RecognitionResult) (explicit : Option String) (source : String) :
    List (String × Value) :=
  [("matched_layer", .str r.matchedLayer.value), ("status", .str r.status.value),
    ("doctrinal_kind", (r.doctrinalKind.map .str).getD .null),
    ("suspected_modifier", .bool r.suspectedModifier), ("reasons", .arr (r.reasons.map .str)),
    ("explicit_sidc_used", .bool explicit.isSome), ("affiliation_source", .str source)]

theorem readAs_bool (b : Bool) : ReadAs (jsonBool b) (.bool b) := by
  cases b with
  | true => exact Json.readAs_true
  | false => exact Json.readAs_false

theorem loads_recognitionNotes (r : RecognitionResult) (explicit : Option String)
    (source : String) :
    loads (recognitionNotes r explicit source) = some (.obj (noteMembers r explicit source)) := by
  have kind : ReadAs ((r.doctrinalKind.map jsonString).getD "null")
      ((r.doctrinalKind.map .str).getD .null) := by
    cases r.doctrinalKind with
    | none => exact Json.readAs_null
    | some kind => exact Json.readAs_str kind
  have reasons : List.Forall₂ ReadAs (r.reasons.map jsonString) (r.reasons.map .str) := by
    rw [List.forall₂_map_left_iff, List.forall₂_map_right_iff]
    exact List.forall₂_same.mpr (fun s _ => Json.readAs_str s)
  refine Json.loads_object ?_
  exact .cons ⟨rfl, Json.readAs_str _⟩ (.cons ⟨rfl, Json.readAs_str _⟩ (.cons ⟨rfl, kind⟩
    (.cons ⟨rfl, readAs_bool _⟩ (.cons ⟨rfl, Json.readAs_arr reasons⟩
      (.cons ⟨rfl, readAs_bool _⟩ (.cons ⟨rfl, Json.readAs_str _⟩ .nil))))))

theorem says_iff {step : ProvenanceEntry} {r : RecognitionResult} {explicit : Option String}
    {source : String} (notes : step.notes = some (recognitionNotes r explicit source))
    {name : String} {v : Value} :
    Says step name v ↔ lookup name (noteMembers r explicit source) = some v := by
  constructor
  · rintro ⟨text, members, written, read, found⟩
    cases written.symm.trans notes
    cases read.symm.trans (loads_recognitionNotes r explicit source)
    exact found
  · intro found
    exact ⟨_, _, notes, loads_recognitionNotes r explicit source, found⟩

theorem says_used {step : ProvenanceEntry} {r : RecognitionResult} {explicit : Option String}
    {source : String} (notes : step.notes = some (recognitionNotes r explicit source)) :
    Says step "explicit_sidc_used" (.bool true) ↔ explicit.isSome = true := by
  have found : lookup "explicit_sidc_used" (noteMembers r explicit source) =
      some (.bool explicit.isSome) := rfl
  rw [says_iff notes, found]
  simp

theorem says_source {step : ProvenanceEntry} {r : RecognitionResult} {explicit : Option String}
    {source : String} (notes : step.notes = some (recognitionNotes r explicit source)) :
    Says step "affiliation_source" (.str "explicit_sidc") ↔ source = "explicit_sidc" := by
  have found : lookup "affiliation_source" (noteMembers r explicit source) =
      some (.str source) := rfl
  rw [says_iff notes, found]
  simp

end Notes

section Identity

theorem affiliationFromExplicitSidc_iff {sidc name : String} :
    affiliationFromExplicitSidc sidc = some name ↔
      sidc.toList.length = 15 ∧ ∃ c, sidc.toList[1]? = some c ∧ (name, c) ∈ affilChar := by
  unfold affiliationFromExplicitSidc
  constructor
  · intro decoded
    split at decoded
    · rename_i length
      obtain ⟨c, here, named⟩ := Option.bind_eq_some_iff.mp decoded
      obtain ⟨entry, found, rfl⟩ := Option.map_eq_some_iff.mp named
      have own : entry.2 = c := by simpa using List.find?_some found
      subst own
      exact ⟨length, entry.2, here, List.mem_of_find?_eq_some found⟩
    · cases decoded
  · rintro ⟨length, c, here, listed⟩
    rw [if_pos length, here]
    exact affilName_of_mem listed

theorem source_ne_explicit (source : AffiliationSource) : source.value ≠ "explicit_sidc" := by
  cases source with
  | descriptionHostile => decide
  | descriptionFriendly => decide
  | suspectedModifier => decide
  | configuredDefault => decide

theorem effectiveAffiliation_some {explicit : Option String} {r : RecognitionResult} {name : String}
    (decoded : (explicit.bind noneIfEmpty).bind affiliationFromExplicitSidc = some name) :
    effectiveAffiliation explicit r = (name, "explicit_sidc") := by
  unfold effectiveAffiliation
  rw [decoded]

theorem effectiveAffiliation_none {explicit : Option String} {r : RecognitionResult}
    (undecoded : (explicit.bind noneIfEmpty).bind affiliationFromExplicitSidc = none) :
    effectiveAffiliation explicit r = (r.affiliation, r.affiliationSource.value) := by
  unfold effectiveAffiliation
  rw [undecoded]

theorem effectiveAffiliation_source (explicit : Option String) (r : RecognitionResult) :
    (effectiveAffiliation explicit r).2 = "explicit_sidc" ↔
      ∃ name, (explicit.bind noneIfEmpty).bind affiliationFromExplicitSidc = some name := by
  cases decoded : (explicit.bind noneIfEmpty).bind affiliationFromExplicitSidc with
  | some name =>
    rw [effectiveAffiliation_some decoded]
    exact iff_of_true rfl ⟨name, rfl⟩
  | none =>
    rw [effectiveAffiliation_none decoded]
    refine iff_of_false (source_ne_explicit _) ?_
    rintro ⟨name, other⟩
    cases other

end Identity

variable {py : Runtime} {intake : Intake} {idx : Nat} {placemark : Element} {cto : CTO}
  {r : RecognitionResult}

theorem Made.stored (made : Made py intake idx placemark cto r) :
    cto.symbology.sidc2525c =
      some (((explicitSidcOf (extendedData placemark)).bind noneIfEmpty).getD r.sidc) ∧
    ∃ a, cto.symbology.affiliation = some a ∧
      a.value = (effectiveAffiliation (explicitSidcOf (extendedData placemark)) r).1 := by
  have symbols := made.symbology
  unfold symbologyOf at symbols
  split at symbols
  · cases symbols
  · rename_i a known
    have same := Except.ok.inj symbols
    refine ⟨?_, a, ?_, by simpa using List.find?_some known⟩
    · rw [← same]
    · rw [← same]

theorem Made.sidc (made : Made py intake idx placemark cto r) :
    r.sidc.toList.length = 15 ∧ Agree r.sidc r.affiliation := by
  obtain ⟨label, description, geometryType, known⟩ := made.recognized
  obtain ⟨r', template, again, _, recognized⟩ :=
    recognize_spec py.tables py.env label description geometryType
  cases known.symm.trans again
  exact ⟨recognized.length, recognized.agree⟩

theorem Made.taken_iff (made : Made py intake idx placemark cto r) :
    TakenFromFile placemark cto ↔
      ((explicitSidcOf (extendedData placemark)).bind noneIfEmpty).isSome = true := by
  obtain ⟨stored, -⟩ := made.stored
  cases explicit : (explicitSidcOf (extendedData placemark)).bind noneIfEmpty with
  | some sidc =>
    rw [explicit, Option.getD_some] at stored
    obtain ⟨name, named, given⟩ := given_of_explicit explicit
    exact iff_of_true ⟨name, named, sidc, given, stored⟩ rfl
  | none =>
    rw [explicit, Option.getD_none] at stored
    refine iff_of_false ?_ Bool.false_ne_true
    rintro ⟨name, named, sidc, given, also⟩
    cases stored.symm.trans also
    have length := made.sidc.1
    rw [empty_of_no_explicit explicit name named _ given] at length
    cases length

theorem Made.source_iff (made : Made py intake idx placemark cto r) :
    (effectiveAffiliation (explicitSidcOf (extendedData placemark)) r).2 = "explicit_sidc" ↔
      TakenFromFile placemark cto ∧ Decoded cto := by
  obtain ⟨stored, a, affiliation, same⟩ := made.stored
  rw [effectiveAffiliation_source, made.taken_iff]
  constructor
  · rintro ⟨name, decoded⟩
    obtain ⟨sidc, explicit, read⟩ := Option.bind_eq_some_iff.mp decoded
    obtain ⟨length, c, here, listed⟩ := affiliationFromExplicitSidc_iff.mp read
    rw [effectiveAffiliation_some decoded] at same
    rw [explicit, Option.getD_some] at stored
    refine ⟨by rw [explicit]; rfl, sidc, a, c, stored, affiliation, length, here, ?_⟩
    rw [same]
    exact listed
  · rintro ⟨used, sidc, a', c, stored', affiliation', length, here, listed⟩
    obtain ⟨text, explicit⟩ := Option.isSome_iff_exists.mp used
    rw [explicit, Option.getD_some] at stored
    cases stored.symm.trans stored'
    refine ⟨a'.value, ?_⟩
    rw [explicit]
    exact affiliationFromExplicitSidc_iff.mpr ⟨length, c, here, listed⟩

theorem Made.agree (made : Made py intake idx placemark cto r) {sidc name : String}
    {a : Affiliation} {c : Char} (stored : cto.symbology.sidc2525c = some sidc)
    (affiliation : cto.symbology.affiliation = some a) (length : sidc.toList.length = 15)
    (here : sidc.toList[1]? = some c) (listed : (name, c) ∈ affilChar) : name = a.value := by
  obtain ⟨stored', a', affiliation', same⟩ := made.stored
  cases affiliation.symm.trans affiliation'
  rw [same]
  cases explicit : (explicitSidcOf (extendedData placemark)).bind noneIfEmpty with
  | some text =>
    rw [explicit, Option.getD_some] at stored'
    cases stored.symm.trans stored'
    have decoded : ((explicitSidcOf (extendedData placemark)).bind noneIfEmpty).bind
        affiliationFromExplicitSidc = some name := by
      rw [explicit]
      exact affiliationFromExplicitSidc_iff.mpr ⟨length, c, here, listed⟩
    rw [effectiveAffiliation_some decoded]
  | none =>
    rw [explicit, Option.getD_none] at stored'
    cases stored.symm.trans stored'
    have undecoded : ((explicitSidcOf (extendedData placemark)).bind noneIfEmpty).bind
        affiliationFromExplicitSidc = none := by
      rw [explicit]
      rfl
    rw [effectiveAffiliation_none undecoded]
    obtain ⟨-, c', here', only⟩ := made.sidc
    cases here.symm.trans here'
    exact (only name).mp listed

theorem not_listed_iff {p : Prop} [Decidable p] {name other : String} :
    name ∉ (if p then [] else [other]) ↔ (name = other → p) := by
  split
  · rename_i holds
    simp [holds]
  · rename_i fails
    simp [fails]

theorem Made.step (made : Made py intake idx placemark cto r) :
    ∃ step, labelStep cto = some step ∧
      step.notes = some (recognitionNotes r (explicitSidcOf (extendedData placemark))
        (effectiveAffiliation (explicitSidcOf (extendedData placemark)) r).2) ∧
      ("sidc_2525c" ∉ step.lossyFields ↔
        ((explicitSidcOf (extendedData placemark)).bind noneIfEmpty).isSome = true) ∧
      ("affiliation" ∉ step.lossyFields ↔
        (effectiveAffiliation (explicitSidcOf (extendedData placemark)) r).2 =
          "explicit_sidc") := by
  refine ⟨_, by rw [labelStep, made.provenance]; rfl, rfl, ?_, ?_⟩
  · rw [List.mem_append, not_or, not_listed_iff, not_listed_iff]
    simp
  · rw [List.mem_append, not_or, not_listed_iff, not_listed_iff]
    simp

/-- The records of an object are truthful but for a blank code under the name in capitals: that is
noted as used, though the code is the recognizer's. -/
theorem truthful_iff_not_blankCode (py : Runtime) (intake : Intake) (idx : Nat)
    (placemark : Element) (cto : CTO)
    (made : placemarkToCto py intake idx placemark = .ok (some cto)) :
    ∃ step, labelStep cto = some step ∧ (Truthful placemark cto step ↔ ¬ BlankCode placemark) := by
  obtain ⟨r, built⟩ := placemarkToCto_made made
  obtain ⟨step, found, notes, code, affiliation⟩ := built.step
  refine ⟨step, found, ?_⟩
  rw [blankCode_iff]
  constructor
  -- a blank code is used in the notes, which ask for presence, and lost in the list, which asks for
  -- truth
  · rintro truthful ⟨unused, present⟩
    have used := truthful.used.mpr ((says_used notes).mpr present)
    rw [code, unused] at used
    cases used
  · intro plain
    refine ⟨built.taken_iff.trans code.symm, ?_, ?_, ?_, ?_⟩
    · rw [code, says_used notes]
      constructor
      · intro used
        obtain ⟨sidc, explicit⟩ := Option.isSome_iff_exists.mp used
        obtain ⟨text, here, -⟩ := Option.bind_eq_some_iff.mp explicit
        rw [here]
        rfl
      · intro present
        cases used : (explicitSidcOf (extendedData placemark)).bind noneIfEmpty with
        | some sidc => rfl
        | none => exact absurd ⟨used, present⟩ plain
    · rw [affiliation, says_source notes]
    · rw [says_source notes]
      exact built.source_iff
    · intro sidc a name c stored known length here listed
      exact built.agree stored known length here listed

def dataItem (name value : String) : Element :=
  .mk "Data" (.set .empty "name" name) none [.mk "value" .empty (some value) []]

def codedPoint (name value : String) : Element :=
  .mk "Placemark" .empty none [.mk "Point" .empty none [coordinates "1,2"],
    .mk "ExtendedData" .empty none [dataItem name value]]

/-- A point with an explicit code is converted, whatever that code is. -/
theorem codedPoint_made (name value : String) :
    ∃ cto, placemarkToCto plainKmz inboxIntake 0 (codedPoint name value) = .ok (some cto) := by
  have drawn : placemarkGeometry plainKmz (codedPoint name value) =
      .ok (some ⟨.point, [.num 1, .num 2], rfl⟩) := rfl
  obtain ⟨converted, made⟩ := placemarkToCto_ok inboxIntake 0 drawn
  cases converted with
  | none => cases drawn.symm.trans (placemarkToCto_none made)
  | some cto => exact ⟨cto, made⟩

theorem truthful_iff_not_blankCode_friend :
    ∃ cto, placemarkToCto plainKmz inboxIntake 0 (codedPoint "sidc" "GFGPGPRN-------") =
        .ok (some cto) ∧
      ∃ step, labelStep cto = some step ∧
        (Truthful (codedPoint "sidc" "GFGPGPRN-------") cto step ↔
          ¬ BlankCode (codedPoint "sidc" "GFGPGPRN-------")) := by
  obtain ⟨cto, made⟩ := codedPoint_made "sidc" "GFGPGPRN-------"
  exact ⟨cto, made, truthful_iff_not_blankCode plainKmz inboxIntake 0 _ cto made⟩

/-- A blank under the name in capitals is noted as a code that was used. -/
theorem blank_code_noted :
    ∃ cto, placemarkToCto plainKmz inboxIntake 0 (codedPoint "SIDC" " ") = .ok (some cto) ∧
      ¬ TakenFromFile (codedPoint "SIDC" " ") cto ∧
      ∃ step, labelStep cto = some step ∧ "sidc_2525c" ∈ step.lossyFields ∧
        Says step "explicit_sidc_used" (.bool true) ∧
        ¬ Truthful (codedPoint "SIDC" " ") cto step := by
  obtain ⟨cto, made⟩ := codedPoint_made "SIDC" " "
  have explicit : explicitSidcOf (extendedData (codedPoint "SIDC" " ")) = some "" := by
    decide +kernel
  obtain ⟨r, built⟩ := placemarkToCto_made made
  obtain ⟨step, found, notes, code, -⟩ := built.step
  rw [explicit] at notes code
  have noted : Says step "explicit_sidc_used" (.bool true) := (says_used notes).mpr rfl
  have lost : ¬ "sidc_2525c" ∉ step.lossyFields := by
    rw [code]
    decide
  refine ⟨cto, made, ?_, step, found, not_not.mp lost, noted, ?_⟩
  · rw [built.taken_iff, explicit]
    decide
  · intro truthful
    exact lost (truthful.used.mpr noted)

end TacticalGateway.Kmz
