import TacticalGateway.Kmz.Parser
import TacticalGateway.Lib.JsonEqual
import TacticalGateway.Ovl.Contract

/-! The symbol code and the affiliation of an object of a KMZ file: they agree wherever the file
itself gives no code. -/
namespace TacticalGateway.Kmz
open ElementTree (Element)
open Json (Value lookup)
open Normalizers (writeElement)
open Ovl (noneIfEmpty noneIfEmpty_eq_some noneIfEmpty_eq_none)

/-- The file gives a code: the extended data of the object have an entry for it that is not
empty. -/
def CarriesSidc (cto : CTO) : Prop :=
  ∃ members, cto.attributes.get? "kmz_extended_data" = some (.obj members) ∧
    ∃ name ∈ ["sidc", "SIDC"], ∃ v, lookup name members = some v ∧ v.truthy = true

def Symbolized (cto : CTO) : Prop :=
  ∃ sidc a, cto.symbology.sidc2525c = some sidc ∧ cto.symbology.affiliation = some a ∧
    Agree sidc a.value

variable {py : Runtime} {intake : Intake}

/-- What the parser puts into an object, by the recognizer's result. -/
structure Made (py : Runtime) (intake : Intake) (idx : Nat) (placemark : Element) (cto : CTO)
    (r : RecognitionResult) : Prop where
  recognized : ∃ label description geometryType,
    recognize py.tables py.env label description geometryType = .ok r
  symbology : symbologyOf (explicitSidcOf (extendedData placemark)) r = .ok cto.symbology
  attributes : ∃ description id, cto.attributes =
    attributesOf intake idx (extendedData placemark) r.doctrinalKind description id
  provenance : cto.provenance = provenanceOf intake (explicitSidcOf (extendedData placemark)) r
  pointer : cto.rawPointer = some intake.rawPointer

theorem placemarkToCto_made {idx : Nat} {placemark : Element} {cto : CTO}
    (made : placemarkToCto py intake idx placemark = .ok (some cto)) :
    ∃ r, Made py intake idx placemark cto r := by
  unfold placemarkToCto at made
  simp only [bind, Except.bind] at made
  cases drawn : placemarkGeometry py placemark with
  | error e =>
    rw [drawn] at made
    cases made
  | ok geometry =>
    cases geometry with
    | none =>
      rw [drawn] at made
      cases made
    | some geometry =>
      simp only [drawn] at made
      cases known : recognize py.tables py.env (textOf (directFindNs placemark "name"))
          (textOf (directFindNs placemark "description")) geometry.type with
      | error e =>
        rw [known] at made
        cases made
      | ok r =>
        simp only [known, Except.mapError] at made
        cases symbols : symbologyOf (explicitSidcOf (extendedData placemark)) r with
        | error e =>
          rw [symbols] at made
          cases made
        | ok symbology =>
          rw [symbols] at made
          cases made
          exact ⟨r, ⟨_, _, _, known⟩, symbols, ⟨_, _, rfl⟩, rfl, rfl⟩

theorem mem_ctosFrom {idx : Nat} {ps : List Element} {ctos : List CTO} {cto : CTO}
    (made : ctosFrom py intake idx ps = .ok ctos) (member : cto ∈ ctos) :
    ∃ i placemark, placemarkToCto py intake i placemark = .ok (some cto) := by
  induction ps generalizing idx ctos with
  | nil =>
    cases made
    cases member
  | cons placemark ps ih =>
    simp only [ctosFrom, bind, Except.bind] at made
    cases first : placemarkToCto py intake idx placemark with
    | error e =>
      rw [first] at made
      cases made
    | ok one =>
      cases rest : ctosFrom py intake (idx + 1) ps with
      | error e =>
        rw [first, rest] at made
        cases made
      | ok later =>
        rw [first, rest] at made
        cases made
        rcases List.mem_append.mp member with here | there
        · rw [Option.mem_toList] at here
          cases here
          exact ⟨idx, placemark, first⟩
        · exact ih rest there

theorem kmzToCtos_ok {kmzBytes : List UInt8} {ctos : List CTO}
    (made : kmzToCtos py kmzBytes intake = .ok ctos) :
    ∃ kml root, readPrimaryKml py kmzBytes = .ok kml ∧ py.fromstring kml = .ok root ∧
      ctosFrom py intake 0 (placemarks root) = .ok ctos := by
  unfold kmzToCtos at made
  simp only [bind, Except.bind] at made
  cases read : readPrimaryKml py kmzBytes with
  | error e =>
    rw [read] at made
    cases made
  | ok kml =>
    rw [read] at made
    simp only at made
    cases parsed : py.fromstring kml with
    | error e =>
      rw [parsed] at made
      cases made
    | ok root =>
      rw [parsed] at made
      exact ⟨kml, root, rfl, parsed, made⟩

theorem setNonempty_get? {name other : String} (different : other ≠ name)
    (attributes : Attributes) (value : Option String) :
    (setNonempty attributes name value).get? other = attributes.get? other := by
  unfold setNonempty
  split
  · exact Dict.get?_set_ne _ _ different
  · rfl

theorem attributesOf_extended (intake : Intake) (idx : Nat) (data : Dict String String)
    (kind description placemarkId : Option String) (members : data.items ≠ []) :
    (attributesOf intake idx data kind description placemarkId).get? "kmz_extended_data" =
      some (.obj (data.items.map (fun i => (i.1, .str i.2)))) := by
  unfold attributesOf
  simp only
  rw [setNonempty_get? (by decide), setNonempty_get? (by decide), setNonempty_get? (by decide),
    setExtended, if_neg members, Dict.get?_set_self]

theorem explicitSidcOf_or (data : Dict String String) :
    explicitSidcOf data = ((data.get? "sidc").bind noneIfEmpty).or (data.get? "SIDC") := by
  unfold explicitSidcOf
  cases (data.get? "sidc").bind noneIfEmpty with
  | some sidc => rfl
  | none => rfl

/-- No code is used exactly where both values are missing or empty. -/
theorem explicitSidcOf_none_iff {data : Dict String String} :
    (explicitSidcOf data).bind noneIfEmpty = none ↔
      ∀ name ∈ ["sidc", "SIDC"], (data.get? name).bind noneIfEmpty = none := by
  rw [explicitSidcOf_or, List.forall_mem_cons, List.forall_mem_singleton]
  cases small : (data.get? "sidc").bind noneIfEmpty with
  | none => simp
  | some sidc =>
    obtain ⟨value, -, same⟩ := Option.bind_eq_some_iff.mp small
    obtain ⟨nonempty, rfl⟩ := noneIfEmpty_eq_some.mp same
    simp [noneIfEmpty_eq_none, nonempty]

theorem explicit_of_not_carries {idx : Nat} {placemark : Element} {cto : CTO}
    {r : RecognitionResult} (made : Made py intake idx placemark cto r)
    (plain : ¬ CarriesSidc cto) :
    (explicitSidcOf (extendedData placemark)).bind noneIfEmpty = none := by
  obtain ⟨description, id, attributes⟩ := made.attributes
  rw [explicitSidcOf_none_iff]
  intro name searched
  by_contra found
  obtain ⟨text, nonempty⟩ := Option.ne_none_iff_exists'.mp found
  obtain ⟨s, here, nonempty⟩ := Option.bind_eq_some_iff.mp nonempty
  have full : s ≠ "" := (noneIfEmpty_eq_some.mp nonempty).1
  have members : (extendedData placemark).items ≠ [] := by
    intro nothing
    simp [Dict.get?, nothing] at here
  refine plain ⟨(extendedData placemark).items.map (fun i => (i.1, .str i.2)), ?_, name,
    searched, .str s, ?_, by simpa [Value.truthy] using full⟩
  · rw [attributes, attributesOf_extended _ _ _ _ _ _ members]
  · rw [Json.lookup_map, here]
    rfl

theorem symbolized_of_not_carries {idx : Nat} {placemark : Element} {cto : CTO}
    (made : placemarkToCto py intake idx placemark = .ok (some cto)) (plain : ¬ CarriesSidc cto) :
    Symbolized cto := by
  obtain ⟨r, built⟩ := placemarkToCto_made made
  have no_code := explicit_of_not_carries built plain
  obtain ⟨label, description, geometryType, known⟩ := built.recognized
  obtain ⟨r', template, again, _, recognized⟩ :=
    recognize_spec py.tables py.env label description geometryType
  cases known.symm.trans again
  have symbols := built.symbology
  unfold symbologyOf effectiveAffiliation at symbols
  rw [no_code] at symbols
  simp only [Option.bind_none] at symbols
  cases valid : affiliationOf r.affiliation with
  | none =>
    rw [valid] at symbols
    cases symbols
  | some a =>
    rw [valid] at symbols
    have same : a.value = r.affiliation := by simpa using List.find?_some valid
    have symbology := Except.ok.inj symbols
    refine ⟨r.sidc, a, ?_, ?_, ?_⟩
    · rw [← symbology]
      rfl
    · rw [← symbology]
    · rw [same]
      exact recognized.agree

theorem affiliationOf_value (a : Affiliation) : affiliationOf a.value = some a := by
  cases a <;> decide

theorem affilName_valid {c : Char} {name : String} (named : affilName c = some name) :
    ∃ a : Affiliation, a.value = name := by
  unfold affilName at named
  obtain ⟨i, found, rfl⟩ := Option.map_eq_some_iff.mp named
  exact affilChar_valid i (List.mem_of_find?_eq_some found)

theorem explicit_valid {sidc affiliation : String}
    (decoded : affiliationFromExplicitSidc sidc = some affiliation) :
    ∃ a : Affiliation, a.value = affiliation := by
  unfold affiliationFromExplicitSidc at decoded
  split at decoded
  · obtain ⟨c, _, named⟩ := Option.bind_eq_some_iff.mp decoded
    exact affilName_valid named
  · cases decoded

/-- Whatever code the file gives, there is an affiliation of the schema. -/
theorem symbologyOf_ok (explicit : Option String) {r : RecognitionResult}
    (valid : ∃ a : Affiliation, a.value = r.affiliation) :
    ∃ symbology, symbologyOf explicit r = .ok symbology := by
  have known : ∃ a : Affiliation, a.value = (effectiveAffiliation explicit r).1 := by
    unfold effectiveAffiliation
    cases decoded : (explicit.bind Ovl.noneIfEmpty).bind affiliationFromExplicitSidc with
    | none => exact valid
    | some affiliation =>
      obtain ⟨sidc, _, named⟩ := Option.bind_eq_some_iff.mp decoded
      exact explicit_valid named
  obtain ⟨a, same⟩ := known
  unfold symbologyOf
  rw [← same, affiliationOf_value]
  exact ⟨_, rfl⟩

theorem placemarkToCto_drawn {placemark : Element} {g : Geometry} (intake : Intake) (idx : Nat)
    (drawn : placemarkGeometry py placemark = .ok (some g)) :
    ∃ cto, placemarkToCto py intake idx placemark = .ok (some cto) := by
  unfold placemarkToCto
  simp only [bind, Except.bind, drawn]
  obtain ⟨r, _, known, _, recognized⟩ := recognize_spec py.tables py.env
    (textOf (directFindNs placemark "name")) (textOf (directFindNs placemark "description")) g.type
  obtain ⟨symbology, symbols⟩ :=
    symbologyOf_ok (explicitSidcOf (extendedData placemark)) recognized.valid
  simp only [known, Except.mapError, symbols]
  exact ⟨_, rfl⟩

/-- The recognizer never raises, and its code is the template of the layer that it names but for
the character of its affiliation; so an object of a KMZ file without a code of its own has a code
and an affiliation that agree. -/
theorem recognized_agree :
    (∀ (t : Tables) (env label description : Option String) (geometryType : GeometryType),
      ∃ r template, recognize t env label description geometryType = .ok r ∧
        Chosen t (workingLabel t label).2 geometryType r.matchedLayer template ∧
        Recognized r.sidc r.affiliation template) ∧
    ∀ (py : Runtime) (kmzBytes : List UInt8) (intake : Intake) (ctos : List CTO),
      kmzToCtos py kmzBytes intake = .ok ctos →
        ∀ cto ∈ ctos, ¬ CarriesSidc cto → Symbolized cto := by
  refine ⟨recognize_spec, ?_⟩
  intro py kmzBytes intake ctos made cto member plain
  obtain ⟨kml, root, _, _, loop⟩ := kmzToCtos_ok made
  obtain ⟨i, placemark, one⟩ := mem_ctosFrom loop member
  exact symbolized_of_not_carries one plain

def archiveOf (kml : Element) : Archive where
  namelist := ["doc.kml"]
  read := fun name => if name = "doc.kml" then some (Text.encode (writeElement kml)) else none

def knows (kmz : List UInt8) (kml : Element) : Runtime where
  toRuntime := Ovl.plainRuntime
  tables := ⟨Char.isDigit, Char.isAlphanum⟩
  env := none
  zipFile := fun bytes =>
    if bytes = kmz then .ok (archiveOf kml) else .error "File is not a zip file"
  fromstring := (Ovl.knows kml).fromstring

theorem knows_read (kmz : List UInt8) (kml : Element) :
    readPrimaryKml (knows kmz kml) kmz = .ok (Text.encode (writeElement kml)) := by
  unfold readPrimaryKml knows
  simp only [↓reduceIte]
  rfl

theorem knows_parsed (kmz : List UInt8) (kml : Element) :
    (knows kmz kml).fromstring (Text.encode (writeElement kml)) = .ok kml := by
  unfold knows Ovl.knows
  simp only [↓reduceIte]

theorem knows_kmzToCtos (kmz : List UInt8) (kml : Element) (intake : Intake) :
    kmzToCtos (knows kmz kml) kmz intake = ctosFrom (knows kmz kml) intake 0 (placemarks kml) := by
  unfold kmzToCtos
  rw [knows_read]
  simp only [bind, Except.bind, knows_parsed]

def inboxIntake : Intake :=
  ⟨0, "area.kmz", "folder:/inbox", newYear, Gateway.onePointPointer, .folder⟩

def coordinates (text : String) : Element := .mk "coordinates" .empty (some text) []

def pointAt (text : String) : Element := .mk "Point" .empty none [coordinates text]

def namedArea : Element :=
  .mk "Placemark" .empty none [.mk "name" .empty (some "NAI 7") [], pointAt "1,2"]

def placeless : Element := .mk "Placemark" .empty none [pointAt " "]

/-- A named area of interest, and a point without coordinates. -/
def areaKml : Element := .mk "kml" .empty none [namedArea, placeless]

/-- The document, stored without compression in an archive as doc.kml. -/
def areaKmz : List UInt8 :=
  [0x50, 0x4B, 0x03, 0x04, 0x14, 0x00, 0x00, 0x00, 0x00, 0x00, 0x00, 0x00, 0x21, 0x00, 0xBB, 0xA0,
    0x07, 0x39, 0xA3, 0x00, 0x00, 0x00, 0xA3, 0x00, 0x00, 0x00, 0x07, 0x00, 0x00, 0x00, 0x64, 0x6F,
    0x63, 0x2E, 0x6B, 0x6D, 0x6C] ++ Text.encode (writeElement areaKml) ++
  [0x50, 0x4B, 0x01, 0x02, 0x14, 0x03, 0x14, 0x00, 0x00, 0x00, 0x00, 0x00, 0x00, 0x00, 0x21, 0x00,
    0xBB, 0xA0, 0x07, 0x39, 0xA3, 0x00, 0x00, 0x00, 0xA3, 0x00, 0x00, 0x00, 0x07, 0x00, 0x00, 0x00,
    0x00, 0x00, 0x00, 0x00, 0x00, 0x00, 0x00, 0x00, 0x80, 0x01, 0x00, 0x00, 0x00, 0x00, 0x64, 0x6F,
    0x63, 0x2E, 0x6B, 0x6D, 0x6C, 0x50, 0x4B, 0x05, 0x06, 0x00, 0x00, 0x00, 0x00, 0x01, 0x00, 0x01,
    0x00, 0x35, 0x00, 0x00, 0x00, 0xC8, 0x00, 0x00, 0x00, 0x00, 0x00]

theorem area_drawn : placemarkGeometry (knows areaKmz areaKml) namedArea =
    .ok (some ⟨.point, [.num 1, .num 2], rfl⟩) := rfl

theorem area_made : ∃ cto, placemarkToCto (knows areaKmz areaKml) inboxIntake 0 namedArea =
      .ok (some cto) ∧
    kmzToCtos (knows areaKmz areaKml) areaKmz inboxIntake = .ok [cto] := by
  obtain ⟨cto, made⟩ := placemarkToCto_drawn inboxIntake 0 area_drawn
  refine ⟨cto, made, ?_⟩
  have both : placemarks areaKml = [namedArea, placeless] := rfl
  rw [knows_kmzToCtos, both, ctosFrom, made]
  rfl

theorem not_carries_of_no_data {idx : Nat} {placemark : Element} {cto : CTO}
    {r : RecognitionResult} (made : Made py intake idx placemark cto r)
    (none_given : (extendedData placemark).items = []) : ¬ CarriesSidc cto := by
  rintro ⟨members, here, -⟩
  obtain ⟨description, id, attributes⟩ := made.attributes
  rw [attributes] at here
  unfold attributesOf at here
  simp only at here
  rw [setNonempty_get? (by decide), setNonempty_get? (by decide), setNonempty_get? (by decide),
    setExtended, if_pos none_given] at here
  cases here

theorem recognized_agree_area :
    ∃ cto, kmzToCtos (knows areaKmz areaKml) areaKmz inboxIntake = .ok [cto] ∧
      ¬ CarriesSidc cto ∧ Symbolized cto := by
  obtain ⟨cto, one, made⟩ := area_made
  obtain ⟨r, built⟩ := placemarkToCto_made one
  have plain := not_carries_of_no_data built rfl
  exact ⟨cto, made, plain, recognized_agree.2 _ _ _ _ made cto (List.mem_singleton.mpr rfl) plain⟩

end TacticalGateway.Kmz
