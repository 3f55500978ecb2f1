import TacticalGateway.Gateway.Ingest
import TacticalGateway.Normalizers.XmlEgress
import TacticalGateway.Ovl.Parser
import TacticalGateway.Schema.Geometry

/-! How the OVL parser ends: which overlays become one object for each graphic, and which make an
exception pass that no caller expects. -/
namespace TacticalGateway.Ovl
open Gateway (IngestCall Parsed Parsers ovlIngest)
open ElementTree (Element)
open Json (Value)
open Normalizers (Etree writeElement)

/-- There are positions; and three of them, the last the first again, are no ring. -/
def Drawable (py : Runtime) (obj : MilbObject) : Prop :=
  obj.positions ≠ [] ∧ (obj.positions.length = 3 → closed py obj.positions = false)

instance (py : Runtime) (obj : MilbObject) : Decidable (Drawable py obj) :=
  inferInstanceAs (Decidable (_ ∧ _))

def parsed : Except Exn (List CTO) → Parsed
  | .ok ctos => .ctos ctos
  | .error (.ovlParseError message) => .parseError message
  | .error .validationError => .raised

/-- The ingestors with this parser for OVL files. -/
def installed (py : Runtime) (et : Etree) (parsers : Parsers) : Parsers :=
  { parsers with
    ovlToCtos := fun draw data filename sourceSystem receivedAt rawPointer ingestSource =>
      parsed (ovlToCtos py et data
        ⟨draw, filename, sourceSystem, receivedAt, rawPointer, ingestSource⟩) }

/-- The parser returns one object for each graphic, or raises its own error; so every ingest of
the file ends with a result. -/
structure Contract (py : Runtime) (et : Etree) (data : List UInt8) : Prop where
  parses : ∀ intake : Intake,
    (∃ model ctos, parseOvlBytes py et data = .ok model ∧ ovlToCtos py et data intake = .ok ctos ∧
      ctos.length = model.objects.length) ∨
      ∃ message, ovlToCtos py et data intake = .error (.ovlParseError message)
  ingests : ∀ (parsers : Parsers) (c : IngestCall), c.data = data →
    (ovlIngest (installed py et parsers) c).1.isSome = true

variable {py : Runtime} {et : Etree}

theorem listLength_lonLat (p : Position) : listLength (lonLat p) = some 2 := rfl

theorem build_line_iff (ps : List Position) :
    (Geometry.build .lineString (.arr (ps.map lonLat))).isSome = true ↔ 2 ≤ ps.length := by
  rw [Geometry.build_isSome_iff, validate_line_iff, List.length_map]
  simp [listLength_lonLat]

theorem build_ring_iff (ps : List Position) :
    (Geometry.build .polygon (.arr [.arr (ps.map lonLat)])).isSome = true ↔ 4 ≤ ps.length := by
  rw [Geometry.build_isSome_iff, validate_polygon_iff]
  simp [listLength]

theorem build_point (p : Position) (ps : List Position) :
    (Geometry.build .point (coordinatesOf py .point (p :: ps))).isSome = true := by
  change (Geometry.build .point (.arr [.num p.lon, .num p.lat])).isSome = true
  rw [Geometry.build_isSome_iff, validate_point_iff]
  simp [isNumber]

theorem length_ringOf {p : Position} {ps : List Position} :
    (ringOf py (p :: ps)).length =
      if closed py (p :: ps) then ps.length + 1 else ps.length + 2 := by
  unfold ringOf
  split <;> simp

theorem build_iff (sidc : String) (ps : List Position) :
    (Geometry.build (inferActualGeometry py ps sidc)
      (coordinatesOf py (inferActualGeometry py ps sidc) ps)).isSome = true ↔
        ps ≠ [] ∧ (ps.length = 3 → closed py ps = false) := by
  cases ps with
  | nil =>
    have none_built : Geometry.build (inferActualGeometry py [] sidc)
        (coordinatesOf py (inferActualGeometry py [] sidc) []) = none := rfl
    rw [none_built]
    simp
  | cons p ps =>
    simp only [ne_eq, List.cons_ne_nil, not_false_eq_true, true_and, List.length_cons]
    unfold inferActualGeometry
    simp only [List.length_cons]
    split
    · rename_i short
      refine iff_of_true (build_point p ps) ?_
      omega
    · split
      · rename_i two
        refine iff_of_true ((build_line_iff _).mpr ?_) ?_
        · rw [List.length_cons]
          omega
        · omega
      · split
        · rw [coordinatesOf, build_ring_iff, length_ringOf]
          cases closed py (p :: ps) with
          | true => simp; omega
          | false => simp; omega
        · rename_i _ _ line
          rw [Bool.not_eq_true, Bool.or_eq_false_iff] at line
          refine iff_of_true ((build_line_iff _).mpr ?_) (fun _ => line.2)
          rw [List.length_cons]
          omega

theorem milbobject_build_iff (obj : MilbObject) (uri : String) :
    (Geometry.build (milbobjectToCtoDict py obj uri).type
      (milbobjectToCtoDict py obj uri).coordinates).isSome = true ↔ Drawable py obj :=
  build_iff obj.milId obj.positions

theorem ctoOf_drawable {obj : MilbObject} (drawable : Drawable py obj) (model : OvlModel)
    (intake : Intake) (idx : Nat) : ∃ cto, ctoOf py model intake idx obj = .ok cto := by
  obtain ⟨geometry, built⟩ := Option.isSome_iff_exists.mp
    ((milbobject_build_iff obj intake.rawPointer.objectKey).mpr drawable)
  unfold ctoOf
  simp only [built]
  exact ⟨_, rfl⟩

theorem ctoOf_not_drawable {obj : MilbObject} (not_drawable : ¬ Drawable py obj) (model : OvlModel)
    (intake : Intake) (idx : Nat) : ctoOf py model intake idx obj = .error .validationError := by
  have not_built : Geometry.build (milbobjectToCtoDict py obj intake.rawPointer.objectKey).type
      (milbobjectToCtoDict py obj intake.rawPointer.objectKey).coordinates = none := by
    rw [← Option.not_isSome_iff_eq_none]
    exact fun built => not_drawable ((milbobject_build_iff _ _).mp built)
  unfold ctoOf
  simp only [not_built]

theorem mem_ctosFrom {model : OvlModel} {intake : Intake} {idx : Nat} {objs : List MilbObject}
    {ctos : List CTO} {cto : CTO} (made : ctosFrom py model intake idx objs = .ok ctos)
    (member : cto ∈ ctos) : ∃ i obj, ctoOf py model intake i obj = .ok cto := by
  induction objs generalizing idx ctos with
  | nil =>
    cases made
    cases member
  | cons obj objs ih =>
    rw [ctosFrom] at made
    cases first : ctoOf py model intake idx obj with
    | error e =>
      rw [first] at made
      cases made
    | ok one =>
      cases rest : ctosFrom py model intake (idx + 1) objs with
      | error e =>
        rw [first, rest] at made
        cases made
      | ok later =>
        rw [first, rest] at made
        cases made
        rcases List.mem_cons.mp member with rfl | there
        · exact ⟨idx, obj, first⟩
        · exact ih rest there

theorem ctoOf_pointer {model : OvlModel} {intake : Intake} {idx : Nat} {obj : MilbObject}
    {cto : CTO} (made : ctoOf py model intake idx obj = .ok cto) :
    cto.rawPointer = some intake.rawPointer := by
  unfold ctoOf at made
  dsimp only at made
  split at made
  · cases made
  · cases made
    rfl

theorem ctosFrom_spec (model : OvlModel) (intake : Intake) (idx : Nat) (objs : List MilbObject) :
    if ∀ obj ∈ objs, Drawable py obj then
      ∃ ctos, ctosFrom py model intake idx objs = .ok ctos ∧ ctos.length = objs.length
    else ctosFrom py model intake idx objs = .error .validationError := by
  induction objs generalizing idx with
  | nil => simp [ctosFrom]
  | cons obj objs ih =>
    rw [ctosFrom]
    by_cases drawable : Drawable py obj
    · obtain ⟨cto, made⟩ := ctoOf_drawable drawable model intake idx
      have rest := ih (idx + 1)
      split at rest
      · rename_i all
        obtain ⟨ctos, made_rest, length⟩ := rest
        rw [if_pos (by simpa [drawable] using all), made, made_rest]
        exact ⟨cto :: ctos, rfl, congrArg (· + 1) length⟩
      · rename_i some_not
        rw [if_neg (by simpa [drawable] using some_not), made, rest]
        rfl
    · rw [if_neg (by simp [drawable]), ctoOf_not_drawable drawable]
      rfl

theorem ovlToCtos_spec {data : List UInt8} {model : OvlModel}
    (read : parseOvlBytes py et data = .ok model) (intake : Intake) :
    if ∀ obj ∈ model.objects, Drawable py obj then
      ∃ ctos, ovlToCtos py et data intake = .ok ctos ∧ ctos.length = model.objects.length
    else ovlToCtos py et data intake = .error .validationError := by
  simp only [ovlToCtos, read]
  exact ctosFrom_spec model intake 0 model.objects

theorem ingestFile_isSome {format : Gateway.Format} {data : List UInt8}
    {capture : Except String RawPointer} {parse : RawPointer → Parsed} {publish : Nat → Bool}
    (never : ∀ rawPointer, parse rawPointer ≠ .raised) :
    (Gateway.ingestFile format data capture parse publish).1.isSome = true := by
  unfold Gateway.ingestFile
  split
  · rfl
  · cases capture with
    | error e => rfl
    | ok rawPointer =>
      cases ended : parse rawPointer with
      | ctos ctos => simp [ended]
      | parseError e => simp [ended]
      | raised => exact absurd ended (never rawPointer)

def inboxIntake : Intake :=
  ⟨0, "night.ovl", "folder:/inbox", newYear, Gateway.onePointPointer, .folder⟩

theorem Contract.drawable {data : List UInt8} {model : OvlModel} (contract : Contract py et data)
    (read : parseOvlBytes py et data = .ok model) : ∀ obj ∈ model.objects, Drawable py obj := by
  by_contra some_not
  have raised := ovlToCtos_spec read inboxIntake
  rw [if_neg some_not] at raised
  rcases contract.parses inboxIntake with ⟨_, ctos, _, made, _⟩ | ⟨message, made⟩
  · rw [raised] at made
    cases made
  · rw [raised] at made
    cases made

/-- The contract is met exactly where every graphic of a readable overlay can be drawn. -/
theorem contract_iff (py : Runtime) (et : Etree) (data : List UInt8) :
    Contract py et data ↔
      ∀ model, parseOvlBytes py et data = .ok model → ∀ obj ∈ model.objects, Drawable py obj := by
  constructor
  · intro contract model read
    exact contract.drawable read
  · intro all
    have parses : ∀ intake : Intake,
        (∃ model ctos, parseOvlBytes py et data = .ok model ∧
          ovlToCtos py et data intake = .ok ctos ∧ ctos.length = model.objects.length) ∨
          ∃ message, ovlToCtos py et data intake = .error (.ovlParseError message) := by
      intro intake
      cases read : parseOvlBytes py et data with
      | error e =>
        refine .inr ⟨e, ?_⟩
        simp only [ovlToCtos, read]
      | ok model =>
        have made := ovlToCtos_spec read intake
        rw [if_pos (all model read)] at made
        obtain ⟨ctos, made, length⟩ := made
        exact .inl ⟨model, ctos, rfl, made, length⟩
    refine ⟨parses, ?_⟩
    intro parsers c same
    unfold ovlIngest
    rw [Option.isSome_map]
    apply ingestFile_isSome
    intro rawPointer
    subst same
    change parsed (ovlToCtos py et c.data _) ≠ .raised
    rcases parses ⟨c.draw, c.filename, c.sourceLabel, c.receivedAt, rawPointer, c.ingestSource⟩ with
      ⟨_, ctos, _, made, _⟩ | ⟨message, made⟩
    · rw [made]
      nofun
    · rw [made]
      nofun

def knows (root : Element) : Etree where
  fromstring := fun xml =>
    if xml = Text.encode (writeElement root) then .ok root
    else .error (.parseError "not well-formed (invalid token)")
  tostring := writeElement

def undrawn : Element :=
  .mk "MODEL" .empty none [.mk "milbobject" .empty none [.mk "MIL_ID" .empty (some "GFGPGPRI-------") []]]

theorem undrawn_read : parseOvlBytes plainRuntime (knows undrawn)
    (Text.encode (writeElement undrawn)) =
    .ok { objects := [{ milId := "GFGPGPRI-------" }] } := by
  rw [parseOvlBytes, knows]
  simp only [↓reduceIte]
  rfl

theorem undrawn_breaks_contract :
    ¬ Contract plainRuntime (knows undrawn) (Text.encode (writeElement undrawn)) := by
  intro contract
  have drawable := contract.drawable undrawn_read { milId := "GFGPGPRI-------" } (by simp)
  exact drawable.1 rfl

end TacticalGateway.Ovl
