import TacticalGateway.Kmz.Agreement
import TacticalGateway.Lib.Table
import TacticalGateway.Ovl.Contract

/-! How the KMZ parser ends: which placemarks make it raise its own error, and which a validation
error that no caller expects. -/
namespace TacticalGateway.Kmz
open ElementTree (Element)
open Json (Value)
open Normalizers (writeElement)
open Ovl (Position lonLat ringOf closed)

section

variable (py : Runtime) (placemark : Element)

def Reads (shape : Option Element) (ps : List Position) : Prop := positionsIn py shape = .ok ps

def Unreadable (shape : Option Element) : Prop :=
  ∃ message, positionsIn py shape = .error (.kmzParseError message)

/-- Neither the point nor the line of the placemark has enough positions. -/
structure NoPointOrLine : Prop where
  point : Reads py (directFindNs placemark "Point") []
  line : ∃ ps, Reads py (directFindNs placemark "LineString") ps ∧ ps.length < 2

/-- A shape that is read has coordinates that cannot be parsed. -/
inductive Malformed : Prop where
  | point (bad : Unreadable py (directFindNs placemark "Point"))
  | line (point : Reads py (directFindNs placemark "Point") [])
      (bad : Unreadable py (directFindNs placemark "LineString"))
  | ring (earlier : NoPointOrLine py placemark) (b : Element) (among : b ∈ boundariesOf placemark)
      (bad : Unreadable py (findNs b "LinearRing"))

/-- The polygon is read, and one of its rings has three points, the last of which is the first
again. -/
structure ShortRing : Prop where
  earlier : NoPointOrLine py placemark
  readable : ∀ b ∈ boundariesOf placemark, ∃ ps, Reads py (findNs b "LinearRing") ps
  short : ∃ b ∈ boundariesOf placemark, ∃ ps, Reads py (findNs b "LinearRing") ps ∧
    ps.length = 3 ∧ closed py.toRuntime ps = true

structure Undrawn : Prop where
  earlier : NoPointOrLine py placemark
  rings : ∀ b ∈ boundariesOf placemark, ∃ ps, Reads py (findNs b "LinearRing") ps ∧ ps.length < 3

def Broken : Prop :=
  Malformed py placemark ∨
    Undrawn py placemark ∧ ∃ made, madeUp placemark = some made ∧ Malformed py made

def Degenerate : Prop :=
  ShortRing py placemark ∨
    Undrawn py placemark ∧ ∃ made, madeUp placemark = some made ∧ ShortRing py made

end

/-- Before every degenerate placemark there is one with which the parser gives up. -/
def Tolerated (py : Runtime) (ps : List Element) : Prop :=
  ∀ before p after, ps = before ++ p :: after → Degenerate py p → ∃ q ∈ before, Broken py q

/-- The parser returns a list or raises its own error. -/
def Contract (py : Runtime) (kmzBytes : List UInt8) (intake : Intake) : Prop :=
  (∃ ctos, kmzToCtos py kmzBytes intake = .ok ctos) ∨
    ∃ message, kmzToCtos py kmzBytes intake = .error (.kmzParseError message)

variable {py : Runtime} {placemark : Element}

theorem positionsIn_cases (py : Runtime) (shape : Option Element) :
    (∃ ps, Reads py shape ps) ∨ Unreadable py shape := by
  unfold Reads Unreadable positionsIn
  split
  · exact .inl ⟨_, rfl⟩
  · split
    · exact .inr ⟨_, rfl⟩
    · exact .inl ⟨_, rfl⟩

theorem not_reads_of_unreadable {shape : Option Element} {ps : List Position}
    (bad : Unreadable py shape) : ¬ Reads py shape ps := by
  obtain ⟨message, raised⟩ := bad
  intro read
  rw [Reads, raised] at read
  cases read

theorem geometryOf_ok_iff {type : GeometryType} {v : Value} :
    (∃ g, geometryOf type v = .ok g) ↔ (Geometry.build type v).isSome = true := by
  unfold geometryOf
  cases Geometry.build type v <;> simp

theorem geometryOf_rejected {type : GeometryType} {v : Value}
    (rejected : ¬ (Geometry.build type v).isSome = true) :
    geometryOf type v = .error .validationError := by
  rw [Option.not_isSome_iff_eq_none] at rejected
  unfold geometryOf
  rw [rejected]

theorem listLength_ringValue (ring : List Position) :
    listLength (ringValue ring) = some ring.length := by
  simp [ringValue, listLength]

theorem build_rings_iff {rings : List (List Position)} (some_ring : rings ≠ []) :
    (Geometry.build .polygon (.arr (rings.map ringValue))).isSome = true ↔
      ∀ ring ∈ rings, 4 ≤ ring.length := by
  have positive : 1 ≤ rings.length := List.length_pos_iff.mpr some_ring
  rw [Geometry.build_isSome_iff, validate_polygon_iff, List.length_map]
  simp [positive, listLength_ringValue]

theorem length_ring {ps : List Position} (three : 3 ≤ ps.length) :
    4 ≤ (ringOf py.toRuntime ps).length ↔ ¬ (ps.length = 3 ∧ closed py.toRuntime ps = true) := by
  cases ps with
  | nil => simp at three
  | cons p ps =>
    rw [Ovl.length_ringOf, List.length_cons]
    rw [List.length_cons] at three
    cases closed py.toRuntime (p :: ps) with
    | true => simp; omega
    | false => simp; omega

theorem readRings_cases (py : Runtime) (bs : List Element) :
    (∃ drawn, bs.mapM (fun b => positionsIn py (findNs b "LinearRing")) = .ok drawn ∧
      List.Forall₂ (fun b ps => Reads py (findNs b "LinearRing") ps) bs drawn) ∨
    (∃ message, bs.mapM (fun b => positionsIn py (findNs b "LinearRing")) =
      .error (.kmzParseError message)) ∧ ∃ b ∈ bs, Unreadable py (findNs b "LinearRing") := by
  induction bs with
  | nil => exact .inl ⟨[], rfl, .nil⟩
  | cons b bs ih =>
    rw [List.mapM_cons]
    rcases positionsIn_cases py (findNs b "LinearRing") with ⟨ps, read⟩ | bad
    · rcases ih with ⟨drawn, all, pairs⟩ | ⟨⟨message, raised⟩, b', among, bad⟩
      · refine .inl ⟨ps :: drawn, ?_, .cons read pairs⟩
        rw [read, all]
        rfl
      · refine .inr ⟨⟨message, ?_⟩, b', List.mem_cons_of_mem b among, bad⟩
        rw [read, raised]
        rfl
    · have unreadable := bad
      obtain ⟨message, raised⟩ := bad
      refine .inr ⟨⟨message, ?_⟩, b, List.mem_cons_self, unreadable⟩
      rw [raised]
      rfl

theorem drawnGeometry_rings (earlier : NoPointOrLine py placemark) :
    drawnGeometry py placemark = (do
      let rings ← ringsOf py placemark
      if rings = [] then return none
      else (geometryOf .polygon (.arr (rings.map ringValue))).map some) := by
  obtain ⟨line, read, few⟩ := earlier.line
  have no_point := earlier.point
  unfold Reads at read no_point
  unfold drawnGeometry
  rw [no_point]
  simp only [bind, Except.bind, read]
  rw [if_neg (by omega)]

theorem Malformed.drawnGeometry (malformed : Malformed py placemark) :
    ∃ message, drawnGeometry py placemark = .error (.kmzParseError message) := by
  cases malformed with
  | point bad =>
    obtain ⟨message, raised⟩ := bad
    refine ⟨message, ?_⟩
    unfold Kmz.drawnGeometry
    rw [raised]
    rfl
  | line point bad =>
    obtain ⟨message, raised⟩ := bad
    refine ⟨message, ?_⟩
    unfold Reads at point
    unfold Kmz.drawnGeometry
    rw [point]
    simp only [bind, Except.bind, raised]
  | ring earlier b among bad =>
    rw [drawnGeometry_rings earlier]
    rcases readRings_cases py (boundariesOf placemark) with ⟨drawn, _, pairs⟩ | ⟨⟨m, raised⟩, _⟩
    · obtain ⟨ps, _, read⟩ := Table.forall₂_left pairs among
      exact absurd read (not_reads_of_unreadable bad)
    · refine ⟨m, ?_⟩
      unfold ringsOf
      rw [raised]
      rfl

/-- All rings are read: nothing is drawn where they are all too short, and else the validator has
the last word. -/
theorem drawnGeometry_read {drawn : List (List Position)} (earlier : NoPointOrLine py placemark)
    (read : (boundariesOf placemark).mapM (fun b => positionsIn py (findNs b "LinearRing")) =
      .ok drawn) :
    drawnGeometry py placemark =
      if drawn.filter (fun ps => 3 ≤ ps.length) = [] then .ok none
      else (geometryOf .polygon (.arr (((drawn.filter (fun ps => 3 ≤ ps.length)).map
        (ringOf py.toRuntime)).map ringValue))).map some := by
  rw [drawnGeometry_rings earlier]
  unfold ringsOf
  rw [read]
  simp only [bind, Except.bind, pure, Except.pure, List.map_eq_nil_iff]

theorem short_filter_iff (drawn : List (List Position)) :
    (∀ ring ∈ (drawn.filter (fun ps => 3 ≤ ps.length)).map (ringOf py.toRuntime),
      4 ≤ ring.length) ↔ ∀ ps ∈ drawn, ¬ (ps.length = 3 ∧ closed py.toRuntime ps = true) := by
  simp only [List.forall_mem_map, List.mem_filter, decide_eq_true_eq, and_imp]
  constructor
  · intro long ps among short
    exact (length_ring (by omega)).mp (long ps among (by omega)) short
  · intro none_short ps among three
    exact (length_ring three).mpr (none_short ps among)

theorem ShortRing.drawnGeometry (short : ShortRing py placemark) :
    drawnGeometry py placemark = .error .validationError := by
  rcases readRings_cases py (boundariesOf placemark) with ⟨drawn, read, pairs⟩ | ⟨_, b, among, bad⟩
  · obtain ⟨b, among, ps, reads, three, shut⟩ := short.short
    obtain ⟨ps', listed, reads'⟩ := Table.forall₂_left pairs among
    cases Except.ok.inj (reads.symm.trans reads')
    have kept : ps ∈ drawn.filter (fun ps => 3 ≤ ps.length) := by
      rw [List.mem_filter]
      exact ⟨listed, by simp [three]⟩
    have some_ring : drawn.filter (fun ps => 3 ≤ ps.length) ≠ [] := List.ne_nil_of_mem kept
    rw [drawnGeometry_read short.earlier read, if_neg some_ring, geometryOf_rejected]
    · rfl
    · rw [build_rings_iff (by simpa using some_ring), short_filter_iff]
      exact fun none_short => none_short ps listed ⟨three, shut⟩
  · obtain ⟨ps, reads⟩ := short.readable b among
    exact absurd reads (not_reads_of_unreadable bad)

theorem Undrawn.drawnGeometry (undrawn : Undrawn py placemark) :
    drawnGeometry py placemark = .ok none := by
  rcases readRings_cases py (boundariesOf placemark) with ⟨drawn, read, pairs⟩ | ⟨_, b, among, bad⟩
  · rw [drawnGeometry_read undrawn.earlier read, if_pos]
    rw [List.filter_eq_nil_iff]
    intro ps listed
    obtain ⟨b, among, reads⟩ := Table.forall₂_right pairs listed
    obtain ⟨ps', reads', few⟩ := undrawn.rings b among
    cases Except.ok.inj (reads.symm.trans reads')
    simp
    omega
  · obtain ⟨ps, reads, _⟩ := undrawn.rings b among
    exact absurd reads (not_reads_of_unreadable bad)

theorem geometryOf_point (py : Runtime) (p : Position) :
    ∃ g, geometryOf .point (lonLat p) = .ok g := by
  have built : (Geometry.build .point (Ovl.coordinatesOf py.toRuntime .point [p])).isSome = true :=
    Ovl.build_point p []
  exact geometryOf_ok_iff.mpr built

theorem geometryOf_line {ps : List Position} (two : 2 ≤ ps.length) :
    ∃ g, geometryOf .lineString (.arr (ps.map lonLat)) = .ok g :=
  geometryOf_ok_iff.mpr ((Ovl.build_line_iff ps).mpr two)

theorem geometryOf_rings {drawn : List (List Position)}
    (some_ring : drawn.filter (fun ps => 3 ≤ ps.length) ≠ [])
    (none_short : ∀ ps ∈ drawn, ¬ (ps.length = 3 ∧ closed py.toRuntime ps = true)) :
    ∃ g, geometryOf .polygon (.arr (((drawn.filter (fun ps => 3 ≤ ps.length)).map
      (ringOf py.toRuntime)).map ringValue)) = .ok g := by
  rw [geometryOf_ok_iff, build_rings_iff (by simpa using some_ring), short_filter_iff]
  exact none_short

theorem rings_cases (earlier : NoPointOrLine py placemark) :
    Malformed py placemark ∨ ShortRing py placemark ∨ Undrawn py placemark ∨
      ∃ g, drawnGeometry py placemark = .ok (some g) := by
  rcases readRings_cases py (boundariesOf placemark) with ⟨drawn, read, pairs⟩ | ⟨_, b, among, bad⟩
  · have readable (b : Element) (among : b ∈ boundariesOf placemark) :
        ∃ ps ∈ drawn, Reads py (findNs b "LinearRing") ps := Table.forall₂_left pairs among
    by_cases short : ∃ ps ∈ drawn, ps.length = 3 ∧ closed py.toRuntime ps = true
    · obtain ⟨ps, listed, three, shut⟩ := short
      obtain ⟨b, among, reads_ring⟩ := Table.forall₂_right pairs listed
      refine .inr (.inl ⟨earlier, ?_, b, among, ps, reads_ring, three, shut⟩)
      intro b' among'
      obtain ⟨ps', _, reads'⟩ := readable b' among'
      exact ⟨ps', reads'⟩
    · by_cases nothing : drawn.filter (fun ps => 3 ≤ ps.length) = []
      · refine .inr (.inr (.inl ⟨earlier, ?_⟩))
        intro b among
        obtain ⟨ps, listed, reads_ring⟩ := readable b among
        have few := List.filter_eq_nil_iff.mp nothing ps listed
        rw [decide_eq_true_eq] at few
        exact ⟨ps, reads_ring, by omega⟩
      · obtain ⟨g, built⟩ := geometryOf_rings nothing
          (fun ps listed bad => short ⟨ps, listed, bad⟩)
        refine .inr (.inr (.inr ⟨g, ?_⟩))
        rw [drawnGeometry_read earlier read, if_neg nothing, built]
        rfl
  · exact .inl (.ring earlier b among bad)

theorem drawnGeometry_cases (py : Runtime) (placemark : Element) :
    Malformed py placemark ∨ ShortRing py placemark ∨ Undrawn py placemark ∨
      ∃ g, drawnGeometry py placemark = .ok (some g) := by
  rcases positionsIn_cases py (directFindNs placemark "Point") with ⟨point, reads⟩ | bad
  · cases point with
    | cons p ps =>
      obtain ⟨g, built⟩ := geometryOf_point py p
      refine .inr (.inr (.inr ⟨g, ?_⟩))
      unfold Reads at reads
      unfold drawnGeometry
      rw [reads]
      simp only [bind, Except.bind, built, Except.map]
    | nil =>
      rcases positionsIn_cases py (directFindNs placemark "LineString") with
        ⟨line, reads_line⟩ | bad
      · by_cases two : 2 ≤ line.length
        · obtain ⟨g, built⟩ := geometryOf_line two
          refine .inr (.inr (.inr ⟨g, ?_⟩))
          unfold Reads at reads reads_line
          unfold drawnGeometry
          rw [reads]
          simp only [bind, Except.bind, reads_line]
          rw [if_pos two, built]
          rfl
        · exact rings_cases ⟨reads, line, reads_line, by omega⟩
      · exact .inl (.line reads bad)
  · exact .inl (.point bad)

theorem Broken.placemarkGeometry (broken : Broken py placemark) :
    ∃ message, placemarkGeometry py placemark = .error (.kmzParseError message) := by
  unfold Kmz.placemarkGeometry
  rcases broken with malformed | ⟨undrawn, made, made_up, malformed⟩
  · obtain ⟨message, raised⟩ := malformed.drawnGeometry
    exact ⟨message, by rw [raised]; rfl⟩
  · obtain ⟨message, raised⟩ := malformed.drawnGeometry
    refine ⟨message, ?_⟩
    rw [undrawn.drawnGeometry]
    simp only [bind, Except.bind, made_up, raised]

theorem Degenerate.placemarkGeometry (degenerate : Degenerate py placemark) :
    placemarkGeometry py placemark = .error .validationError := by
  unfold Kmz.placemarkGeometry
  rcases degenerate with short | ⟨undrawn, made, made_up, short⟩
  · rw [short.drawnGeometry]
    rfl
  · rw [undrawn.drawnGeometry]
    simp only [bind, Except.bind, made_up, short.drawnGeometry]

theorem placemarkGeometry_cases (py : Runtime) (placemark : Element) :
    Broken py placemark ∨ Degenerate py placemark ∨
      ∃ g, placemarkGeometry py placemark = .ok g := by
  rcases drawnGeometry_cases py placemark with malformed | short | undrawn | ⟨g, drawn⟩
  · exact .inl (.inl malformed)
  · exact .inr (.inl (.inl short))
  · cases made_up : madeUp placemark with
    | none =>
      refine .inr (.inr ⟨none, ?_⟩)
      unfold placemarkGeometry
      rw [undrawn.drawnGeometry, made_up]
      rfl
    | some made =>
      have rest : placemarkGeometry py placemark = drawnGeometry py made := by
        unfold placemarkGeometry
        rw [undrawn.drawnGeometry, made_up]
        rfl
      rcases drawnGeometry_cases py made with malformed | short | undrawn' | ⟨g, drawn⟩
      · exact .inl (.inr ⟨undrawn, made, made_up, malformed⟩)
      · exact .inr (.inl (.inr ⟨undrawn, made, made_up, short⟩))
      · exact .inr (.inr ⟨_, rest.trans undrawn'.drawnGeometry⟩)
      · exact .inr (.inr ⟨_, rest.trans drawn⟩)
  · refine .inr (.inr ⟨some g, ?_⟩)
    unfold placemarkGeometry
    rw [drawn]
    rfl

theorem placemarkToCto_error {intake : Intake} {idx : Nat} {e : Exn}
    (raised : placemarkGeometry py placemark = .error e) :
    placemarkToCto py intake idx placemark = .error e := by
  unfold placemarkToCto
  simp only [bind, Except.bind, raised]

theorem placemarkToCto_ok {g : Option Geometry} (intake : Intake) (idx : Nat)
    (drawn : placemarkGeometry py placemark = .ok g) :
    ∃ cto, placemarkToCto py intake idx placemark = .ok cto := by
  cases g with
  | none =>
    unfold placemarkToCto
    simp only [bind, Except.bind, drawn]
    exact ⟨none, rfl⟩
  | some g =>
    obtain ⟨cto, made⟩ := placemarkToCto_drawn intake idx drawn
    exact ⟨some cto, made⟩

theorem not_degenerate_of_broken (broken : Broken py placemark) : ¬ Degenerate py placemark := by
  intro degenerate
  obtain ⟨message, raised⟩ := broken.placemarkGeometry
  rw [degenerate.placemarkGeometry] at raised
  cases raised

theorem tolerated_of_broken {ps : List Element} (broken : Broken py placemark) :
    Tolerated py (placemark :: ps) := by
  intro before p after split degenerate
  cases before with
  | nil =>
    cases split
    exact absurd degenerate (not_degenerate_of_broken broken)
  | cons q before =>
    cases split
    exact ⟨placemark, List.mem_cons_self, broken⟩

theorem tolerated_cons {ps : List Element} (unbroken : ¬ Broken py placemark)
    (sound : ¬ Degenerate py placemark) :
    Tolerated py (placemark :: ps) ↔ Tolerated py ps := by
  constructor
  · intro tolerated before p after split degenerate
    obtain ⟨q, among, broken⟩ := tolerated (placemark :: before) p after (by rw [split]; rfl)
      degenerate
    rcases List.mem_cons.mp among with rfl | among
    · exact absurd broken unbroken
    · exact ⟨q, among, broken⟩
  · intro tolerated before p after split degenerate
    cases before with
    | nil =>
      cases split
      exact absurd degenerate sound
    | cons q before =>
      cases split
      obtain ⟨q, among, broken⟩ := tolerated before p after rfl degenerate
      exact ⟨q, List.mem_cons_of_mem _ among, broken⟩

theorem ctosFrom_iff (intake : Intake) (idx : Nat) (ps : List Element) :
    ((∃ ctos, ctosFrom py intake idx ps = .ok ctos) ∨
      ∃ message, ctosFrom py intake idx ps = .error (.kmzParseError message)) ↔
        Tolerated py ps := by
  induction ps generalizing idx with
  | nil =>
    refine iff_of_true (.inl ⟨[], rfl⟩) ?_
    intro before p after split
    cases before <;> cases split
  | cons placemark ps ih =>
    rw [ctosFrom]
    rcases placemarkGeometry_cases py placemark with broken | degenerate | ⟨g, drawn⟩
    · obtain ⟨message, raised⟩ := broken.placemarkGeometry
      refine iff_of_true (.inr ⟨message, ?_⟩) (tolerated_of_broken broken)
      rw [placemarkToCto_error raised]
      rfl
    · rw [placemarkToCto_error degenerate.placemarkGeometry]
      refine iff_of_false ?_ ?_
      · rintro (⟨_, made⟩ | ⟨_, made⟩) <;> cases made
      · intro tolerated
        obtain ⟨q, among, _⟩ := tolerated [] placemark ps rfl degenerate
        cases among
    · obtain ⟨cto, made⟩ := placemarkToCto_ok intake idx drawn
      have unbroken : ¬ Broken py placemark := by
        intro broken
        obtain ⟨message, raised⟩ := broken.placemarkGeometry
        rw [drawn] at raised
        cases raised
      have sound : ¬ Degenerate py placemark := by
        intro degenerate
        rw [degenerate.placemarkGeometry] at drawn
        cases drawn
      rw [tolerated_cons unbroken sound, ← ih (idx + 1), made]
      cases ctosFrom py intake (idx + 1) ps with
      | ok ctos => simp [bind, Except.bind, pure, Except.pure]
      | error e => simp [bind, Except.bind]

/-- The contract is met exactly where every ring of three points that is closed already stands
behind a placemark that cannot be read. -/
theorem contract_iff_tolerated (py : Runtime) (kmzBytes kml : List UInt8) (intake : Intake)
    (root : Element) (readable : readPrimaryKml py kmzBytes = .ok kml)
    (well_formed : py.fromstring kml = .ok root) :
    Contract py kmzBytes intake ↔ Tolerated py (placemarks root) := by
  rw [← ctosFrom_iff intake 0]
  unfold Contract kmzToCtos
  rw [readable]
  simp only [bind, Except.bind, well_formed]

def shortBoundary : Element :=
  .mk "outerBoundaryIs" .empty none [.mk "LinearRing" .empty none
    [.mk "coordinates" .empty (some "0,0 1,1 0,0") []]]

def shortRing : Element :=
  .mk "Placemark" .empty none [.mk "Polygon" .empty none [shortBoundary]]

/-- One placemark, a ring of three points that ends where it starts. -/
def shortRingKml : Element := .mk "kml" .empty none [shortRing]

/-- The document, stored without compression in an archive as doc.kml. -/
def shortRingKmz : List UInt8 :=
  [0x50, 0x4B, 0x03, 0x04, 0x14, 0x00, 0x00, 0x00, 0x00, 0x00, 0x00, 0x00, 0x21, 0x00, 0x86, 0x8C,
    0x51, 0x2C, 0x97, 0x00, 0x00, 0x00, 0x97, 0x00, 0x00, 0x00, 0x07, 0x00, 0x00, 0x00, 0x64, 0x6F,
    0x63, 0x2E, 0x6B, 0x6D, 0x6C] ++ Text.encode (writeElement shortRingKml) ++
  [0x50, 0x4B, 0x01, 0x02, 0x14, 0x03, 0x14, 0x00, 0x00, 0x00, 0x00, 0x00, 0x00, 0x00, 0x21, 0x00,
    0x86, 0x8C, 0x51, 0x2C, 0x97, 0x00, 0x00, 0x00, 0x97, 0x00, 0x00, 0x00, 0x07, 0x00, 0x00, 0x00,
    0x00, 0x00, 0x00, 0x00, 0x00, 0x00, 0x00, 0x00, 0x80, 0x01, 0x00, 0x00, 0x00, 0x00, 0x64, 0x6F,
    0x63, 0x2E, 0x6B, 0x6D, 0x6C, 0x50, 0x4B, 0x05, 0x06, 0x00, 0x00, 0x00, 0x00, 0x01, 0x00, 0x01,
    0x00, 0x35, 0x00, 0x00, 0x00, 0xBC, 0x00, 0x00, 0x00, 0x00, 0x00]

def plainKmz : Runtime := knows shortRingKmz shortRingKml

theorem shortRing_degenerate : Degenerate plainKmz shortRing := by
  have boundary : boundariesOf shortRing = [shortBoundary] := rfl
  have ring : Reads plainKmz (findNs shortBoundary "LinearRing") [⟨0, 0⟩, ⟨1, 1⟩, ⟨0, 0⟩] := rfl
  refine .inl ⟨⟨rfl, [], rfl, by decide⟩, ?_, ?_⟩
  · rw [boundary, List.forall_mem_singleton]
    exact ⟨_, ring⟩
  · rw [boundary]
    exact ⟨shortBoundary, List.mem_singleton.mpr rfl, _, ring, rfl, by decide⟩

theorem contract_iff_tolerated_shortRing :
    Contract plainKmz shortRingKmz inboxIntake ↔ Tolerated plainKmz (placemarks shortRingKml) :=
  contract_iff_tolerated plainKmz shortRingKmz _ inboxIntake shortRingKml (knows_read _ _)
    (knows_parsed _ _)

/-- The ring of three points makes the whole file fail with the validation error. -/
theorem short_ring_breaks_contract :
    readPrimaryKml plainKmz shortRingKmz = .ok (Text.encode (writeElement shortRingKml)) ∧
      plainKmz.fromstring (Text.encode (writeElement shortRingKml)) = .ok shortRingKml ∧
      ¬ Contract plainKmz shortRingKmz inboxIntake := by
  refine ⟨knows_read _ _, knows_parsed _ _, ?_⟩
  have raised : kmzToCtos plainKmz shortRingKmz inboxIntake = .error .validationError := by
    rw [plainKmz, knows_kmzToCtos, ← plainKmz]
    have one : placemarks shortRingKml = [shortRing] := rfl
    rw [one, ctosFrom, placemarkToCto_error shortRing_degenerate.placemarkGeometry]
    rfl
  rintro (⟨_, made⟩ | ⟨_, made⟩)
  · rw [raised] at made
    cases made
  · rw [raised] at made
    cases made

end TacticalGateway.Kmz
