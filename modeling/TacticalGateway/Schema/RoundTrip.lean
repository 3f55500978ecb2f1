import TacticalGateway.Lib.Decimal
import TacticalGateway.Schema.Codec
import TacticalGateway.Schema.Wire

/-! The round trip of the bus: a published object is validated to what it was. -/
namespace TacticalGateway
open Json (Value lookup)
open JsonGrammar (Numbers Writable WritableItems WritableMembers)
open RecordModel

def Altitude.floats (a : Altitude) : List Rat := a.valueM :: a.accuracyM.toList

def Kinematics.floats (k : Kinematics) : List Rat :=
  k.courseDeg.toList ++ k.speedMps.toList ++ k.verticalRateMps.toList

def CTO.floats (c : CTO) : List Rat :=
  c.altitude.toList.flatMap Altitude.floats ++ c.kinematics.toList.flatMap Kinematics.floats

def CTO.datetimes (c : CTO) : List Datetime :=
  [c.receivedAt, c.eventTime] ++ c.validFrom.toList ++ c.validTo.toList ++
    c.rawPointer.toList.map RawPointer.capturedAt ++ c.provenance.map ProvenanceEntry.at_

/-- What JSON can hold: offsets of whole minutes, numbers that are no infinity and no NaN, and
values of `Any` that are JSON values. -/
structure CTO.Portable (p : Pydantic) (c : CTO) : Prop where
  datetimes : ∀ t ∈ c.datetimes, t.WholeMinutes
  floats : ∀ q ∈ c.floats, p.finite q
  coordinates : WritableItems p.numbers c.geometry.coordinates
  attributes : WritableMembers p.numbers c.attributes.items

variable {p : Pydantic}

theorem validateDatetime_dump {t : Datetime} (whole : t.WholeMinutes) :
    validateDatetime p (dumpDatetime p t) = some t := by
  rw [dumpDatetime, validateDatetime, p.datetime_text t whole]

theorem nullable_datetime {o : Option Datetime} (whole : ∀ t ∈ o.toList, t.WholeMinutes) :
    nullable (validateDatetime p) (dumpOption (dumpDatetime p) o) = some o := by
  apply nullable_dumpOption
  rintro t rfl
  exact ⟨nofun, validateDatetime_dump (whole t (by simp))⟩

theorem nullable_float {o : Option Rat} (finite : ∀ q ∈ o.toList, p.finite q) :
    nullable p.float (dumpOption .num o) = some o := by
  apply nullable_dumpOption
  rintro q rfl
  exact ⟨nofun, p.float_num q (finite q (by simp))⟩

theorem nullable_text (o : Option String) : nullable text (dumpOption .str o) = some o :=
  nullable_dumpOption fun _ _ => ⟨nofun, rfl⟩

theorem validateGeometry_dump (g : Geometry) : validateGeometry g.dump = some g := by
  have type : oneOf GeometryType.value GeometryType.all (.str g.type.value) = some g.type :=
    oneOf_value (fun e => by cases e <;> decide) (fun e e' => by cases e <;> cases e' <;> decide) _
  simp only [validateGeometry, Geometry.dump, model]
  simp [required, lookup, type, Geometry.build, g.valid]

theorem validateAltitude_dump {a : Altitude} (finite : ∀ q ∈ a.floats, p.finite q) :
    validateAltitude p a.dump = some a := by
  have source : oneOf AltitudeSource.value AltitudeSource.all (.str a.source.value) =
      some a.source :=
    oneOf_value (fun e => by cases e <;> decide) (fun e e' => by cases e <;> cases e' <;> decide) _
  have value := p.float_num _ (finite a.valueM List.mem_cons_self)
  have accuracy :=
    nullable_float (p := p) (fun q member => finite q (List.mem_cons_of_mem _ member))
  simp [validateAltitude, Altitude.dump, model, required, defaulted, lookup, source, value,
    accuracy]

theorem validateKinematics_dump {k : Kinematics} (finite : ∀ q ∈ k.floats, p.finite q) :
    validateKinematics p k.dump = some k := by
  simp only [Kinematics.floats, List.forall_mem_append] at finite
  have course := nullable_float finite.1.1
  have speed := nullable_float finite.1.2
  have vertical := nullable_float finite.2
  simp [validateKinematics, Kinematics.dump, model, defaulted, lookup, course, speed, vertical]

theorem validateSymbology_dump (s : Symbology) : validateSymbology s.dump = some s := by
  have affiliation : nullable (oneOf Affiliation.value Affiliation.all)
      (dumpOption (fun a => .str a.value) s.affiliation) = some s.affiliation :=
    nullable_dumpOption fun a _ => ⟨nofun, oneOf_value (fun e => by cases e <;> decide)
      (fun e e' => by cases e <;> cases e' <;> decide) a⟩
  have dimension : nullable (oneOf BattleDimension.value BattleDimension.all)
      (dumpOption (fun d => .str d.value) s.battleDimension) = some s.battleDimension :=
    nullable_dumpOption fun d _ => ⟨nofun, oneOf_value (fun e => by cases e <;> decide)
      (fun e e' => by cases e <;> cases e' <;> decide) d⟩
  simp [validateSymbology, Symbology.dump, model, defaulted, lookup, nullable_text, affiliation,
    dimension]

theorem validateRawPointer_dump {r : RawPointer} (whole : r.capturedAt.WholeMinutes) :
    validateRawPointer p (r.dump p) = some r := by
  have capturedAt := validateDatetime_dump (p := p) whole
  have size := p.int_num r.sizeBytes
  simp [validateRawPointer, RawPointer.dump, model, required, lookup, text, capturedAt, size,
    r.sha256Length]

theorem validateProvenanceEntry_dump {e : ProvenanceEntry} (whole : e.at_.WholeMinutes) :
    validateProvenanceEntry p (e.dump p) = some e := by
  have time := validateDatetime_dump (p := p) whole
  have lossy : listOf text (.arr (e.lossyFields.map .str)) = some e.lossyFields :=
    listOf_map fun _ _ => rfl
  simp [validateProvenanceEntry, ProvenanceEntry.dump, model, required, defaulted, lookup,
    time, lossy, nullable_text]
  rfl

theorem validateAttributes_items (d : Attributes) : validateAttributes (.obj d.items) = some d := by
  rw [validateAttributes, Option.some.injEq]
  apply Dict.ext_items
  rw [JsonGrammar.foldl_set_items _ _ d.distinct (fun _ _ => List.not_mem_nil)]
  rfl

theorem CTO.Portable.whole {c : CTO} (portable : c.Portable p) :
    c.receivedAt.WholeMinutes ∧ c.eventTime.WholeMinutes ∧
      (∀ t ∈ c.validFrom.toList, t.WholeMinutes) ∧ (∀ t ∈ c.validTo.toList, t.WholeMinutes) ∧
      (∀ r ∈ c.rawPointer.toList, r.capturedAt.WholeMinutes) ∧
      ∀ e ∈ c.provenance, e.at_.WholeMinutes := by
  have times := portable.datetimes
  simp only [CTO.datetimes, List.forall_mem_append, List.forall_mem_cons, List.forall_mem_map]
    at times
  obtain ⟨⟨⟨⟨⟨received, event, -⟩, from_⟩, to_⟩, captured⟩, steps⟩ := times
  exact ⟨received, event, from_, to_, captured, steps⟩

theorem ctoFields_distinct : ctoFields.Nodup := by simp [ctoFields]

theorem members_names (c : CTO) : (c.members p).map Prod.fst = ctoFields := rfl

theorem members_known (c : CTO) : ∀ m ∈ c.members p, m.1 ∈ ctoFields := by
  intro m member
  rw [← members_names (p := p) c]
  exact List.mem_map_of_mem member

/-- What is dumped is validated to the object it was dumped from. -/
theorem modelValidate_dump {c : CTO} (portable : c.Portable p) :
    modelValidate p (c.dump p) = some c := by
  obtain ⟨received, event, from_, to_, captured, steps⟩ := portable.whole
  have floats := portable.floats
  simp only [CTO.floats, List.forall_mem_append, List.mem_flatMap, forall_exists_index, and_imp]
    at floats
  have protocol : oneOf SourceProtocol.value SourceProtocol.all (.str c.sourceProtocol.value) =
      some c.sourceProtocol :=
    oneOf_value (fun e => by cases e <;> decide) (fun e e' => by cases e <;> cases e' <;> decide) _
  have ingest : oneOf IngestSource.value IngestSource.all (.str c.ingestSource.value) =
      some c.ingestSource :=
    oneOf_value (fun e => by cases e <;> decide) (fun e e' => by cases e <;> cases e' <;> decide) _
  have classification : oneOf Classification.value Classification.all
      (.str c.classification.value) = some c.classification :=
    oneOf_value (fun e => by cases e <;> decide) (fun e e' => by cases e <;> cases e' <;> decide) _
  have class_ : oneOf ObjectClass.value ObjectClass.all (.str c.objectClass.value) =
      some c.objectClass :=
    oneOf_value (fun e => by cases e <;> decide) (fun e e' => by cases e <;> cases e' <;> decide) _
  have altitude : nullable (validateAltitude p) (dumpOption Altitude.dump c.altitude) =
      some c.altitude := by
    apply nullable_dumpOption
    rintro a same
    exact ⟨nofun, validateAltitude_dump fun q member => floats.1 q a (by simp [same]) member⟩
  have kinematics : nullable (validateKinematics p) (dumpOption Kinematics.dump c.kinematics) =
      some c.kinematics := by
    apply nullable_dumpOption
    rintro k same
    exact ⟨nofun, validateKinematics_dump fun q member => floats.2 q k (by simp [same]) member⟩
  have pointer : nullable (validateRawPointer p) (dumpOption (RawPointer.dump p) c.rawPointer) =
      some c.rawPointer := by
    apply nullable_dumpOption
    rintro r same
    exact ⟨nofun, validateRawPointer_dump (captured r (by simp [same]))⟩
  have provenance : listOf (validateProvenanceEntry p)
      (.arr (c.provenance.map (ProvenanceEntry.dump p))) = some c.provenance :=
    listOf_map fun e member => validateProvenanceEntry_dump (steps e member)
  have at_ (i : Nat) {name : String} {v : Value} (here : (c.members p)[i]? = some (name, v)) :
      lookup name (c.members p) = some v := lookup_at (members_names c ▸ ctoFields_distinct) i here
  refine bind_some (model_eq (members_known c)) ?_
  refine bind_some (required_some (at_ 0 rfl) (p.uuid_text c.uid)) ?_
  refine bind_some (defaulted_some (at_ 1 rfl) (nullable_text _)) ?_
  refine bind_some (required_some (at_ 2 rfl) rfl) ?_
  refine bind_some (required_some (at_ 3 rfl) protocol) ?_
  refine bind_some (defaulted_some (at_ 4 rfl) ingest) ?_
  refine bind_some (required_some (at_ 5 rfl) (validateDatetime_dump received)) ?_
  refine bind_some (required_some (at_ 6 rfl) (validateDatetime_dump event)) ?_
  refine bind_some (defaulted_some (at_ 7 rfl) (nullable_datetime from_)) ?_
  refine bind_some (defaulted_some (at_ 8 rfl) (nullable_datetime to_)) ?_
  refine bind_some (defaulted_some (at_ 9 rfl) classification) ?_
  refine bind_some (defaulted_some (at_ 10 rfl) class_) ?_
  refine bind_some (defaulted_some (at_ 11 rfl) (validateSymbology_dump _)) ?_
  refine bind_some (required_some (at_ 12 rfl) (validateGeometry_dump _)) ?_
  refine bind_some (defaulted_some (at_ 13 rfl) altitude) ?_
  refine bind_some (defaulted_some (at_ 14 rfl) kinematics) ?_
  refine bind_some (defaulted_some (at_ 15 rfl) (nullable_text _)) ?_
  refine bind_some (defaulted_some (at_ 16 rfl) (nullable_text _)) ?_
  refine bind_some (defaulted_some (at_ 17 rfl) (nullable_text _)) ?_
  refine bind_some (defaulted_some (at_ 18 rfl) (validateAttributes_items _)) ?_
  refine bind_some (defaulted_some (at_ 19 rfl) pointer) ?_
  exact bind_some (defaulted_some (at_ 20 rfl) provenance) rfl

theorem writable_float {o : Option Rat} (finite : ∀ q ∈ o.toList, p.finite q) :
    Writable p.numbers (dumpOption .num o) :=
  writable_dumpOption fun q same => p.finite_exact q (finite q (by simp [same]))

theorem writable_text (o : Option String) : Writable p.numbers (dumpOption .str o) :=
  writable_dumpOption fun _ _ => trivial

theorem Altitude.writable {a : Altitude} (finite : ∀ q ∈ a.floats, p.finite q) :
    Writable p.numbers a.dump := by
  have value := p.finite_exact _ (finite a.valueM List.mem_cons_self)
  have accuracy := writable_float (p := p) fun q member => finite q (List.mem_cons_of_mem _ member)
  simp [Altitude.dump, Writable, WritableMembers, value, accuracy]

theorem Kinematics.writable {k : Kinematics} (finite : ∀ q ∈ k.floats, p.finite q) :
    Writable p.numbers k.dump := by
  simp only [Kinematics.floats, List.forall_mem_append] at finite
  simp [Kinematics.dump, Writable, WritableMembers, writable_float finite.1.1,
    writable_float finite.1.2, writable_float finite.2]

theorem Symbology.writable (s : Symbology) : Writable p.numbers s.dump := by
  have affiliation : Writable p.numbers (dumpOption (fun a => .str a.value) s.affiliation) :=
    writable_dumpOption fun _ _ => trivial
  have dimension : Writable p.numbers (dumpOption (fun d => .str d.value) s.battleDimension) :=
    writable_dumpOption fun _ _ => trivial
  simp [Symbology.dump, Writable, WritableMembers, writable_text, affiliation, dimension]

theorem ProvenanceEntry.writable (e : ProvenanceEntry) : Writable p.numbers (e.dump p) := by
  have lossy : Writable p.numbers (.arr (e.lossyFields.map .str)) :=
    writable_map fun _ _ => trivial
  simp [ProvenanceEntry.dump, dumpDatetime, Writable, WritableMembers, writable_text]
  exact lossy

theorem writable_dump {c : CTO} (portable : c.Portable p) : Writable p.numbers (c.dump p) := by
  have floats := portable.floats
  simp only [CTO.floats, List.forall_mem_append, List.mem_flatMap, forall_exists_index, and_imp]
    at floats
  have datetime (o : Option Datetime) : Writable p.numbers (dumpOption (dumpDatetime p) o) :=
    writable_dumpOption fun _ _ => trivial
  have altitude : Writable p.numbers (dumpOption Altitude.dump c.altitude) :=
    writable_dumpOption fun a same =>
      Altitude.writable fun q member => floats.1 q a (by simp [same]) member
  have kinematics : Writable p.numbers (dumpOption Kinematics.dump c.kinematics) :=
    writable_dumpOption fun k same =>
      Kinematics.writable fun q member => floats.2 q k (by simp [same]) member
  have pointer : Writable p.numbers (dumpOption (RawPointer.dump p) c.rawPointer) :=
    writable_dumpOption fun r _ => by
      simp [RawPointer.dump, dumpDatetime, Writable, WritableMembers, p.nat_exact]
  have provenance : Writable p.numbers (.arr (c.provenance.map (ProvenanceEntry.dump p))) :=
    writable_map fun e _ => e.writable
  have geometry : Writable p.numbers c.geometry.dump := by
    simp [Geometry.dump, Writable, WritableMembers, portable.coordinates]
  refine ⟨members_names (p := p) c ▸ ctoFields_distinct, ?_⟩
  simp only [CTO.members, WritableMembers, Writable, writable_text, datetime, dumpDatetime,
    altitude, kinematics, pointer, geometry, Symbology.writable, c.attributes.distinct,
    portable.attributes, true_and, and_true]
  exact provenance

/-! Pydantic with whole numbers and numbers of one decimal. -/

def intText (k : Int) : List Char :=
  (if k < 0 then ['-'] else []) ++ (Text.decimal k.natAbs).toList

def numberText (q : Rat) : List Char :=
  if q.den = 1 then intText q.num else (Decimal.fixed 1 q).toList

theorem digit_char {c : Char} (digit : c.isDigit = true) : c ∈ JsonGrammar.numberChars := by
  have range : 48 ≤ c.toNat ∧ c.toNat ≤ 57 := by
    simpa [Char.isDigit, UInt32.le_iff_toNat_le] using digit
  have listed : ∀ k, 48 ≤ k → k ≤ 57 → Char.ofNat k ∈ JsonGrammar.numberChars := by
    intro k low high
    interval_cases k <;> decide
  rw [← Char.ofNat_toNat c]
  exact listed _ range.1 range.2

theorem readUnsigned_decimal (k : Nat) :
    Decimal.readUnsigned (Text.decimal k).toList = some (k : Rat) := by
  have digits : ∀ c ∈ (Text.decimal k).toList, c.isDigit = true :=
    fun c member => Text.decimal_isDigit member
  have some_digit : (Text.decimal k).toList ≠ [] := by
    rw [Text.decimal, String.toList_ofList]
    exact Nat.toDigits_ne_nil
  have front : (Text.decimal k).toList.takeWhile Char.isDigit = (Text.decimal k).toList :=
    List.takeWhile_eq_self_iff.mpr digits
  have back : (Text.decimal k).toList.dropWhile Char.isDigit = [] :=
    List.dropWhile_eq_nil_iff.mpr digits
  simp only [Decimal.readUnsigned, front, back, some_digit, if_false, Text.decimal_value]

theorem readDecimal_intText (k : Int) :
    Decimal.readDecimal (String.ofList (intText k)) = some (k : Rat) := by
  have size := readUnsigned_decimal k.natAbs
  rw [Decimal.readDecimal, String.toList_ofList, intText]
  by_cases negative : k < 0
  · have value : -((k.natAbs : Nat) : Rat) = (k : Rat) := by
      have whole : -((k.natAbs : Nat) : Int) = k := by omega
      rw [← Int.cast_natCast, ← Int.cast_neg, whole]
    simp only [if_pos negative, List.singleton_append, Decimal.readSign, size, Option.map_some,
      if_true, value]
  · have value : ((k.natAbs : Nat) : Rat) = (k : Rat) := by
      have whole : ((k.natAbs : Nat) : Int) = k := by omega
      rw [← Int.cast_natCast, whole]
    simp only [if_neg negative, List.nil_append]
    cases chars : (Text.decimal k.natAbs).toList with
    | nil =>
      rw [Text.decimal, String.toList_ofList] at chars
      exact absurd chars Nat.toDigits_ne_nil
    | cons c cs =>
      have digit : c.isDigit = true := Text.decimal_isDigit (chars ▸ List.mem_cons_self)
      rw [chars] at size
      simp only [Decimal.readSign_digit cs digit, size, Option.map_some, Bool.false_eq_true,
        if_false, value]

theorem numberText_chars (q : Rat) :
    numberText q ≠ [] ∧ ∀ c ∈ numberText q, c ∈ JsonGrammar.numberChars := by
  have digits (k : Nat) : (Text.decimal k).toList ≠ [] ∧
      ∀ c ∈ (Text.decimal k).toList, c ∈ JsonGrammar.numberChars := by
    refine ⟨?_, fun c member => digit_char (Text.decimal_isDigit member)⟩
    rw [Text.decimal, String.toList_ofList]
    exact Nat.toDigits_ne_nil
  have padded (k : Nat) : ∀ c ∈ (Text.zeroPad 1 k).toList, c ∈ JsonGrammar.numberChars :=
    fun c member => digit_char (Text.zeroPad_isDigit member)
  have minus : '-' ∈ JsonGrammar.numberChars := by simp [JsonGrammar.numberChars]
  have point : '.' ∈ JsonGrammar.numberChars := by simp [JsonGrammar.numberChars]
  unfold numberText
  split
  · refine ⟨List.append_ne_nil_of_right_ne_nil _ (digits _).1, ?_⟩
    rw [intText, List.forall_mem_append]
    refine ⟨?_, (digits _).2⟩
    split <;> simp [minus]
  · refine ⟨?_, ?_⟩
    · simp [Decimal.fixed, String.toList_append]
    · simp only [Decimal.fixed, String.toList_append, List.forall_mem_append]
      refine ⟨⟨⟨?_, (digits _).2⟩, by simpa using point⟩, padded _⟩
      split <;> simp [minus]

def plainNumbers : Numbers where
  write := numberText
  read := fun token => Decimal.readDecimal (String.ofList token)
  exact := fun q => q.den = 1 ∨ Decimal.rounded 1 q = q
  read_write := by
    intro q exact_q
    unfold numberText
    split
    · rename_i whole
      rw [readDecimal_intText, Rat.coe_int_num_of_den_eq_one whole]
    · rename_i fraction
      rw [String.ofList_toList, Decimal.readDecimal_fixed (by decide),
        exact_q.resolve_left fraction]
  write_chars := fun q _ => numberText_chars q

/-- UTC is written as `Z`. -/
def isoText (t : Datetime) : String :=
  if t.offset = 0 then
    String.ofList (t.isoformat.toList.take (t.isoformat.toList.length - 6) ++ ['Z'])
  else t.isoformat

def readIso (s : String) : Option Timestamp :=
  (if s.toList.getLast? = some 'Z' then
    Reader.fromisoformat (String.ofList (s.toList.dropLast ++ "+00:00".toList))
  else Reader.fromisoformat s).map .aware

theorem readIso_isoText (t : Datetime) : readIso (isoText t) = some (.aware t) := by
  unfold isoText
  split
  · rename_i utc
    have zone : (offsetText t.offset).toList = "+00:00".toList := by rw [utc]; decide
    have front : t.isoformat.toList =
        t.isoformat.toList.take (t.isoformat.toList.length - 6) ++ "+00:00".toList := by
      obtain ⟨wall, same⟩ : ∃ wall : String, t.isoformat = wall ++ offsetText t.offset := ⟨_, rfl⟩
      rw [same, String.toList_append, zone]
      simp
    rw [readIso, String.toList_ofList, List.getLast?_concat, if_pos rfl, List.dropLast_concat,
      ← front, String.ofList_toList, Reader.fromisoformat_isoformat]
    rfl
  · have plain : t.isoformat.toList.getLast? ≠ some 'Z' := by
      intro last
      have letter := isoChar_isoformat t 'Z' (List.mem_of_getLast? last)
      exact absurd letter (by decide)
    rw [readIso, if_neg plain, Reader.fromisoformat_isoformat]
    rfl

def readNum : Value → Option Rat
  | .num q => some q
  | _ => none

def readStr {A : Type} (read : String → Option A) : Value → Option A
  | .str s => read s
  | _ => none

/-- A pydantic that reads just what it writes: the laws of `Pydantic` have a model. -/
def plainPydantic : Pydantic where
  numbers := plainNumbers
  finite := plainNumbers.exact
  float := readNum
  int := fun v => (readNum v).bind (fun q => if q.den = 1 then some q.num else none)
  uuid := readStr readUuid
  datetime := readStr readIso
  datetimeText := isoText
  finite_exact := fun _ exact_q => exact_q
  nat_exact := fun k => .inl (Rat.den_natCast k)
  float_num := fun _ _ => rfl
  int_num := fun k => by simp [readNum]
  uuid_text := fun u => by rw [readStr, readUuid_uuidText]
  datetime_text := fun t _ => by rw [readStr, readIso_isoText]

theorem readMessage_modelDumpJson {c : CTO} (portable : c.Portable p) :
    readMessage p (modelDumpJson p c) = some c := by
  rw [readMessage, modelDumpJson, Text.decode_encode, Option.bind_some,
    JsonGrammar.loads_dumps (writable_dump portable), Option.bind_some, modelValidate_dump portable]

/-- Whatever the gateway publishes is read by the service as the object that was published, and
no two objects are published as the same bytes. -/
theorem message_round_trip {c d : CTO} (portable : c.Portable p) (other : d.Portable p) :
    readMessage p (modelDumpJson p c) = some c ∧
      (modelDumpJson p c = modelDumpJson p d ↔ c = d) := by
  have read := readMessage_modelDumpJson portable
  refine ⟨read, ?_, congrArg _⟩
  intro same
  rw [same, readMessage_modelDumpJson other] at read
  exact (Option.some.inj read).symm

theorem zeros_length : (String.ofList (List.replicate 64 '0')).toList.length = 64 := rfl

def patrol : CTO where
  uid := 7
  sourceUid := some "UNIT-7"
  sourceSystem := "cot-xml-tcp:192.0.2.1:4242"
  sourceProtocol := .cotXml
  receivedAt := newYear
  eventTime := newYear
  validTo := some newYear
  symbology := { cotType := some "a-f-G", affiliation := some .friend }
  geometry := ⟨.point, [.num (-155 / 2), .num 38], rfl⟩
  altitude := some { valueM := 25 / 2 }
  callsign := some "RAVEN \"7\""
  attributes := ⟨[("cot_detail", .obj [("zone", .arr [.null, .bool true, .num 3])])],
    List.nodup_singleton "cot_detail"⟩
  rawPointer := some ⟨String.ofList (List.replicate 64 '0'), "raw/2024/01/01", 17, newYear,
    zeros_length⟩
  provenance := [{ step := "normalize", actor := "gateway", at_ := newYear }]

theorem patrol_portable (uid : UUID) : { patrol with uid := uid }.Portable plainPydantic := by
  have half : plainNumbers.exact (25 / 2) := .inr (by decide +kernel)
  have west : plainNumbers.exact (-155 / 2) := .inr (by decide +kernel)
  have whole (k : Nat) : plainNumbers.exact k := .inl (Rat.den_natCast k)
  constructor
  · simp [patrol, CTO.datetimes, Datetime.WholeMinutes, newYear]
  · intro q member
    simp only [patrol, CTO.floats, Altitude.floats, Option.toList_some, Option.toList_none,
      List.flatMap_cons, List.flatMap_nil, List.append_nil, List.mem_singleton] at member
    exact member ▸ half
  · exact ⟨west, whole 38, trivial⟩
  · simp only [patrol, WritableMembers, Writable, WritableItems]
    exact ⟨⟨by simp, ⟨trivial, trivial, whole 3, trivial⟩, trivial⟩, trivial⟩

theorem message_round_trip_patrol :
    readMessage plainPydantic (modelDumpJson plainPydantic { patrol with uid := 7 }) =
        some { patrol with uid := 7 } ∧
      (modelDumpJson plainPydantic { patrol with uid := 7 } =
        modelDumpJson plainPydantic { patrol with uid := 8 } ↔
        { patrol with uid := 7 } = { patrol with uid := 8 }) :=
  message_round_trip (patrol_portable 7) (patrol_portable 8)

end TacticalGateway
