import TacticalGateway.Opstore.Audit
import TacticalGateway.Opstore.Supersession
import TacticalGateway.Ovl.Contract

/-! Overlays in the opstore: the objects of an overlay carry no name that the supersession of a
batch looks for, so a file that is ingested again does not replace its earlier version. -/
namespace TacticalGateway.Ovl
open Opstore
open ElementTree (Element)
open Normalizers (Etree writeElement)

/-- An overlay that is ingested, and what the parser makes of it. -/
structure Upload (py : Runtime) (et : Etree) where
  data : List UInt8
  intake : Intake
  model : OvlModel
  ctos : List CTO
  read : parseOvlBytes py et data = .ok model
  made : ovlToCtos py et data intake = .ok ctos

def Current (db : Database) (cto : CTO) : Prop :=
  ∃ r ∈ db.cto.rows, r.uid = cto.uid ∧ r.validTo = none

def Replaced (db : Database) (earlier later : List CTO) : Prop :=
  (∀ c ∈ earlier, ¬ Current db c) ∧ ∀ c ∈ later, Current db c

/-- Two overlays of one name come in through one channel, and the objects of each, with new
identifiers, are written in a batch of their own. -/
structure Rewritten {py : Runtime} {et : Etree} (pg : Postgres) (earlier later : Upload py et)
    (between : List Batch) (db db₁ db₂ : Database) : Prop where
  name : later.intake.filename = earlier.intake.filename
  channel : later.intake.ingestSource = earlier.intake.ingestSource
  label : later.intake.sourceSystem = earlier.intake.sourceSystem
  fresh : ∀ c ∈ earlier.ctos, c.uid ∉ db.cto.keys
  first : commit pg db earlier.ctos = some db₁
  fresh_later : ∀ c ∈ later.ctos, c.uid ∉ (writeBatches pg db₁ between).cto.keys
  second : commit pg (writeBatches pg db₁ between) later.ctos = some db₂

/-- What the opstore sees of an object of an overlay. -/
structure Unnamed (cto : CTO) : Prop where
  no_file : attr cto "parent_kmz_filename" = .null
  open_ended : cto.validTo = none

variable {py : Runtime} {et : Etree} {pg : Postgres} {db after : Database}

theorem attributesOf_get? {name : String} (other : name ∉ attributeNames) (obj : MilbObject)
    (uri : String) : (attributesOf py obj uri).get? name = none := by
  rw [Dict.get?_eq_none_iff]
  intro listed
  exact other ((attribute_names py obj uri).subset listed)

theorem ctoOf_unnamed {model : OvlModel} {intake : Intake} {idx : Nat} {obj : MilbObject}
    {cto : CTO} (made : ctoOf py model intake idx obj = .ok cto) : Unnamed cto := by
  unfold ctoOf at made
  simp only at made
  split at made
  · cases made
  · cases made
    constructor
    · unfold attr
      rw [Dict.get?_set_ne _ _ (by decide), Dict.get?_set_ne _ _ (by decide),
        Dict.get?_set_ne _ _ (by decide)]
      change ((attributesOf py obj _).get? _).getD _ = _
      rw [attributesOf_get? (by decide)]
      rfl
    · rfl

theorem ctosFrom_unnamed {model : OvlModel} {intake : Intake} {idx : Nat} {objs : List MilbObject}
    {ctos : List CTO} (made : ctosFrom py model intake idx objs = .ok ctos) :
    ∀ c ∈ ctos, Unnamed c := by
  intro c member
  obtain ⟨i, obj, one⟩ := mem_ctosFrom made member
  exact ctoOf_unnamed one

theorem Upload.unnamed (upload : Upload py et) : ∀ c ∈ upload.ctos, Unnamed c := by
  have made := upload.made
  simp only [ovlToCtos, upload.read] at made
  exact ctosFrom_unnamed made

theorem Upload.length_ctos (upload : Upload py et) :
    upload.ctos.length = upload.model.objects.length := by
  have spec := ovlToCtos_spec upload.read upload.intake
  split at spec
  · obtain ⟨ctos, made, length⟩ := spec
    cases upload.made.symm.trans made
    exact length
  · cases upload.made.symm.trans spec

theorem commit_current {ctos : List CTO} {c : CTO} (unnamed : ∀ c ∈ ctos, Unnamed c)
    (wrote : commit pg db ctos = some after) (member : c ∈ ctos) (fresh : c.uid ∉ db.cto.keys) :
    ∃ r ∈ after.cto.rows, r.uid = c.uid ∧ r.validTo = none ∧ r.parentKmzFilename = none := by
  cases ctos with
  | nil => cases member
  | cons sample ctos =>
    obtain ⟨⟨_, n, m⟩, done, rfl⟩ := Option.map_eq_some_iff.mp wrote
    obtain ⟨rows, built, table⟩ := write_cto done
    have pairs := Table.mapM_eq_some.mp built
    obtain ⟨row, listed, same⟩ := Table.forall₂_left pairs member
    have known : row.uid ∈ ((retired db.cto sample).insertAll rows).keys :=
      Table.mem_keys_insertAll _ rows listed
    rw [(row_of same).1, Table.keys, Table.rows_insertAll, List.map_append] at known
    rcases List.mem_append.mp known with old | new
    · rw [rows_retired] at old
      obtain ⟨_, closed, uid⟩ := List.mem_map.mp old
      obtain ⟨r, there, rfl⟩ := List.mem_map.mp closed
      rw [(retireFor_identity sample r).1] at uid
      exact absurd (uid ▸ List.mem_map_of_mem there) fresh
    · obtain ⟨r, among, uid⟩ := List.mem_map.mp new
      obtain ⟨c', member', same'⟩ := Table.forall₂_right pairs (Table.newcomers_subset _ _ among)
      obtain ⟨_, ends, _, filename, _⟩ := row_of same'
      refine ⟨r, ?_, uid, ends.trans (unnamed c' member').open_ended, ?_⟩
      · rw [table, Table.rows_insertAll]
        exact List.mem_append_right _ among
      · rw [(unnamed c' member').no_file, pg.text_null] at filename
        exact (Option.some.inj filename).symm

theorem unnamed_stays {r : Row} {batches : List Batch} (stored : r ∈ db.cto.rows)
    (no_file : r.parentKmzFilename = none) : Stays pg db r batches := by
  rcases row_life pg batches stored with stays | ⟨before, b, later, sample, rfl, retires, _⟩
  · exact stays
  · obtain ⟨name, _, own⟩ := retires.filename
    rw [no_file] at own
    cases own

section Rewritten

variable {earlier later : Upload py et} {between : List Batch} {db₁ db₂ : Database}

theorem Rewritten.earlier_current (rewritten : Rewritten pg earlier later between db db₁ db₂)
    {c : CTO} (member : c ∈ earlier.ctos) : Current db₂ c := by
  obtain ⟨r, stored, uid, current, no_file⟩ :=
    commit_current earlier.unnamed rewritten.first member (rewritten.fresh c member)
  have stays : Stays pg db₁ r (between ++ [⟨later.ctos, true⟩]) := unnamed_stays stored no_file
  have there := stays _ (List.prefix_refl _)
  rw [writeBatches_concat, writeBatch, rewritten.second] at there
  exact ⟨r, there, uid, current⟩

theorem Rewritten.later_current (rewritten : Rewritten pg earlier later between db db₁ db₂)
    {c : CTO} (member : c ∈ later.ctos) : Current db₂ c := by
  obtain ⟨r, stored, uid, current, _⟩ :=
    commit_current later.unnamed rewritten.second member (rewritten.fresh_later c member)
  exact ⟨r, stored, uid, current⟩

/-- The later overlay replaces the earlier one only where there is nothing to replace. -/
theorem replaced_iff (rewritten : Rewritten pg earlier later between db db₁ db₂) :
    Replaced db₂ earlier.ctos later.ctos ↔ earlier.model.objects = [] := by
  rw [← List.length_eq_zero_iff, ← earlier.length_ctos, List.length_eq_zero_iff]
  constructor
  · intro replaced
    rw [List.eq_nil_iff_forall_not_mem]
    intro c member
    exact replaced.1 c member (rewritten.earlier_current member)
  · intro nothing
    constructor
    · intro c member
      rw [nothing] at member
      cases member
    · exact fun c member => rewritten.later_current member

end Rewritten

def spot : Element :=
  .mk "MODEL" .empty none [.mk "milbobject" .empty none
    [.mk "MIL_ID" .empty (some "GFGPGPRI-------") [], .mk "POSITION" .empty (some "48 11") []]]

def spotObject : MilbObject := { milId := "GFGPGPRI-------", positions := [⟨48, 11⟩] }

def spotIntake (draw : Nat) : Intake := { inboxIntake with draw := draw }

def spotCto (draw : Nat) : CTO :=
  { uid := plainRuntime.uuid7 draw 0
    sourceSystem := "folder:/inbox"
    sourceProtocol := .ovl
    ingestSource := .folder
    receivedAt := newYear
    eventTime := newYear
    objectClass := .graphic
    geometry := ⟨.point, [.num 11, .num 48], by simp [validateCoordinates, isNumber]⟩
    symbology := { sidc2525c := some "GFGPGPRI-------", affiliation := some .friend }
    attributes := (((attributesOf plainRuntime spotObject
      Gateway.onePointPointer.objectKey).set "overlay_name" (.str "")).set
        "source_filename" (.str "night.ovl")).set "ovl_object_index" (.num 0)
    rawPointer := some Gateway.onePointPointer
    provenance := [{ step := "ovl_to_cto", actor := "gateway.ovl_parser", at_ := newYear }] }

theorem spot_read : parseOvlBytes plainRuntime (knows spot) (Text.encode (writeElement spot)) =
    .ok { objects := [spotObject] } := by
  rw [parseOvlBytes, knows]
  simp only [↓reduceIte]
  rfl

theorem spot_made (draw : Nat) :
    ovlToCtos plainRuntime (knows spot) (Text.encode (writeElement spot)) (spotIntake draw) =
      .ok [spotCto draw] := by
  rw [ovlToCtos, spot_read]
  rfl

def spotUpload (draw : Nat) : Upload plainRuntime (knows spot) where
  data := Text.encode (writeElement spot)
  intake := spotIntake draw
  model := { objects := [spotObject] }
  ctos := [spotCto draw]
  read := spot_read
  made := spot_made draw

theorem spot_fresh : plainRuntime.uuid7 2 0 ∉ [plainRuntime.uuid7 1 0] := by decide

theorem spot_rewritten : ∃ db₁ db₂,
    Rewritten plainPostgres (spotUpload 1) (spotUpload 2) [] ⟨.empty, []⟩ db₁ db₂ := by
  refine ⟨_, _, rfl, rfl, rfl, fun c _ => List.not_mem_nil, rfl, ?_, rfl⟩
  intro c member
  rw [List.mem_singleton.mp member]
  exact spot_fresh

theorem replaced_iff_spot : ∃ db₁ db₂,
    Rewritten plainPostgres (spotUpload 1) (spotUpload 2) [] ⟨.empty, []⟩ db₁ db₂ ∧
      (Replaced db₂ [spotCto 1] [spotCto 2] ↔ [spotObject] = []) := by
  obtain ⟨db₁, db₂, rewritten⟩ := spot_rewritten
  exact ⟨db₁, db₂, rewritten, replaced_iff rewritten⟩

/-- The same overlay twice: its first graphic stays current beside the second one. -/
theorem spot_not_replaced : ∃ db₁ db₂,
    Rewritten plainPostgres (spotUpload 1) (spotUpload 2) [] ⟨.empty, []⟩ db₁ db₂ ∧
      ¬ Replaced db₂ [spotCto 1] [spotCto 2] := by
  obtain ⟨db₁, db₂, rewritten⟩ := spot_rewritten
  refine ⟨db₁, db₂, rewritten, ?_⟩
  intro replaced
  exact replaced.1 (spotCto 1) (List.mem_singleton.mpr rfl)
    (rewritten.earlier_current (List.mem_singleton.mpr rfl))

end TacticalGateway.Ovl
