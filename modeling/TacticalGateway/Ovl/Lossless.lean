import TacticalGateway.Ovl.Parser

/-! What the dictionary of an overlay object keeps of the object: everything, but for whether an
area was drawn with its first position repeated at the end. -/
namespace TacticalGateway.Ovl
open Json (Value Same lookup)

/-- Everything but the positions is equal; dictionaries are, when they answer alike. -/
structure SameStyle (o o' : MilbObject) : Prop where
  milId : o.milId = o'.milId
  name : o.name = o'.name
  visibility : o.visibility = o'.visibility
  modifiers : ∀ key, o.modifiers.get? key = o'.modifiers.get? key
  labelPosition : o.labelPosition = o'.labelPosition
  lineColor : o.lineColor = o'.lineColor
  fillColor : o.fillColor = o'.fillColor
  size : o.size = o'.size

structure MilbObject.Equal (o o' : MilbObject) : Prop extends SameStyle o o' where
  positions : o.positions = o'.positions

structure CtoDict.Equal (d d' : CtoDict) : Prop where
  name : d.name = d'.name
  type : d.type = d'.type
  coordinates : Same d.coordinates d'.coordinates
  attributes : Same (.obj d.attributes.items) (.obj d'.attributes.items)

/-- The second object is the first one, an open area of three positions or more, with the first
position repeated at the end. -/
structure Closes (py : Runtime) (o o' : MilbObject) : Prop where
  style : SameStyle o o'
  area : classifyGeometry o.milId = some .area
  several : 3 ≤ o.positions.length
  opened : closed py o.positions = false
  repeats : ∃ first, o.positions.head? = some first ∧ samePoint py first first = true ∧
    o'.positions = o.positions ++ [first]

variable {py : Runtime}

theorem same_str_iff (a b : String) : Same (.str a) (.str b) ↔ a = b := by
  simp [Same]

theorem same_bool_iff (a b : Bool) : Same (.bool a) (.bool b) ↔ a = b := by
  simp [Same]

theorem same_lonLat_iff (p q : Position) : Same (lonLat p) (lonLat q) ↔ p = q := by
  obtain ⟨lat, lon⟩ := p
  obtain ⟨lat', lon'⟩ := q
  simp only [lonLat, Same, Json.SameItems, and_true, Position.mk.injEq]
  exact And.comm

theorem same_modifier_iff (m m' : Modifier) :
    Same (modifierValue m) (modifierValue m') ↔ m = m' := by
  obtain ⟨value, vis⟩ := m
  obtain ⟨value', vis'⟩ := m'
  constructor
  · rintro ⟨⟨⟨_, found, value⟩, ⟨_, found', vis⟩, _⟩, _⟩
    cases found
    cases found'
    exact congrArg₂ Modifier.mk ((same_str_iff _ _).mp value) ((same_bool_iff _ _).mp vis)
  · intro same
    cases same
    apply Json.same_obj_of_forall₂ (by simp)
    exact .cons ⟨rfl, (same_str_iff _ _).mpr rfl⟩
      (.cons ⟨rfl, (same_bool_iff _ _).mpr rfl⟩ .nil)

theorem same_modifiers_iff (d d' : Dict String Modifier) :
    Same (modifiersValue d) (modifiersValue d') ↔ ∀ key, d.get? key = d'.get? key :=
  Json.same_map_iff same_modifier_iff d d'

section Attributes

variable (py) (o : MilbObject) (uri : String)

theorem lookup_optional {A : Type} {key name : String} (f : A → Value) (a : Option A)
    (rest : List (String × Value)) :
    lookup key ((a.map (fun x => (name, f x))).toList ++ rest) =
      if name = key then (a.map f).or (lookup key rest) else lookup key rest := by
  cases a with
  | none => simp
  | some x =>
    simp only [Option.map_some, Option.toList_some, List.singleton_append, Json.lookup_cons,
      Option.some_or]

theorem lookup_sidc : (attributesOf py o uri).get? "sidc" = some (.str o.milId) := rfl

theorem lookup_visibility :
    (attributesOf py o uri).get? "visibility" = some (.bool o.visibility) := rfl

theorem lookup_modifiers :
    (attributesOf py o uri).get? "modifiers" = some (modifiersValue o.modifiers) := rfl

theorem lookup_uri {key : String} (other : "parent_ovl_uri" ≠ key) :
    lookup key (if uri = "" then [] else [("parent_ovl_uri", .str uri)]) = none := by
  split
  · rfl
  · rw [Json.lookup_cons, if_neg other]
    rfl

theorem lookup_behind {key : String}
    (other : key ∉ ["sidc", "affiliation", "function_code", "sidc_geometry_class",
      "geometry_conflict", "sidc_known", "visibility", "modifiers"]) :
    (attributesOf py o uri).get? key = lookup key (optionalAttributes o uri) := by
  have absent : lookup key (baseAttributes py o) = none := by
    rw [Json.lookup_eq_none_iff]
    exact other
  unfold attributesOf Dict.get?
  rw [List.find?_append, Option.map_or]
  exact (congrArg (fun found => Option.or found _) absent).trans (Option.none_or)

theorem get?_optional {key : String}
    (base : key ∉ ["sidc", "affiliation", "function_code", "sidc_geometry_class",
      "geometry_conflict", "sidc_known", "visibility", "modifiers"])
    (other : "parent_ovl_uri" ≠ key) :
    (attributesOf py o uri).get? key =
      (if "label_position" = key then o.labelPosition.map lonLat else none).or
        ((if "line_color" = key then o.lineColor.map Value.str else none).or
          ((if "fill_color" = key then o.fillColor.map Value.str else none).or
            (if "size" = key then o.size.map Value.str else none))) := by
  rw [lookup_behind py o uri base, optionalAttributes]
  simp only [List.append_assoc, lookup_optional, lookup_uri uri other, Option.or_none]
  split_ifs <;> simp

theorem lookup_labelPosition :
    (attributesOf py o uri).get? "label_position" = o.labelPosition.map lonLat :=
  (get?_optional py o uri (by decide) (by decide)).trans (by simp)

theorem lookup_lineColor :
    (attributesOf py o uri).get? "line_color" = o.lineColor.map Value.str :=
  (get?_optional py o uri (by decide) (by decide)).trans (by simp)

theorem lookup_fillColor :
    (attributesOf py o uri).get? "fill_color" = o.fillColor.map Value.str :=
  (get?_optional py o uri (by decide) (by decide)).trans (by simp)

theorem lookup_size : (attributesOf py o uri).get? "size" = o.size.map Value.str :=
  (get?_optional py o uri (by decide) (by decide)).trans (by simp)

end Attributes

variable {o o' : MilbObject} {uri : String}

theorem style_of_attributes (name : o.name = o'.name)
    (same : Same (.obj (attributesOf py o uri).items) (.obj (attributesOf py o' uri).items)) :
    SameStyle o o' := by
  have answers (key : String) : Option.Rel Same ((attributesOf py o uri).get? key)
      ((attributesOf py o' uri).get? key) :=
    (Json.same_obj_iff (attributesOf py o uri).distinct).mp same key
  have some_iff {v w : Value} : Option.Rel Same (some v) (some w) ↔ Same v w := by simp
  have sidc := answers "sidc"
  have visibility := answers "visibility"
  have modifiers := answers "modifiers"
  have label := answers "label_position"
  have line := answers "line_color"
  have fill := answers "fill_color"
  have size := answers "size"
  rw [lookup_sidc, lookup_sidc, some_iff, same_str_iff] at sidc
  rw [lookup_visibility, lookup_visibility, some_iff, same_bool_iff] at visibility
  rw [lookup_modifiers, lookup_modifiers, some_iff, same_modifiers_iff] at modifiers
  rw [lookup_labelPosition, lookup_labelPosition, Json.rel_map_iff same_lonLat_iff] at label
  rw [lookup_lineColor, lookup_lineColor, Json.rel_map_iff same_str_iff] at line
  rw [lookup_fillColor, lookup_fillColor, Json.rel_map_iff same_str_iff] at fill
  rw [lookup_size, lookup_size, Json.rel_map_iff same_str_iff] at size
  exact ⟨sidc, name, visibility, modifiers, label, line, fill, size⟩

theorem self_optional : ∀ i ∈ optionalAttributes o uri, Same i.2 i.2 := by
  intro i member
  have own (s : String) : Same (.str s) (.str s) := (same_str_iff s s).mpr rfl
  have label (p : Position) : Same (lonLat p) (lonLat p) := (same_lonLat_iff p p).mpr rfl
  simp only [optionalAttributes, List.mem_append, Option.mem_toList, Option.map_eq_some_iff]
    at member
  rcases member with (((⟨p, _, rfl⟩ | ⟨s, _, rfl⟩) | ⟨s, _, rfl⟩) | ⟨s, _, rfl⟩) | there
  · exact label p
  · exact own s
  · exact own s
  · exact own s
  · split at there
    · cases there
    · cases List.mem_singleton.mp there
      exact own uri

theorem same_baseAttributes (style : SameStyle o o')
    (resolved : resolveGeometry py o.positions o.milId =
      resolveGeometry py o'.positions o'.milId) :
    List.Forall₂ (fun x y => x.1 = y.1 ∧ Same x.2 y.2) (baseAttributes py o)
      (baseAttributes py o') := by
  have own (s : String) : Same (.str s) (.str s) := (same_str_iff s s).mpr rfl
  have bit (b : Bool) : Same (.bool b) (.bool b) := (same_bool_iff b b).mpr rfl
  have text (s : Option String) : Same ((s.map Value.str).getD .null)
      ((s.map Value.str).getD .null) := by
    cases s with
    | none => trivial
    | some s => exact own s
  unfold baseAttributes
  rw [resolved, style.milId, style.visibility]
  exact .cons ⟨rfl, own _⟩ (.cons ⟨rfl, own _⟩ (.cons ⟨rfl, own _⟩ (.cons ⟨rfl, text _⟩
    (.cons ⟨rfl, bit _⟩ (.cons ⟨rfl, bit _⟩ (.cons ⟨rfl, bit _⟩
      (.cons ⟨rfl, (same_modifiers_iff _ _).mpr style.modifiers⟩ .nil)))))))

theorem attributes_of_style (style : SameStyle o o')
    (type : inferActualGeometry py o.positions o.milId =
      inferActualGeometry py o'.positions o'.milId) :
    Same (.obj (attributesOf py o uri).items) (.obj (attributesOf py o' uri).items) := by
  have resolved : resolveGeometry py o.positions o.milId =
      resolveGeometry py o'.positions o'.milId := by
    unfold resolveGeometry
    rw [type, style.milId]
  have optional : optionalAttributes o uri = optionalAttributes o' uri := by
    unfold optionalAttributes
    rw [style.labelPosition, style.lineColor, style.fillColor, style.size]
  apply Json.same_obj_of_forall₂ (attributesOf py o uri).distinct
  refine List.rel_append (same_baseAttributes style resolved) ?_
  rw [← optional]
  exact List.forall₂_same.mpr (fun i member => ⟨rfl, self_optional i member⟩)

theorem ringOf_eq_iff {p q : Position} {ps qs : List Position} :
    ringOf py (p :: ps) = ringOf py (q :: qs) ↔ p :: ps = q :: qs ∨
      (closed py (p :: ps) = false ∧ q :: qs = p :: ps ++ [p] ∧ closed py (q :: qs) = true) ∨
      (closed py (q :: qs) = false ∧ p :: ps = q :: qs ++ [q] ∧ closed py (p :: ps) = true) := by
  unfold ringOf
  cases here : closed py (p :: ps) <;> cases there : closed py (q :: qs)
  · have ends : (p :: ps ++ [p] = q :: qs ++ [q]) ↔ p :: ps = q :: qs := by
      constructor
      · exact fun same => (List.append_inj' same rfl).1
      · intro same
        rw [same, (List.cons.inj same).1]
    simpa using ends
  · have unlike : p :: ps ≠ q :: qs := by
      intro same
      rw [← same, here] at there
      cases there
    constructor
    · exact fun same => .inr (.inl ⟨rfl, same.symm, rfl⟩)
    · rintro (same | ⟨_, same, _⟩ | ⟨opened, _⟩)
      · exact absurd same unlike
      · exact same.symm
      · cases opened
  · have unlike : p :: ps ≠ q :: qs := by
      intro same
      rw [same, there] at here
      cases here
    constructor
    · exact fun same => .inr (.inr ⟨rfl, same, rfl⟩)
    · rintro (same | ⟨opened, _⟩ | ⟨_, same, _⟩)
      · exact absurd same unlike
      · cases opened
      · exact same
  · simp

theorem closed_repeated (p : Position) (ps : List Position) :
    closed py (p :: ps ++ [p]) = samePoint py p p := by
  unfold closed
  rw [List.getLast?_concat]
  rfl

theorem single_of_point {sidc : String} {p : Position} {ps : List Position}
    (type : inferActualGeometry py (p :: ps) sidc = .point) : ps = [] := by
  unfold inferActualGeometry at type
  split at type
  · rename_i short
    exact List.eq_nil_of_length_eq_zero (by simpa using short)
  · split at type
    · cases type
    · split at type <;> cases type

theorem area_of_open {sidc : String} {ps : List Position} (opened : closed py ps = false)
    (type : inferActualGeometry py ps sidc = .polygon) :
    classifyGeometry sidc = some .area ∧ 3 ≤ ps.length := by
  unfold inferActualGeometry at type
  split at type
  · cases type
  · split at type
    · cases type
    · split at type
      · rename_i _ _ area
        rw [opened, Bool.or_false, decide_eq_true_eq] at area
        exact ⟨area, by omega⟩
      · cases type

theorem type_of_area {sidc : String} {ps : List Position}
    (area : classifyGeometry sidc = some .area) (several : 3 ≤ ps.length) :
    inferActualGeometry py ps sidc = .polygon := by
  unfold inferActualGeometry
  rw [if_neg (by omega), if_neg (by omega), if_pos]
  rw [decide_eq_true area, Bool.true_or]

theorem same_lonLats_iff (ps qs : List Position) :
    Same (.arr (ps.map lonLat)) (.arr (qs.map lonLat)) ↔ ps = qs :=
  Json.sameItems_map_iff same_lonLat_iff ps qs

theorem same_coordinates_iff {p q : Position} {ps qs : List Position} {type : GeometryType}
    {sidc : String} (one : inferActualGeometry py (p :: ps) sidc = type)
    (other : inferActualGeometry py (q :: qs) sidc = type) :
    Same (coordinatesOf py type (p :: ps)) (coordinatesOf py type (q :: qs)) ↔
      p :: ps = q :: qs ∨ (type = .polygon ∧ ringOf py (p :: ps) = ringOf py (q :: qs)) := by
  cases type with
  | point =>
    obtain rfl := single_of_point one
    obtain rfl := single_of_point other
    simpa [coordinatesOf] using same_lonLat_iff p q
  | lineString => simpa [coordinatesOf] using same_lonLats_iff (p :: ps) (q :: qs)
  | polygon =>
    have rings : Same (coordinatesOf py .polygon (p :: ps)) (coordinatesOf py .polygon (q :: qs)) ↔
        ringOf py (p :: ps) = ringOf py (q :: qs) := by
      rw [← same_lonLats_iff]
      simp [coordinatesOf, Same, Json.SameItems]
    rw [rings]
    constructor
    · exact fun same => .inr ⟨rfl, same⟩
    · rintro (same | ⟨_, same⟩)
      · rw [same]
      · exact same

theorem dict_equal_iff {p q : Position} {ps qs : List Position} (here : o.positions = p :: ps)
    (there : o'.positions = q :: qs) :
    (milbobjectToCtoDict py o uri).Equal (milbobjectToCtoDict py o' uri) ↔
      SameStyle o o' ∧ inferActualGeometry py o.positions o.milId =
          inferActualGeometry py o'.positions o'.milId ∧
        (o.positions = o'.positions ∨
          (inferActualGeometry py o.positions o.milId = .polygon ∧
            ringOf py o.positions = ringOf py o'.positions)) := by
  constructor
  · rintro ⟨name, type, coordinates, attributes⟩
    have style := style_of_attributes name attributes
    have same : inferActualGeometry py o.positions o.milId =
        inferActualGeometry py o'.positions o'.milId := type
    refine ⟨style, same, ?_⟩
    simp only [milbobjectToCtoDict, resolveGeometry] at coordinates
    rw [← same] at coordinates
    rw [here, there] at coordinates same ⊢
    rw [style.milId] at same coordinates ⊢
    exact (same_coordinates_iff rfl same.symm).mp coordinates
  · rintro ⟨style, same, drawn⟩
    refine ⟨style.name, same, ?_, attributes_of_style style same⟩
    simp only [milbobjectToCtoDict, resolveGeometry]
    rw [← same]
    rw [here, there] at drawn same ⊢
    rw [style.milId] at same drawn ⊢
    exact (same_coordinates_iff rfl same.symm).mpr drawn

/-- Closing an open area by hand gives another object with the same dictionary. -/
theorem Closes.equal (closes : Closes py o o') :
    (milbobjectToCtoDict py o uri).Equal (milbobjectToCtoDict py o' uri) := by
  obtain ⟨first, head, self, longer⟩ := closes.repeats
  obtain ⟨ps, here⟩ := List.head?_eq_some_iff.mp head
  have there : o'.positions = first :: (ps ++ [first]) := by rw [longer, here, List.cons_append]
  have several := closes.several
  have polygon : inferActualGeometry py o.positions o.milId = .polygon :=
    type_of_area closes.area several
  have polygon' : inferActualGeometry py o'.positions o'.milId = .polygon := by
    apply type_of_area
    · rw [← closes.style.milId]
      exact closes.area
    · rw [longer, List.length_append]
      omega
  apply (dict_equal_iff here there).mpr
  refine ⟨closes.style, polygon.trans polygon'.symm, .inr ⟨polygon, ?_⟩⟩
  have opened := closes.opened
  rw [here] at opened ⊢
  rw [there]
  apply ringOf_eq_iff.mpr
  refine .inr (.inl ⟨opened, rfl, ?_⟩)
  exact (closed_repeated first ps).trans self

theorem Closes.unequal (closes : Closes py o o') : ¬ o.Equal o' := by
  intro equal
  obtain ⟨first, _, _, longer⟩ := closes.repeats
  have size := congrArg List.length (equal.positions.trans longer)
  rw [List.length_append, List.length_singleton] at size
  omega

theorem SameStyle.symm (style : SameStyle o o') : SameStyle o' o :=
  ⟨style.milId.symm, style.name.symm, style.visibility.symm, fun key => (style.modifiers key).symm,
    style.labelPosition.symm, style.lineColor.symm, style.fillColor.symm, style.size.symm⟩

theorem dict_equal_symm {p q : Position} {ps qs : List Position} (here : o.positions = p :: ps)
    (there : o'.positions = q :: qs)
    (same : (milbobjectToCtoDict py o uri).Equal (milbobjectToCtoDict py o' uri)) :
    (milbobjectToCtoDict py o' uri).Equal (milbobjectToCtoDict py o uri) := by
  obtain ⟨style, type, drawn⟩ := (dict_equal_iff here there).mp same
  apply (dict_equal_iff there here).mpr
  refine ⟨style.symm, type.symm, ?_⟩
  rcases drawn with positions | ⟨polygon, rings⟩
  · exact .inl positions.symm
  · exact .inr ⟨type.symm.trans polygon, rings.symm⟩

theorem closes_of_ring {p : Position} {ps : List Position} (style : SameStyle o o')
    (here : o.positions = p :: ps)
    (polygon : inferActualGeometry py o.positions o.milId = .polygon)
    (opened : closed py (p :: ps) = false) (longer : o'.positions = p :: ps ++ [p])
    (shut : closed py o'.positions = true) : Closes py o o' := by
  rw [here] at polygon
  obtain ⟨area, several⟩ := area_of_open opened polygon
  refine ⟨style, area, by rw [here]; exact several, by rw [here]; exact opened, p, ?_, ?_, ?_⟩
  · rw [here]
    rfl
  · rw [← closed_repeated p ps, ← longer]
    exact shut
  · rw [here]
    exact longer

/-- Two objects with the same dictionary are the same object, unless one is the other, an open
area, closed by hand. -/
theorem lossless_iff (py : Runtime) (uri : String) (o o' : MilbObject) (drawn : o.positions ≠ [])
    (drawn' : o'.positions ≠ []) :
    ((milbobjectToCtoDict py o uri).Equal (milbobjectToCtoDict py o' uri) → o.Equal o') ↔
      ¬ Closes py o o' ∧ ¬ Closes py o' o := by
  obtain ⟨p, ps, here⟩ := List.exists_cons_of_ne_nil drawn
  obtain ⟨q, qs, there⟩ := List.exists_cons_of_ne_nil drawn'
  constructor
  · intro kept
    constructor
    · exact fun closes => closes.unequal (kept closes.equal)
    · intro closes
      have equal := kept (dict_equal_symm there here closes.equal)
      exact closes.unequal ⟨equal.toSameStyle.symm, equal.positions.symm⟩
  · rintro ⟨forward, backward⟩ same
    obtain ⟨style, type, positions | ⟨polygon, rings⟩⟩ := (dict_equal_iff here there).mp same
    · exact ⟨style, positions⟩
    · rw [here, there] at rings
      rcases ringOf_eq_iff.mp rings with positions | ⟨opened, longer, shut⟩ | ⟨opened, longer, shut⟩
      · exact ⟨style, by rw [here, there]; exact positions⟩
      · refine absurd (closes_of_ring style here polygon opened (there.trans longer) ?_) forward
        rw [there]
        exact shut
      · refine absurd (closes_of_ring style.symm there (type.symm.trans polygon) opened
          (here.trans longer) ?_) backward
        rw [here]
        exact shut

def triangle (milId : String) (more : List Position) : MilbObject :=
  { milId := milId
    name := "AA FOX"
    positions := [⟨48, 11⟩, ⟨49, 11⟩, ⟨49, 12⟩] ++ more }

theorem triangle_closes :
    Closes plainRuntime (triangle "GFGPGAA--------" []) (triangle "GFGPGAA--------" [⟨48, 11⟩]) where
  style := ⟨rfl, rfl, rfl, fun _ => rfl, rfl, rfl, rfl, rfl⟩
  area := by decide +kernel
  several := by decide
  opened := by decide
  repeats := ⟨⟨48, 11⟩, rfl, by decide, rfl⟩

/-- A boundary and an area with the same corners have different dictionaries. -/
theorem lossless_iff_triangles :
    ((milbobjectToCtoDict plainRuntime (triangle "GFGPGLB--------" []) "").Equal
        (milbobjectToCtoDict plainRuntime (triangle "GFGPGAA--------" []) "") →
      (triangle "GFGPGLB--------" []).Equal (triangle "GFGPGAA--------" [])) ↔
      ¬ Closes plainRuntime (triangle "GFGPGLB--------" []) (triangle "GFGPGAA--------" []) ∧
        ¬ Closes plainRuntime (triangle "GFGPGAA--------" []) (triangle "GFGPGLB--------" []) :=
  lossless_iff plainRuntime "" _ _ (by simp [triangle]) (by simp [triangle])

/-- An assembly area drawn with three positions, and drawn with the first one repeated. -/
theorem triangle_ambiguous :
    (milbobjectToCtoDict plainRuntime (triangle "GFGPGAA--------" []) "").Equal
        (milbobjectToCtoDict plainRuntime (triangle "GFGPGAA--------" [⟨48, 11⟩]) "") ∧
      ¬ (triangle "GFGPGAA--------" []).Equal (triangle "GFGPGAA--------" [⟨48, 11⟩]) :=
  ⟨triangle_closes.equal, triangle_closes.unequal⟩

end TacticalGateway.Ovl
