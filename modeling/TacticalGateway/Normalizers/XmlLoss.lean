import TacticalGateway.Normalizers.XmlEgress

/-! Which events come back with the attributes that were recorded, where egress reports no loss. -/
namespace TacticalGateway.Normalizers
open ElementTree Decimal
open Json (Value Same)

def Bare (e : Element) : Prop := (∀ s ∈ e.text, strip s = "") ∧ e.children = []

theorem storedText_eq_none (e : Element) :
    storedText e = none ↔ (∀ s ∈ e.text, strip s = "") ∧ e.attrib.get? "_text" = none := by
  unfold storedText
  cases e.text with
  | none => simp
  | some s =>
    by_cases blank : strip s = ""
    · simp [blank]
    · simp [blank]

theorem same_flat_iff (e f : Element) (text : f.text = none) (leaf : f.children = [])
    (no_text : f.attrib.get? "_text" = none) (no_children : f.attrib.get? "_children" = none) :
    Same (nodeOf e) (nodeOf (reread f)) ↔ Bare e ∧ ∀ key, e.attrib.get? key =
      f.attrib.get? key := by
  have text_there : (nodeDict (reread f)).get? "_text" = none := by
    rw [get?_nodeDict_text, storedText, text_reread, text, attrib_reread]
    exact congrArg (Option.map Value.str) no_text
  have children_there : (nodeDict (reread f)).get? "_children" = none := by
    rw [get?_nodeDict_children, children_reread, leaf, if_pos List.map_nil, attrib_reread,
      no_children]
    rfl
  rw [nodeOf, nodeOf, Json.same_obj_iff (nodeDict e).distinct]
  simp only [Json.lookup_items]
  constructor
  · intro same
    have here := same "_text"
    rw [text_there, get?_nodeDict_text, rel_none_iff, storedText_eq_none] at here
    have below := same "_children"
    rw [children_there, get?_nodeDict_children] at below
    have childless : e.children = [] := by
      by_contra full
      rw [if_neg full] at below
      cases below
    rw [if_pos childless, rel_none_iff] at below
    refine ⟨⟨here.1, childless⟩, ?_⟩
    intro key
    by_cases own_text : key = "_text"
    · rw [own_text, here.2, no_text]
    by_cases own_children : key = "_children"
    · rw [own_children, below, no_children]
    · have other := same key
      rw [get?_nodeDict_other _ own_text own_children, get?_nodeDict_other _ own_text own_children,
        attrib_reread, rel_str_iff] at other
      exact other
  · rintro ⟨⟨blank, childless⟩, attrs⟩ key
    by_cases own_text : key = "_text"
    · rw [own_text, text_there, get?_nodeDict_text, rel_none_iff, storedText_eq_none]
      exact ⟨blank, (attrs "_text").trans no_text⟩
    by_cases own_children : key = "_children"
    · rw [own_children, children_there, get?_nodeDict_children, if_pos childless, rel_none_iff]
      exact (attrs "_children").trans no_children
    · rw [get?_nodeDict_other _ own_text own_children, get?_nodeDict_other _ own_text own_children,
        attrib_reread, rel_str_iff]
      exact attrs key

theorem same_contact_iff {e : Element} {callsign : String}
    (own : e.get "callsign" = some callsign) :
    Same (nodeOf e) (nodeOf (reread (.mk "contact" (ofList [("callsign", callsign)]) none []))) ↔
      Bare e ∧ ∀ name ∈ e.attrib.keys, name = "callsign" := by
  rw [same_flat_iff e (.mk "contact" (ofList [("callsign", callsign)]) none []) rfl rfl rfl rfl]
  apply and_congr_right
  intro _
  constructor
  · intro attrs name named
    by_contra other
    have absent := attrs name
    rw [Element.attrib_mk, get?_ofList_single, if_neg other, Dict.get?_eq_none_iff] at absent
    exact absent named
  · intro only key
    rw [Element.attrib_mk, get?_ofList_single]
    by_cases same : key = "callsign"
    · rw [if_pos same, same]
      exact own
    · rw [if_neg same, Dict.get?_eq_none_iff]
      exact fun named => same (only key named)

/-- A course or a speed with two decimals, as it is printed. -/
def Printed (py : Runtime) (s : String) : Prop := ∃ q, py.float s = some q ∧ s = py.format 2 q

theorem optionalFloat_printed_iff {py : Runtime} {attr : Option String} {q : Option Rat}
    (read : optionalFloat py attr = some q) :
    attr = q.map (py.format 2) ↔ ∀ s ∈ attr, Printed py s := by
  cases attr with
  | none =>
    cases Option.some.inj read
    simp
  | some s =>
    rw [optionalFloat] at read
    split at read
    · rename_i empty
      cases Option.some.inj read
      simp only [Option.map_none, Option.mem_some_iff, forall_eq', reduceCtorEq, false_iff]
      rintro ⟨q, _, printed⟩
      exact format_ne_empty py q (by decide) (printed ▸ empty)
    · obtain ⟨v, value, rfl⟩ := Option.map_eq_some_iff.mp read
      simp only [Option.map_some, Option.some.injEq, Option.mem_some_iff, forall_eq']
      constructor
      · exact fun same => ⟨v, value, same⟩
      · rintro ⟨p, value', printed⟩
        cases Option.some.inj (value.symm.trans value')
        exact printed

theorem same_track_iff {py : Runtime} {e : Element} {k : Kinematics}
    (own : trackKinematics py e = some k) :
    Same (nodeOf e) (nodeOf (reread (.mk "track" (ofList (trackAttrs py k)) none []))) ↔
      Bare e ∧ ∀ name ∈ e.attrib.keys, name ∈ ["course", "speed"] ∧
        ∀ s ∈ e.get name, Printed py s := by
  have attr (key : String) := get?_trackAttrs py k key
  rw [same_flat_iff e (.mk "track" (ofList (trackAttrs py k)) none []) rfl rfl (attr "_text")
    (attr "_children")]
  unfold trackKinematics at own
  split at own
  · rename_i course speed course_read speed_read
    cases Option.some.inj own
    have course_iff := optionalFloat_printed_iff course_read
    have speed_iff := optionalFloat_printed_iff speed_read
    apply and_congr_right
    intro _
    simp only [Element.attrib_mk, attr]
    constructor
    · intro attrs name named
      have here := attrs name
      by_cases is_course : name = "course"
      · rw [if_pos is_course] at here
        refine ⟨by simp [is_course], ?_⟩
        rw [is_course] at here ⊢
        exact course_iff.mp here
      by_cases is_speed : name = "speed"
      · rw [if_neg is_course, if_pos is_speed] at here
        refine ⟨by simp [is_speed], ?_⟩
        rw [is_speed] at here ⊢
        exact speed_iff.mp here
      · rw [if_neg is_course, if_neg is_speed, Dict.get?_eq_none_iff] at here
        exact absurd named here
    · intro printed key
      have known {name : String} : ∀ s ∈ e.get name, Printed py s := by
        intro s there
        exact (printed name ((Dict.mem_keys_iff _ _).mpr (by rw [← Element.get, there]; rfl))).2 s
          there
      by_cases is_course : key = "course"
      · rw [if_pos is_course, is_course]
        exact course_iff.mpr known
      by_cases is_speed : key = "speed"
      · rw [if_neg is_course, if_pos is_speed, is_speed]
        exact speed_iff.mpr known
      · rw [if_neg is_course, if_neg is_speed, Dict.get?_eq_none_iff]
        intro named
        have listed := (printed key named).1
        simp [is_course, is_speed] at listed
  · cases own

theorem rel_beside_text {e : Element} {text : Option String} {key : String}
    (other : key ≠ "_text") :
    Option.Rel Same ((nodeDict e).get? key)
        ((nodeDict (reread (.mk "remarks" .empty text []))).get? key) ↔
      e.attrib.get? key = none ∧ (key = "_children" → e.children = []) := by
  by_cases own_children : key = "_children"
  · subst own_children
    have nothing : (nodeDict (reread (.mk "remarks" .empty text []))).get? "_children" = none := by
      rw [get?_nodeDict_children]
      rfl
    rw [nothing, get?_nodeDict_children]
    by_cases childless : e.children = []
    · rw [if_pos childless, rel_none_iff]
      simp [childless]
    · rw [if_neg childless]
      constructor
      · intro contrary
        cases contrary
      · rintro ⟨_, none_below⟩
        exact absurd (none_below rfl) childless
  · have nothing : (nodeDict (reread (.mk "remarks" .empty text []))).get? key = none := by
      rw [get?_nodeDict_other _ other own_children, attrib_reread]
      rfl
    rw [nothing, get?_nodeDict_other _ other own_children, rel_none_iff]
    exact (and_iff_left (fun same => absurd same own_children)).symm

theorem same_remarks_iff {e : Element} {s : String} (own : e.text = some s) (full : strip s ≠ "") :
    Same (nodeOf e) (nodeOf (reread (.mk "remarks" .empty (some (strip s)) []))) ↔
      e.children = [] ∧ (∀ name ∈ e.attrib.keys, name = "_text") ∧ '\r' ∉ (strip s).toList := by
  have stored : storedText e = some (strip s) := by
    rw [storedText, own]
    exact if_pos full
  have text_there : (nodeDict (reread (.mk "remarks" .empty (some (strip s)) []))).get? "_text" =
      ((rereadText (some (strip s))).bind
        (fun s => if strip s ≠ "" then some (strip s) else none)).map .str := by
    rw [get?_nodeDict_text, storedText, text_reread, Element.text_mk, attrib_reread]
    cases rereadText (some (strip s)) <;> rfl
  have text : Option.Rel Same ((nodeDict e).get? "_text")
      ((nodeDict (reread (.mk "remarks" .empty (some (strip s)) []))).get? "_text") ↔
        '\r' ∉ (strip s).toList := by
    rw [text_there, get?_nodeDict_text, stored, rel_text]
    simp [Legible, full, strip_strip]
  rw [nodeOf, nodeOf, Json.same_obj_iff (nodeDict e).distinct]
  simp only [Json.lookup_items]
  constructor
  · intro same
    refine ⟨((rel_beside_text (by decide)).mp (same "_children")).2 rfl, ?_, text.mp (same "_text")⟩
    intro name named
    by_contra other
    have absent := ((rel_beside_text other).mp (same name)).1
    exact (Dict.get?_eq_none_iff _ _).mp absent named
  · rintro ⟨childless, only, legible⟩ key
    by_cases own_text : key = "_text"
    · rw [own_text]
      exact text.mpr legible
    · have absent : e.attrib.get? key = none :=
        (Dict.get?_eq_none_iff _ _).mpr (fun named => own_text (only key named))
      exact (rel_beside_text own_text).mpr ⟨absent, fun _ => childless⟩

def under (detail : Element) (tag : String) : List Element :=
  detail.children.filter (fun e => e.tag = tag)

theorem mem_under {e detail : Element} {tag : String} :
    e ∈ under detail tag ↔ e ∈ detail.children ∧ e.tag = tag := by
  simp [under]

def ContactTyped (detail : Element) : Prop :=
  ∃ contact ∈ detail.find "contact", ∃ s ∈ contact.get "callsign", s ≠ ""

def TrackTyped (py : Runtime) (detail : Element) : Prop :=
  ∃ track ∈ detail.find "track",
    (∀ name ∈ ["course", "speed"], ∀ s ∈ track.get name, s = "" ∨ (py.float s).isSome) ∧
      ∃ name ∈ ["course", "speed"], ∃ s ∈ track.get name, s ≠ ""

def RemarksTyped (detail : Element) : Prop :=
  ∃ rem ∈ detail.find "remarks", ∃ s ∈ rem.text, strip s ≠ ""

/-- The details that come back: what gives a typed field stands once and holds that field only, a
number as it is printed, and all else is plain. -/
structure Faithful (py : Runtime) (detail : Element) : Prop where
  contact : ContactTyped detail → ∃ e, under detail "contact" = [e] ∧ Bare e ∧
    ∀ name ∈ e.attrib.keys, name = "callsign"
  track : TrackTyped py detail → ∃ e, under detail "track" = [e] ∧ Bare e ∧
    ∀ name ∈ e.attrib.keys, name ∈ ["course", "speed"] ∧ ∀ s ∈ e.get name, Printed py s
  remarks : RemarksTyped detail → ∃ e, under detail "remarks" = [e] ∧ e.children = [] ∧
    (∀ name ∈ e.attrib.keys, name = "_text") ∧ ∀ s ∈ e.text, '\r' ∉ (strip s).toList
  others : ∀ e ∈ detail.children, (e.tag = "contact" → ¬ ContactTyped detail) →
    (e.tag = "track" → ¬ TrackTyped py detail) →
      (e.tag = "remarks" → ¬ RemarksTyped detail) → Plain e

theorem find_eq_head (detail : Element) (tag : String) :
    detail.find tag = (under detail tag).head? :=
  List.head?_filter.symm

theorem rel_pack_one {es : List Element} {f : Element} :
    Option.Rel Same (pack (es.map nodeOf)) (pack [nodeOf f]) ↔
      ∃ e, es = [e] ∧ Same (nodeOf e) (nodeOf f) := by
  match es with
  | [] => simp [pack]
  | [e] => simp [pack]
  | first :: second :: rest => simp [pack, nodeOf, Same]

theorem optionalFloat_isSome_iff (py : Runtime) (attr : Option String) :
    (optionalFloat py attr).isSome ↔ ∀ s ∈ attr, s = "" ∨ (py.float s).isSome := by
  cases attr with
  | none => simp [optionalFloat]
  | some s =>
    rw [optionalFloat]
    by_cases empty : s = ""
    · simp [empty]
    · simp [empty]

theorem optionalFloat_ne_none_iff {py : Runtime} {attr : Option String} {q : Option Rat}
    (read : optionalFloat py attr = some q) : q ≠ none ↔ ∃ s ∈ attr, s ≠ "" := by
  cases attr with
  | none =>
    cases Option.some.inj read
    simp
  | some s =>
    rw [optionalFloat] at read
    by_cases empty : s = ""
    · rw [if_pos empty] at read
      cases Option.some.inj read
      simp [empty]
    · rw [if_neg empty] at read
      obtain ⟨v, _, rfl⟩ := Option.map_eq_some_iff.mp read
      simp [empty]

theorem trackAttrs_ne_nil_iff (py : Runtime) (k : Kinematics) :
    trackAttrs py k ≠ [] ↔ k.courseDeg ≠ none ∨ k.speedMps ≠ none := by
  unfold trackAttrs
  cases k.courseDeg <;> cases k.speedMps <;> simp

theorem track_typed_iff (py : Runtime) (track : Element) :
    (∃ k, trackKinematics py track = some k ∧ trackAttrs py k ≠ []) ↔
      (∀ name ∈ ["course", "speed"], ∀ s ∈ track.get name, s = "" ∨ (py.float s).isSome) ∧
        ∃ name ∈ ["course", "speed"], ∃ s ∈ track.get name, s ≠ "" := by
  simp only [List.forall_mem_cons, List.exists_mem_cons_iff, or_false,
    List.not_mem_nil, false_and, exists_false, ← optionalFloat_isSome_iff]
  unfold trackKinematics
  cases course_read : optionalFloat py (track.get "course") with
  | none => simp
  | some course =>
    cases speed_read : optionalFloat py (track.get "speed") with
    | none => simp
    | some speed =>
      rw [← optionalFloat_ne_none_iff course_read, ← optionalFloat_ne_none_iff speed_read]
      simp [trackAttrs_ne_nil_iff]

section Detail

variable {py : Runtime} {cto : CTO} {detail : Element}

/-- What comes back under a tag, by whether a typed field stands for it. -/
theorem rel_tag_iff
    (stored : cto.attributes.get? "cot_detail" = some (.obj (detailToAttributes detail).items))
    {tag : String} {typed : Option Element}
    (own : (typedElements py cto).filter (fun e => e.tag = tag) = typed.toList)
    {T : Prop} {C : Element → Prop} (absent : typed = none → ¬ T)
    (present : ∀ f, typed = some f →
      T ∧ ∀ e, detail.find tag = some e → (Same (nodeOf e) (nodeOf (reread f)) ↔ C e)) :
    Option.Rel Same (pack ((under detail tag).map nodeOf))
        (pack ((under (reread (detailElement py cto)) tag).map nodeOf)) ↔
      (T → ∃ e, under detail tag = [e] ∧ C e) ∧ (¬ T → ∀ e ∈ under detail tag, Plain e) := by
  have back := filter_detailElement py cto (some detail) stored tag
  rw [own] at back
  cases typed with
  | none =>
    have none_listed := (typed_listed own).not.mpr (by simp)
    rw [if_neg none_listed] at back
    have emitted : under (reread (detailElement py cto)) tag = (under detail tag).map returned := by
      simpa [under] using back
    rw [emitted, List.map_map]
    refine (rel_pack (f := returned)).trans ?_
    simp only [absent rfl, not_false_eq_true, false_implies, true_and, forall_const]
    exact forall₂_congr (fun e _ => (plain_iff e).symm)
  | some f =>
    obtain ⟨there, same⟩ := present f rfl
    have listed := (typed_listed own).mpr (by simp)
    rw [if_pos listed] at back
    have emitted : under (reread (detailElement py cto)) tag = [reread f] := by
      simpa [under] using back
    rw [emitted]
    refine rel_pack_one.trans ?_
    simp only [there, forall_const, not_true_eq_false, false_implies, and_true]
    apply exists_congr
    intro e
    apply and_congr_right
    intro only
    exact same e (by rw [find_eq_head, only]; rfl)

theorem rel_contact_iff (py : Runtime)
    (stored : cto.attributes.get? "cot_detail" = some (.obj (detailToAttributes detail).items))
    (typed : cto.callsign = callsignOf detail) :
    Option.Rel Same (pack ((under detail "contact").map nodeOf))
        (pack ((under (reread (detailElement py cto)) "contact").map nodeOf)) ↔
      (ContactTyped detail → ∃ e, under detail "contact" = [e] ∧ Bare e ∧
        ∀ name ∈ e.attrib.keys, name = "callsign") ∧
      (¬ ContactTyped detail → ∀ e ∈ under detail "contact", Plain e) := by
  apply rel_tag_iff stored (tags_typed py cto).1
  · rintro absent ⟨contact, found, callsign, own, full⟩
    have known : cto.callsign = some callsign := by
      rw [typed, callsignOf, Option.mem_def.mp found]
      exact own
    rw [contactElement, known, truthyStr_some, if_neg full] at absent
    cases absent
  · intro f present
    obtain ⟨callsign, shown, rfl⟩ := Option.map_eq_some_iff.mp present
    obtain ⟨known, full⟩ := Option.filter_eq_some_iff.mp shown
    rw [typed] at known
    obtain ⟨contact, found, own⟩ := Option.bind_eq_some_iff.mp known
    refine ⟨⟨contact, found, callsign, own, by simpa using full⟩, ?_⟩
    intro e first
    cases Option.some.inj (found.symm.trans first)
    exact same_contact_iff own

theorem rel_track_iff
    (stored : cto.attributes.get? "cot_detail" = some (.obj (detailToAttributes detail).items))
    (typed : cto.kinematics = kinematicsOf py detail) :
    Option.Rel Same (pack ((under detail "track").map nodeOf))
        (pack ((under (reread (detailElement py cto)) "track").map nodeOf)) ↔
      (TrackTyped py detail → ∃ e, under detail "track" = [e] ∧ Bare e ∧
        ∀ name ∈ e.attrib.keys, name ∈ ["course", "speed"] ∧ ∀ s ∈ e.get name, Printed py s) ∧
      (¬ TrackTyped py detail → ∀ e ∈ under detail "track", Plain e) := by
  apply rel_tag_iff stored (tags_typed py cto).2.1
  · rintro absent ⟨track, found, shown⟩
    obtain ⟨k, own, full⟩ := (track_typed_iff py track).mpr shown
    have known : cto.kinematics = some k := by
      rw [typed, kinematicsOf, Option.mem_def.mp found]
      exact own
    rw [trackElement, known, Option.bind_some, if_neg full] at absent
    cases absent
  · intro f present
    obtain ⟨k, known, made⟩ := Option.bind_eq_some_iff.mp present
    split at made
    · cases made
    · rename_i full
      cases made
      rw [typed] at known
      obtain ⟨track, found, own⟩ := Option.bind_eq_some_iff.mp known
      refine ⟨⟨track, found, (track_typed_iff py track).mp ⟨k, own, full⟩⟩, ?_⟩
      intro e first
      cases Option.some.inj (found.symm.trans first)
      exact same_track_iff own

theorem rel_remarks_iff (py : Runtime)
    (stored : cto.attributes.get? "cot_detail" = some (.obj (detailToAttributes detail).items))
    (typed : cto.remarks = remarksOf detail) :
    Option.Rel Same (pack ((under detail "remarks").map nodeOf))
        (pack ((under (reread (detailElement py cto)) "remarks").map nodeOf)) ↔
      (RemarksTyped detail → ∃ e, under detail "remarks" = [e] ∧ e.children = [] ∧
        (∀ name ∈ e.attrib.keys, name = "_text") ∧ ∀ s ∈ e.text, '\r' ∉ (strip s).toList) ∧
      (¬ RemarksTyped detail → ∀ e ∈ under detail "remarks", Plain e) := by
  apply rel_tag_iff stored (tags_typed py cto).2.2.1
  · rintro absent ⟨rem, found, s, own, full⟩
    have known : cto.remarks = some (strip s) := by
      have some_text : s ≠ "" := by
        rintro rfl
        exact full rfl
      rw [typed, remarksOf, Option.mem_def.mp found, Option.bind_some, Option.mem_def.mp own]
      exact if_neg some_text
    rw [remarksElement, known, truthyStr_some, if_neg full] at absent
    cases absent
  · intro f present
    obtain ⟨remarks, shown, rfl⟩ := Option.map_eq_some_iff.mp present
    obtain ⟨known, full⟩ := Option.filter_eq_some_iff.mp shown
    rw [typed] at known
    obtain ⟨rem, found, own⟩ := Option.bind_eq_some_iff.mp known
    split at own
    · rename_i s text
      split at own
      · cases own
      · cases Option.some.inj own
        have some_text : strip s ≠ "" := by simpa using full
        refine ⟨⟨rem, found, s, text, some_text⟩, ?_⟩
        intro e first
        cases Option.some.inj (found.symm.trans first)
        rw [same_remarks_iff text some_text]
        simp [text]
    · cases own

/-- The recorded detail and the one that comes back. -/
theorem same_detailElement_iff
    (stored : cto.attributes.get? "cot_detail" = some (.obj (detailToAttributes detail).items))
    (callsign : cto.callsign = callsignOf detail)
    (kinematics : cto.kinematics = kinematicsOf py detail)
    (remarks : cto.remarks = remarksOf detail) :
    Same (.obj (detailToAttributes detail).items)
        (.obj (detailToAttributes (reread (detailElement py cto))).items) ↔ Faithful py detail := by
  have contact_iff := rel_contact_iff py stored callsign
  have track_iff := rel_track_iff stored kinematics
  have remarks_iff := rel_remarks_iff py stored remarks
  have other_iff {tag : String} (a : tag ≠ "contact") (b : tag ≠ "track") (c : tag ≠ "remarks") :
      Option.Rel Same (pack ((under detail tag).map nodeOf))
          (pack ((under (reread (detailElement py cto)) tag).map nodeOf)) ↔
        (False → ∃ e, under detail tag = [e] ∧ False) ∧
          (¬ False → ∀ e ∈ under detail tag, Plain e) :=
    rel_tag_iff stored ((tags_typed py cto).2.2.2 tag a b c) (fun _ => id)
      (fun f made => absurd made (Option.some_ne_none f).symm)
  rw [Json.same_obj_iff (detailToAttributes detail).distinct]
  simp only [Json.lookup_items, get?_detail]
  constructor
  · intro same
    refine ⟨(contact_iff.mp (same "contact")).1, (track_iff.mp (same "track")).1,
      (remarks_iff.mp (same "remarks")).1, ?_⟩
    intro e member no_contact no_track no_remarks
    have there : e ∈ under detail e.tag := mem_under.mpr ⟨member, rfl⟩
    by_cases is_contact : e.tag = "contact"
    · rw [is_contact] at there
      exact (contact_iff.mp (same "contact")).2 (no_contact is_contact) e there
    by_cases is_track : e.tag = "track"
    · rw [is_track] at there
      exact (track_iff.mp (same "track")).2 (no_track is_track) e there
    by_cases is_remarks : e.tag = "remarks"
    · rw [is_remarks] at there
      exact (remarks_iff.mp (same "remarks")).2 (no_remarks is_remarks) e there
    · exact ((other_iff is_contact is_track is_remarks).mp (same e.tag)).2 id e there
  · intro faithful tag
    by_cases is_contact : tag = "contact"
    · rw [is_contact]
      refine contact_iff.mpr ⟨faithful.contact, ?_⟩
      intro none_typed e there
      obtain ⟨member, tagged⟩ := mem_under.mp there
      exact faithful.others e member (fun _ => none_typed) (by simp [tagged]) (by simp [tagged])
    by_cases is_track : tag = "track"
    · rw [is_track]
      refine track_iff.mpr ⟨faithful.track, ?_⟩
      intro none_typed e there
      obtain ⟨member, tagged⟩ := mem_under.mp there
      exact faithful.others e member (by simp [tagged]) (fun _ => none_typed) (by simp [tagged])
    by_cases is_remarks : tag = "remarks"
    · rw [is_remarks]
      refine remarks_iff.mpr ⟨faithful.remarks, ?_⟩
      intro none_typed e there
      obtain ⟨member, tagged⟩ := mem_under.mp there
      exact faithful.others e member (by simp [tagged]) (by simp [tagged]) (fun _ => none_typed)
    · refine (other_iff is_contact is_track is_remarks).mpr ⟨False.elim, ?_⟩
      intro _ e there
      obtain ⟨member, tagged⟩ := mem_under.mp there
      rw [← tagged] at is_contact is_track is_remarks
      exact faithful.others e member (fun same => absurd same is_contact)
        (fun same => absurd same is_track) (fun same => absurd same is_remarks)

end Detail

theorem addExtras_fresh (attrs : Dict String String) (extras : List (String × String))
    (distinct : (extras.map Prod.fst).Nodup) (fresh : ∀ i ∈ extras, i.1 ∉ attrs.keys) :
    (addExtras attrs (extras.map (fun i => (i.1, .str i.2)))).items = attrs.items ++ extras := by
  induction extras generalizing attrs with
  | nil => exact (List.append_nil _).symm
  | cons i extras ih =>
    rw [List.map_cons, List.nodup_cons] at distinct
    have new : i.1 ∉ attrs.keys := fresh i List.mem_cons_self
    have appended : (attrs.set i.1 i.2).items = attrs.items ++ [i] := by
      rw [Dict.items_set, if_neg new]
    rw [List.map_cons, addExtras, if_neg new, ih _ distinct.2, appended, List.append_assoc,
      List.singleton_append]
    intro j later known
    rw [Dict.keys, appended, List.map_append, List.mem_append] at known
    rcases known with old | own
    · exact fresh j (List.mem_cons_of_mem i later) old
    · apply distinct.1
      rw [← List.mem_singleton.mp own]
      exact List.mem_map_of_mem later

section Attributes

variable {py : Runtime} {root : Element} {intake second : Intake} {h : Header} {t s u : Datetime}
  {e : Element} {lossy : List String}

theorem items_ownAttrs (cto : CTO) (how : Option String)
    (stored : cto.attributes.get? "cot_how" = how.map .str)
    (uid cotType time start stale : String) :
    (ownAttrs cto uid cotType time start stale).items =
      requiredAttrs uid cotType time start stale ++ (how.map (fun how => ("how", how))).toList := by
  have base := items_ofList (distinct_requiredAttrs uid cotType time start stale)
  unfold ownAttrs
  rw [stored]
  cases how with
  | none => simpa using base
  | some how =>
    have new : "how" ∉ (ofList (requiredAttrs uid cotType time start stale)).keys := by
      rw [Dict.keys, base]
      simp [requiredAttrs]
    change ((ofList (requiredAttrs uid cotType time start stale)).set "how" how).items = _
    rw [Dict.items_set, if_neg new, base]
    rfl

theorem extras_unknown (root : Element) : ∀ i ∈ (extrasOf root).items, i.1 ∉ knownEventAttrs := by
  intro i member
  simpa using (List.mem_filter.mp member).2

theorem items_generated (w : Written py (buildCto py root intake h t s u) e lossy) :
    ∃ uid cotType time start stale, (reread e).attrib.items =
      requiredAttrs uid cotType time start stale ++
        ((root.get "how").map (fun how => ("how", how))).toList ++ (extrasOf root).items := by
  obtain ⟨_, extras_eq, how_eq, _⟩ := get?_attributesOf py root h.point
  have own (uid cotType time start stale : String) :=
    items_ownAttrs (buildCto py root intake h t s u) (root.get "how") how_eq uid cotType
      time start stale
  refine ⟨egressUid (buildCto py root intake h t s u), egressType (buildCto py root intake h t s u),
    zulu w.time, zulu w.start, zulu w.stale, ?_⟩
  have attrib : (reread e).attrib = eventAttrs (buildCto py root intake h t s u)
      (egressUid (buildCto py root intake h t s u)) (egressType (buildCto py root intake h t s u))
      (zulu w.time) (zulu w.start) (zulu w.stale) :=
    (attrib_reread e).trans (congrArg Element.attrib w.event_eq)
  rw [attrib, eventAttrs_eq, ← own]
  have extras_eq : (buildCto py root intake h t s u).attributes.get? "cot_event_extras" =
      (if (extrasOf root).items = [] then none
        else some (.obj (strAttrib (extrasOf root)).items)) := extras_eq
  rw [extras_eq]
  by_cases plain : (extrasOf root).items = []
  · rw [if_pos plain, plain, List.append_nil]
  · rw [if_neg plain]
    apply addExtras_fresh _ _ (distinct_extras root.attrib)
    intro i member known
    apply extras_unknown root i member
    rw [Dict.keys, own, List.map_append, List.mem_append] at known
    rcases known with required | how
    · simp only [requiredAttrs, List.map_cons, List.map_nil, List.mem_cons, List.not_mem_nil,
        or_false] at required
      rcases required with same | same | same | same | same | same <;> simp [knownEventAttrs, same]
    · cases there : root.get "how" with
      | none => simp [there] at how
      | some _ =>
        have same : i.1 = "how" := by simpa [there] using how
        simp [knownEventAttrs, same]

theorem event_attributes_kept (w : Written py (buildCto py root intake h t s u) e lossy) :
    (reread e).get "how" = root.get "how" ∧ extrasOf (reread e) = extrasOf root := by
  obtain ⟨uid, cotType, time, start, stale, items⟩ := items_generated w
  constructor
  · have no_required : (requiredAttrs uid cotType time start stale).find?
        (fun i => i.1 = "how") = none := by
      simp [requiredAttrs]
    have no_extra : (extrasOf root).items.find? (fun i => i.1 = "how") = none := by
      rw [List.find?_eq_none]
      intro i member same
      apply extras_unknown root i member
      rw [of_decide_eq_true same]
      decide
    rw [Element.get, Dict.get?, items, List.find?_append, List.find?_append, no_required, no_extra]
    cases root.get "how" <;> rfl
  · have required : (requiredAttrs uid cotType time start stale).filter
        (fun i => i.1 ∉ knownEventAttrs) = [] := by
      simp [requiredAttrs, knownEventAttrs]
    have how : ((root.get "how").map (fun how => ("how", how))).toList.filter
        (fun i => i.1 ∉ knownEventAttrs) = [] := by
      cases root.get "how" <;> simp [knownEventAttrs]
    have extra : (extrasOf root).items.filter (fun i => i.1 ∉ knownEventAttrs) =
        (extrasOf root).items :=
      List.filter_eq_self.mpr (fun i member => decide_eq_true (extras_unknown root i member))
    have same : (extrasOf (reread e)).items = (extrasOf root).items := by
      change (reread e).attrib.items.filter _ = _
      rw [items, List.filter_append, List.filter_append, required, how, extra]
      rfl
    exact Dict.ext_items same

theorem same_strAttrib (attrib : Dict String String) :
    Same (.obj (strAttrib attrib).items) (.obj (strAttrib attrib).items) := by
  rw [Json.same_obj_iff (strAttrib attrib).distinct]
  intro key
  rw [Json.lookup_items, get?_strAttrib]
  exact rel_same_str _

theorem attributes_reread_iff (w : Written py (buildCto py root intake h t s u) e lossy) :
    (∀ name ∈ ["cot_detail", "cot_event_extras", "cot_how"],
      Option.Rel Same ((buildCto py root intake h t s u).attributes.get? name)
        ((buildCto py (reread e) second (rereadHeader w) w.time w.start w.stale).attributes.get?
          name)) ↔
      ∃ detail, root.find "detail" = some detail ∧ Faithful py detail := by
  obtain ⟨detail_here, extras_here, how_here, _⟩ := get?_attributesOf py root h.point
  obtain ⟨detail_there, extras_there, how_there, _⟩ :=
    get?_attributesOf py (reread e) (rereadHeader w).point
  obtain ⟨how, extras⟩ := event_attributes_kept w
  have how_kept : Option.Rel Same ((attributesOf py root h.point).get? "cot_how")
      ((attributesOf py (reread e) (rereadHeader w).point).get? "cot_how") := by
    rw [how_here, how_there, how]
    exact rel_same_str _
  have extras_kept : Option.Rel Same ((attributesOf py root h.point).get? "cot_event_extras")
      ((attributesOf py (reread e) (rereadHeader w).point).get? "cot_event_extras") := by
    rw [extras_here, extras_there, extras]
    split
    · exact .none
    · exact .some (same_strAttrib _)
  have detail_iff : Option.Rel Same ((attributesOf py root h.point).get? "cot_detail")
      ((attributesOf py (reread e) (rereadHeader w).point).get? "cot_detail") ↔
        ∃ detail, root.find "detail" = some detail ∧ Faithful py detail := by
    rw [detail_here, detail_there, find_detail w]
    cases there : root.find "detail" with
    | none => simp
    | some detail =>
      have stored : (buildCto py root intake h t s u).attributes.get? "cot_detail" =
          some (.obj (detailToAttributes detail).items) := by
        rw [there] at detail_here
        exact detail_here
      have callsign : (buildCto py root intake h t s u).callsign = callsignOf detail :=
        congrArg (Option.bind · callsignOf) there
      have kinematics : (buildCto py root intake h t s u).kinematics = kinematicsOf py detail :=
        congrArg (Option.bind · (kinematicsOf py)) there
      have remarks : (buildCto py root intake h t s u).remarks = remarksOf detail :=
        congrArg (Option.bind · remarksOf) there
      simp only [Option.map_some, Option.rel_some_some, Option.some.injEq, exists_eq_left']
      exact same_detailElement_iff stored callsign kinematics remarks
  have here : (buildCto py root intake h t s u).attributes = attributesOf py root h.point := rfl
  have there : (buildCto py (reread e) second (rereadHeader w) w.time w.start w.stale).attributes =
      attributesOf py (reread e) (rereadHeader w).point := rfl
  rw [here, there]
  constructor
  · exact fun kept => detail_iff.mp (kept "cot_detail" List.mem_cons_self)
  · intro faithful name listed
    simp only [List.mem_cons, List.not_mem_nil, or_false] at listed
    rcases listed with rfl | rfl | rfl
    · exact detail_iff.mpr faithful
    · exact extras_kept
    · exact how_kept

end Attributes

/-- Without a reported loss, the recorded attributes come back exactly when the event has a detail
and the detail is faithful: `Etree` is assumed to read back the event that is generated. -/
theorem recorded_attributes_return_iff (py : Runtime) (et : Etree) (xml out : List UInt8)
    (root : Element) (intake second : Intake) (c : CTO) (event : et.fromstring xml = .ok root)
    (parsed : cotXmlToCto py et xml intake = .ok c) (sent : ctoToCotXml py et c = .ok (out, []))
    (reads : ∀ e lossy, ctoToEvent py c = .ok (e, lossy) →
      et.fromstring (Text.encode (et.tostring e)) = .ok (reread e)) :
    (∃ d, cotXmlToCto py et out second = .ok d ∧
      ∀ name ∈ ["cot_detail", "cot_event_extras", "cot_how"],
        Option.Rel Same (c.attributes.get? name) (d.attributes.get? name)) ↔
      ∃ detail, root.find "detail" = some detail ∧ Faithful py detail := by
  obtain ⟨h, t, s, u, _, _, _, _, built⟩ := eventToCto_eq_ok (cotXmlToCto_eq_ok parsed event)
  obtain ⟨e, made, rfl⟩ := ctoToCotXml_eq_ok_iff.mp sent
  have received := reads e [] made
  rw [built] at made ⊢
  obtain ⟨w⟩ := ctoToEvent_eq_ok made
  rw [cotXmlToCto_generated w second received, ← attributes_reread_iff w]
  constructor
  · rintro ⟨d, read, kept⟩
    rw [← Except.ok.inj read] at kept
    exact kept
  · exact fun kept => ⟨_, rfl, kept⟩

def contact : Element := .mk "contact" (ofList [("callsign", "BRAVO")]) none []

def group : Element := .mk "__group" (ofList [("name", "Cyan")]) none []

def labelled : List Element := [contact, group]

theorem plain_group : Plain group := by
  rw [group, Plain, AllPlain]
  refine ⟨⟨?_, fun s text => absurd text (Option.not_mem_none s)⟩, trivial⟩
  intro name named mark
  rw [List.mem_singleton.mp named] at mark
  cases mark

theorem recorded_attributes_return_labelled :
    ∃ d, cotXmlToCto plainRuntime (reportEtree unsurveyed labelled)
        (Text.encode (writeElement (reportEvent unsurveyed labelled))) reportIntake = .ok d ∧
      ∀ name ∈ ["cot_detail", "cot_event_extras", "cot_how"],
        Option.Rel Same ((reportCto unsurveyed labelled).attributes.get? name)
          (d.attributes.get? name) := by
  refine (recorded_attributes_return_iff plainRuntime (reportEtree unsurveyed labelled)
    (document (report unsurveyed labelled)) _ (report unsurveyed labelled) reportIntake reportIntake
    (reportCto unsurveyed labelled) report_event (report_parsed report_event rfl rfl)
    (ctoToCotXml_eq_ok_iff.mpr ⟨_, report_generated, rfl⟩) report_rereads).mpr
    ⟨.mk "detail" .empty none labelled, rfl, ?_⟩
  have shown : ContactTyped (.mk "detail" .empty none labelled) :=
    ⟨contact, rfl, "BRAVO", rfl, by decide⟩
  refine ⟨?_, ?_, ?_, ?_⟩
  · intro _
    refine ⟨contact, rfl, ⟨fun s text => absurd text (Option.not_mem_none s), rfl⟩, ?_⟩
    intro name named
    exact List.mem_singleton.mp named
  · rintro ⟨track, found, _⟩
    cases found
  · rintro ⟨rem, found, _⟩
    cases found
  · intro e member no_contact _ _
    simp only [Element.children_mk, labelled, List.mem_cons, List.not_mem_nil, or_false] at member
    rcases member with rfl | rfl
    · exact absurd shown (no_contact rfl)
    · exact plain_group

/-- A second contact disappears, and nothing is reported. -/
theorem second_contact_lost :
    cotXmlToCto plainRuntime (reportEtree unsurveyed [contact, contact])
        (document (report unsurveyed [contact, contact])) reportIntake =
          .ok (reportCto unsurveyed [contact, contact]) ∧
      ctoToCotXml plainRuntime (reportEtree unsurveyed [contact, contact])
          (reportCto unsurveyed [contact, contact]) =
        .ok (Text.encode (writeElement (reportEvent unsurveyed [contact, contact])), []) ∧
      (∀ e lossy, ctoToEvent plainRuntime (reportCto unsurveyed [contact, contact]) =
        .ok (e, lossy) →
        (reportEtree unsurveyed [contact, contact]).fromstring
          (Text.encode ((reportEtree unsurveyed [contact, contact]).tostring e)) = .ok (reread e)) ∧
      ¬ ∃ d, cotXmlToCto plainRuntime (reportEtree unsurveyed [contact, contact])
          (Text.encode (writeElement (reportEvent unsurveyed [contact, contact]))) reportIntake =
            .ok d ∧
        ∀ name ∈ ["cot_detail", "cot_event_extras", "cot_how"],
          Option.Rel Same ((reportCto unsurveyed [contact, contact]).attributes.get? name)
            (d.attributes.get? name) := by
  refine ⟨report_parsed report_event rfl rfl, ctoToCotXml_eq_ok_iff.mpr ⟨_, report_generated, rfl⟩,
    report_rereads, ?_⟩
  rintro ⟨d, read, kept⟩
  have made : ctoToEvent plainRuntime (reportCto unsurveyed [contact, contact]) =
      .ok (reportEvent unsurveyed [contact, contact], []) := report_generated
  obtain ⟨w⟩ := ctoToEvent_eq_ok made
  have back := (cotXmlToCto_generated w reportIntake (report_rereads _ _ made)).symm.trans read
  rw [← Except.ok.inj back] at kept
  obtain ⟨detail, there, faithful⟩ := (attributes_reread_iff w).mp kept
  cases Option.some.inj there
  obtain ⟨e, sole, _⟩ := faithful.contact ⟨contact, rfl, "BRAVO", rfl, by decide⟩
  cases sole

end TacticalGateway.Normalizers
