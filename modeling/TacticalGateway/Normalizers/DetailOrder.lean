import TacticalGateway.Lib.Grouping
import TacticalGateway.Normalizers.DetailStable

/-! The order of the elements that are emitted for a subtree, and which elements are emitted as
they were. -/
namespace TacticalGateway.Normalizers
open ElementTree Grouping
open Json (Value)

theorem keys_addNode (result : Dict String Value) (key : String) (node : Value) :
    (addNode result key node).keys =
      if key ∈ result.keys then result.keys else result.keys ++ [key] := by
  have keys (v : Value) : (result.set key v).keys =
      if key ∈ result.keys then result.keys else result.keys ++ [key] := by
    rw [Dict.keys_set]
  unfold addNode
  split
  · exact keys _
  · exact keys _
  · exact keys _

theorem keys_collect (result : Dict String Value) (children : List Element) :
    (collect result children).keys = result.keys ++
      ((children.map Element.tag).filter (fun tag => tag ∉ result.keys)).eraseDups := by
  induction children generalizing result with
  | nil => simp [collect]
  | cons e children ih =>
    rw [collect, ih, keys_addNode, List.map_cons]
    by_cases known : e.tag ∈ result.keys
    · rw [if_pos known, List.filter_cons_of_neg (by simpa using known)]
    · rw [if_neg known, List.filter_cons_of_pos (by simpa using known), List.eraseDups_cons,
        List.append_assoc, List.singleton_append, List.filter_filter]
      congr 3
      refine List.filter_congr fun tag _ => ?_
      by_cases same : tag = e.tag
      · simp [same]
      · simp [same]

theorem keys_detail (detail : Element) :
    (detailToAttributes detail).keys = (detail.children.map Element.tag).eraseDups := by
  rw [detailToAttributes, keys_collect]
  simp [Dict.keys, Dict.empty]

theorem emitItems_detail (detail : Element) :
    emitItems (detailToAttributes detail).items =
      (grouped Element.tag detail.children).map again := by
  have nodes : ∀ i ∈ (detailToAttributes detail).items, emitDetailNode i.1 i.2 =
      (detail.children.filter (fun e => e.tag = i.1)).map again := by
    intro i member
    have found : (detailToAttributes detail).get? i.1 = some i.2 := Dict.get?_of_mem member
    rw [get?_detail] at found
    exact emit_pack i.1 (fun e own => by simpa using (List.mem_filter.mp own).2) found
  rw [emitItems_eq, List.flatMap_congr nodes, grouped, ← keys_detail, Dict.keys,
    List.flatMap_map, List.map_flatMap]

theorem emitItems_filter (already : List String) (items : List (String × Value)) :
    emitItems (items.filter (fun i => i.1 ∉ already)) =
      (emitItems items).filter (fun e => e.tag ∉ already) := by
  induction items with
  | nil => rfl
  | cons i items ih =>
    obtain ⟨tag, node⟩ := i
    rw [emitItems, List.filter_append, ← ih]
    by_cases known : tag ∈ already
    · have skipped : (emitDetailNode tag node).filter (fun e => e.tag ∉ already) = [] := by
        rw [List.filter_eq_nil_iff]
        intro e member
        simpa [tag_emitDetailNode tag node e member] using known
      rw [List.filter_cons_of_neg (by simpa using known), skipped, List.nil_append]
    · have kept : (emitDetailNode tag node).filter (fun e => e.tag ∉ already) =
          emitDetailNode tag node := by
        rw [List.filter_eq_self]
        intro e member
        simpa [tag_emitDetailNode tag node e member] using known
      rw [List.filter_cons_of_pos (by simpa using known), kept, emitItems]

@[simp] theorem tag_again (e : Element) : (again e).tag = e.tag := rfl

@[simp] theorem tag_returned (e : Element) : (returned e).tag = e.tag := by
  rw [returned, tag_reread, tag_again]

theorem emit_without (detail : Element) (already : List String) :
    emitItems ((detailToAttributes detail).items.filter (fun i => i.1 ∉ already)) =
      (grouped Element.tag (detail.children.filter (fun e => e.tag ∉ already))).map again := by
  have kept : grouped Element.tag (detail.children.filter (fun e => e.tag ∉ already)) =
      (grouped Element.tag detail.children).filter (fun e => e.tag ∉ already) :=
    grouped_filter (fun tag => decide (tag ∉ already)) detail.children
  rw [emitItems_filter, emitItems_detail, kept, List.filter_map]
  rfl

theorem children_again_grouped (e : Element) :
    (again e).children = (grouped Element.tag e.children).map again := by
  have below : (again e).children = emitChildren (nodeDict e).items := rfl
  rw [below, emitChildren_eq, Json.lookup_items, get?_nodeDict_children]
  by_cases leaf : e.children = []
  · rw [if_pos leaf, leaf]
    cases e.attrib.get? "_children" <;> rfl
  · rw [if_neg leaf]
    exact emitItems_detail e

section Settled

theorem attrs_set_marked (d : Dict String Value) {key : String}
    (mark : "_".toList.isPrefixOf key.toList = true) (v : Value) :
    attrsOf (d.set key v).items = attrsOf d.items := by
  have dropped : (attrText key v).map (fun s => (key, s)) = none := by
    rw [attrText_underscore mark]
    rfl
  have same : (d.set key v).items.filterMap (fun m => (attrText m.1 m.2).map (fun s => (m.1, s))) =
      d.items.filterMap (fun m => (attrText m.1 m.2).map (fun s => (m.1, s))) := by
    rw [Dict.items_set]
    split
    · rw [List.filterMap_map]
      refine List.filterMap_congr fun i _ => ?_
      by_cases own : i.1 = key
      · simp only [Function.comp_apply, if_pos own]
        rw [dropped, own, attrText_underscore mark]
        rfl
      · simp only [Function.comp_apply, if_neg own]
    · have last : [(key, v)].filterMap
          (fun m => (attrText m.1 m.2).map (fun s => (m.1, s))) = [] := by
        simp only [List.filterMap_cons, dropped, List.filterMap_nil]
      rw [List.filterMap_append, last, List.append_nil]
  rw [attrsOf, attrsOf, same]

theorem attrsOf_strAttrib {attrib : Dict String String}
    (plain : ∀ name ∈ attrib.keys, ¬ "_".toList.isPrefixOf name.toList = true) :
    attrsOf (strAttrib attrib).items = attrib := by
  have kept : (strAttrib attrib).items.filterMap
      (fun m => (attrText m.1 m.2).map (fun s => (m.1, s))) = attrib.items := by
    rw [strAttrib, List.filterMap_map]
    refine (List.filterMap_congr fun i member => ?_).trans (List.filterMap_some)
    have unmarked := plain i.1 (List.mem_map_of_mem member)
    simp only [Function.comp_apply, attrText]
    rw [if_neg unmarked]
    rfl
  refine Dict.ext_items ?_
  rw [attrsOf, kept]
  exact items_foldl_set attrib.items .empty attrib.distinct (fun _ _ => List.not_mem_nil)

variable {x : Element}

theorem attrib_again (plain : unmarked x = true) : (again x).attrib = x.attrib := by
  obtain ⟨tag, attrib, text, children⟩ := x
  have names : ∀ name ∈ attrib.keys, ¬ "_".toList.isPrefixOf name.toList = true :=
    ((unmarked_iff _).mp plain).1
  change attrsOf (nodeDict (.mk tag attrib text children)).items = attrib
  rw [nodeDict]
  have body : attrsOf (withText (strAttrib attrib) text).items = attrib := by
    unfold withText
    split
    · split
      · rw [attrs_set_marked _ (by decide), attrsOf_strAttrib names]
      · exact attrsOf_strAttrib names
    · exact attrsOf_strAttrib names
  unfold withChildren
  split
  · exact body
  · rw [attrs_set_marked _ (by decide), body]

theorem unmarked_again (e : Element) : unmarked (again e) = true := by
  rw [unmarked_iff]
  constructor
  · intro name there mark
    have found := get?_attrib_returned e name
    rw [returned, attrib_reread] at found
    have absent : (again e).attrib.get? name = none := by
      rw [found]
      cases (nodeDict e).get? name with
      | none => rfl
      | some v => exact attrText_underscore mark v
    exact (Dict.get?_eq_none_iff _ _).mp absent there
  · intro c member
    rw [children_again_grouped] at member
    obtain ⟨d, among, rfl⟩ := List.mem_map.mp member
    have smaller : sizeOf d < sizeOf e := sizeOf_child (mem_grouped.mp among)
    exact unmarked_again d
termination_by sizeOf e

theorem unmarked_reread (e : Element) : unmarked (reread e) = true ↔ unmarked e = true := by
  rw [unmarked_iff, unmarked_iff, attrib_reread, children_reread]
  refine and_congr_right fun _ => ?_
  rw [List.forall_mem_map]
  refine forall₂_congr fun c member => ?_
  have smaller : sizeOf c < sizeOf e := sizeOf_child member
  exact unmarked_reread c
termination_by sizeOf e

/-- An element without marks that the parser has read: nothing about it is lost any more. -/
structure Settled (x : Element) : Prop where
  plain : unmarked x = true
  read : reread x = x

theorem settled_returned (e : Element) : Settled (returned e) :=
  ⟨(unmarked_reread _).mpr (unmarked_again e), reread_reread _⟩

theorem Settled.child (settled : Settled x) {c : Element} (member : c ∈ x.children) :
    Settled c := by
  refine ⟨((unmarked_iff x).mp settled.plain).2 c member, ?_⟩
  have same := congrArg Element.children settled.read
  rw [children_reread] at same
  exact (List.map_eq_map_iff.mp (same.trans (List.map_id _).symm)) c member

theorem Settled.storedText (settled : Settled x) :
    storedText x = x.text.bind (fun s => if strip s ≠ "" then some (strip s) else none) := by
  have marked : x.attrib.get? "_text" = none := get?_of_marked settled.plain (by decide)
  rw [Normalizers.storedText, marked]
  cases x.text <;> rfl

theorem Settled.text_read (settled : Settled x) {s : String} (own : x.text = some s) :
    '\r' ∉ s.toList := by
  have same := congrArg Element.text settled.read
  rw [text_reread, own] at same
  exact not_mem_of_reread same

theorem not_mem_strip {s : String} (absent : '\r' ∉ s.toList) : '\r' ∉ (strip s).toList := by
  rw [strip, String.toList_ofList]
  exact stripChars_no_return absent

theorem rereadText_of_not_mem {s : String} (full : s ≠ "") (absent : '\r' ∉ s.toList) :
    rereadText (some s) = some s := by
  rw [rereadText, if_neg full, newlines_of_not_mem absent, String.ofList_toList]

theorem Settled.storedText_returned (settled : Settled x) :
    Normalizers.storedText (returned x) = Normalizers.storedText x := by
  rw [Normalizers.storedText_returned, settled.storedText]
  cases own : x.text with
  | none => rfl
  | some s =>
    rw [Option.bind_some]
    by_cases blank : strip s = ""
    · rw [if_neg (by simp [blank])]
      rfl
    · rw [if_pos blank, rereadText_of_not_mem blank (not_mem_strip (settled.text_read own)),
        Option.bind_some, strip_strip, if_pos blank]

theorem children_returned_grouped (e : Element) :
    (returned e).children = (grouped Element.tag e.children).map returned := by
  rw [returned, children_reread, children_again_grouped, List.map_map]
  rfl

theorem Settled.again_returned {e : Element} (settled : Settled e) :
    again (returned e) = again e := by
  have back := settled_returned e
  refine Element.ext_parts ?_ ?_ ?_ ?_
  · simp
  · rw [attrib_again back.plain, returned, attrib_reread]
  · have texts := settled.storedText_returned
    rw [← textOf_nodeDict, ← textOf_nodeDict] at texts
    exact texts
  · rw [children_again_grouped, children_again_grouped, children_returned_grouped,
      grouped_map tag_returned, grouped_grouped, List.map_map]
    refine List.map_congr_left fun c among => ?_
    have member : c ∈ e.children := mem_grouped.mp among
    have smaller : sizeOf c < sizeOf e := sizeOf_child member
    exact (settled.child member).again_returned
termination_by sizeOf e

end Settled

end TacticalGateway.Normalizers
