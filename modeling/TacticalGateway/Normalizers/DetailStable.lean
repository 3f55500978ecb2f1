import TacticalGateway.Normalizers.DetailContent

/-! The dictionary of a `<detail>` subtree, the elements emitted from it, and the dictionary of
these: it is the first one again. -/
namespace TacticalGateway.Normalizers
open ElementTree
open Json (Value Same)

mutual

/-- No attribute has a name with a leading underscore. -/
def unmarked : Element → Bool
  | .mk _ attrib _ children =>
    attrib.keys.all (fun name => !"_".toList.isPrefixOf name.toList) && unmarkedAll children

def unmarkedAll : List Element → Bool
  | [] => true
  | e :: es => unmarked e && unmarkedAll es

end

/-- `_emit_detail_for_pb`: the body of `_emit_detail_node` a second time. -/
def emitDetailForPb (tag : String) (node : Value) : List Element := emitDetailNode tag node

def rebuilt (emit : String → Value → List Element) (d : Dict String Value) : Element :=
  .mk "detail" .empty none (d.items.flatMap (fun i => emit i.1 i.2))

variable {e : Element}

theorem emitItems_eq (items : List (String × Value)) :
    emitItems items = items.flatMap (fun i => emitDetailNode i.1 i.2) := by
  induction items with
  | nil => rfl
  | cons i items ih => rw [emitItems, ih, List.flatMap_cons]

theorem unmarkedAll_iff (es : List Element) :
    unmarkedAll es = true ↔ ∀ e ∈ es, unmarked e = true := by
  induction es with
  | nil => simp [unmarkedAll]
  | cons e es ih => rw [unmarkedAll, Bool.and_eq_true, ih, List.forall_mem_cons]

theorem unmarked_iff (e : Element) : unmarked e = true ↔
    (∀ name ∈ e.attrib.keys, ¬ "_".toList.isPrefixOf name.toList = true) ∧
      ∀ c ∈ e.children, unmarked c = true := by
  obtain ⟨tag, attrib, text, children⟩ := e
  have names : attrib.keys.all (fun name => !"_".toList.isPrefixOf name.toList) = true ↔
      ∀ name ∈ attrib.keys, ¬ "_".toList.isPrefixOf name.toList = true := by
    rw [List.all_eq_true]
    exact forall₂_congr (fun name _ => by rw [Bool.not_eq_true', Bool.not_eq_true])
  rw [unmarked, Bool.and_eq_true, unmarkedAll_iff, names]
  rfl

theorem get?_of_marked (plain : unmarked e = true) {name : String}
    (mark : "_".toList.isPrefixOf name.toList = true) : e.attrib.get? name = none := by
  rw [Dict.get?_eq_none_iff]
  exact fun there => ((unmarked_iff e).mp plain).1 name there mark

theorem get?_attrib_again (plain : unmarked e = true) (name : String) :
    (again e).attrib.get? name = e.attrib.get? name := by
  have attrs : (again e).attrib.get? name = ((nodeDict e).get? name).bind (attrText name) :=
    get?_attrsOf (nodeDict e).distinct name
  by_cases mark : "_".toList.isPrefixOf name.toList = true
  · rw [attrs, get?_of_marked plain mark]
    cases (nodeDict e).get? name with
    | none => rfl
    | some v => exact attrText_underscore mark v
  · have text : name ≠ "_text" := fun same => mark (by rw [same]; decide)
    have children : name ≠ "_children" := fun same => mark (by rw [same]; decide)
    rw [attrs, get?_nodeDict_other e text children]
    cases e.attrib.get? name with
    | none => rfl
    | some s => exact if_neg mark

theorem storedText_again (plain : unmarked e = true) : storedText (again e) = storedText e := by
  have text : (again e).text = storedText e := textOf_nodeDict e
  have none_there : e.attrib.get? "_text" = none := get?_of_marked plain (by decide)
  rw [storedText, text, get?_attrib_again plain, storedText, none_there]
  cases e.text with
  | none => rfl
  | some s =>
    by_cases blank : strip s = ""
    · simp [blank]
    · simp [blank, strip_strip]

theorem children_again (plain : unmarked e = true) :
    (again e).children = emitItems (detailToAttributes e).items := by
  have below : (again e).children = emitChildren (nodeDict e).items := rfl
  rw [below, emitChildren_eq, Json.lookup_items, get?_nodeDict_children]
  by_cases leaf : e.children = []
  · rw [if_pos leaf, get?_of_marked plain (by decide)]
    obtain ⟨tag, attrib, text, children⟩ := e
    cases leaf
    rfl
  · rw [if_neg leaf]
    rfl

theorem filter_emitted (e : Element) (tag : String) :
    (emitItems (detailToAttributes e).items).filter (fun c => c.tag = tag) =
      (e.children.filter (fun c => c.tag = tag)).map again := by
  have emitted := filter_emit_detail e [] tag
  simpa only [List.not_mem_nil, not_false_eq_true, decide_true, List.filter_true, if_false]
    using emitted

theorem sameDetail_emitted {f : Element}
    (children : f.children = emitItems (detailToAttributes e).items)
    (nodes : ∀ c ∈ e.children, Same (nodeOf (again c)) (nodeOf c)) : SameDetail f e := by
  rw [sameDetail_iff]
  intro tag
  rw [children, filter_emitted, List.forall₂_map_left_iff, List.forall₂_same]
  exact fun c member => nodes c (List.mem_of_mem_filter member)

theorem same_node_again (e : Element) (plain : unmarked e = true) :
    Same (nodeOf (again e)) (nodeOf e) := by
  have below := ((unmarked_iff e).mp plain).2
  rw [same_node_iff]
  constructor
  · exact ⟨fun name _ _ => get?_attrib_again plain name, storedText_again plain,
      fun _ _ => get?_attrib_again plain "_children"⟩
  · refine sameDetail_emitted (children_again plain) ?_
    intro c member
    have smaller : sizeOf c < sizeOf e := sizeOf_child member
    exact same_node_again c (below c member)
termination_by sizeOf e

/-- Emitting again and recording again changes nothing, by either of the two functions. -/
theorem detail_stable (detail : Element) (plain : unmarked detail = true) :
    SameDetail (rebuilt emitDetailNode (detailToAttributes detail)) detail ∧
      SameDetail (rebuilt emitDetailForPb (detailToAttributes detail)) detail := by
  have below := ((unmarked_iff detail).mp plain).2
  have stable : SameDetail (rebuilt emitDetailNode (detailToAttributes detail)) detail :=
    sameDetail_emitted (emitItems_eq _).symm (fun c member => same_node_again c (below c member))
  exact ⟨stable, stable⟩

/-- Interleaved elements, one of them with text, an attribute and an element below. -/
def markedUp : Element :=
  .mk "detail" .empty none [.mk "link" (ofList [("uid", "UNIT-7")]) none [],
    .mk "note" .empty (some " hold ") [.mk "ref" .empty none []], .mk "link" .empty none []]

theorem detail_stable_markedUp :
    SameDetail (rebuilt emitDetailNode (detailToAttributes markedUp)) markedUp ∧
      SameDetail (rebuilt emitDetailForPb (detailToAttributes markedUp)) markedUp :=
  detail_stable markedUp (by decide)

end TacticalGateway.Normalizers
