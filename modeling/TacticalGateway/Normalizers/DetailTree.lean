import TacticalGateway.Lib.ElementTree
import TacticalGateway.Lib.JsonEqual

/-! The nested dictionary that stands for a `<detail>` subtree, the elements emitted from it, and
which elements come back as they were. -/
namespace TacticalGateway.Normalizers
open ElementTree
open Json (Value Same)

/-- The characters that `str.strip` removes. -/
def isSpace (c : Char) : Bool :=
  c ∈ ['\t', '\n', '\x0b', '\x0c', '\r', '\x1c', '\x1d', '\x1e', '\x1f', ' ', '\x85', '\xa0',
    '\u1680', '\u2000', '\u2001', '\u2002', '\u2003', '\u2004', '\u2005', '\u2006', '\u2007',
    '\u2008', '\u2009', '\u200a', '\u2028', '\u2029', '\u202f', '\u205f', '\u3000']

def stripLeft (cs : List Char) : List Char := cs.dropWhile isSpace

def stripChars (cs : List Char) : List Char := (stripLeft (stripLeft cs).reverse).reverse

def strip (s : String) : String := String.ofList (stripChars s.toList)

theorem stripLeft_prefix {cs ds : List Char} (front : ds <+: stripLeft cs) : stripLeft ds = ds := by
  cases ds with
  | nil => rfl
  | cons d ds =>
    obtain ⟨rest, whole⟩ := front
    have first : isSpace d = false := by
      have head := List.head?_dropWhile_not isSpace cs
      rw [← stripLeft, ← whole] at head
      simpa using head
    exact List.dropWhile_cons_of_neg (by simp [first])

theorem strip_strip (s : String) : strip (strip s) = strip s := by
  have trimmed : stripLeft (stripChars s.toList) = stripChars s.toList := by
    apply stripLeft_prefix
    rw [stripChars, ← List.reverse_suffix, List.reverse_reverse]
    exact List.dropWhile_suffix _
  have twice : stripChars (stripChars s.toList) = stripChars s.toList := by
    conv_lhs => rw [stripChars, trimmed]
    rw [stripChars, List.reverse_reverse, stripLeft, stripLeft, List.dropWhile_idempotent]
  rw [strip, strip, String.toList_ofList, twice]

/-- `s.split()`. -/
def splitWords (s : String) : List String :=
  ((s.toList.splitOnP isSpace).filter (· ≠ [])).map String.ofList

theorem distinct_strAttrib (attrib : Dict String String) :
    ((attrib.items.map (fun i => (i.1, Value.str i.2))).map Prod.fst).Nodup := by
  rw [List.map_map]
  exact attrib.distinct

/-- `node.update(child.attrib)` of an empty dictionary. -/
def strAttrib (attrib : Dict String String) : Dict String Value :=
  ⟨attrib.items.map (fun i => (i.1, .str i.2)), distinct_strAttrib attrib⟩

def withText (node : Dict String Value) (text : Option String) : Dict String Value :=
  match text with
  | some s => if strip s ≠ "" then node.set "_text" (.str (strip s)) else node
  | none => node

def withChildren (node : Dict String Value) (children : List Element)
    (subtree : Dict String Value) :
    Dict String Value :=
  if children.isEmpty then node else node.set "_children" (.obj subtree.items)

/-- A node under its tag: a second one makes a list of the two, a later one is appended. -/
def addNode (result : Dict String Value) (key : String) (node : Value) : Dict String Value :=
  match result.get? key with
  | none => result.set key node
  | some (.arr nodes) => result.set key (.arr (nodes ++ [node]))
  | some first => result.set key (.arr [first, node])

mutual

def nodeDict : Element → Dict String Value
  | .mk _ attrib text children =>
    withChildren (withText (strAttrib attrib) text) children (collect .empty children)

def collect (result : Dict String Value) : List Element → Dict String Value
  | [] => result
  | child :: rest => collect (addNode result child.tag (.obj (nodeDict child).items)) rest

end

def nodeOf (e : Element) : Value := .obj (nodeDict e).items

def detailToAttributes (detail : Element) : Dict String Value := collect .empty detail.children

mutual

/-- How many calls of `_detail_to_attributes` are open at once on an element. -/
def nesting : Element → Nat
  | .mk _ _ _ children => nestingBelow children + 1

def nestingBelow : List Element → Nat
  | [] => 0
  | child :: rest => max (if child.children = [] then 0 else nesting child) (nestingBelow rest)

end

def ofList (items : List (String × String)) : Dict String String :=
  items.foldl (fun d i => d.set i.1 i.2) .empty

/-- What an emitted element takes from an item: text under a key without a leading underscore. -/
def attrText (key : String) : Value → Option String
  | .str s => if "_".toList.isPrefixOf key.toList then none else some s
  | _ => none

def attrsOf (node : List (String × Value)) : Dict String String :=
  ofList (node.filterMap (fun m => (attrText m.1 m.2).map (fun s => (m.1, s))))

def textOf (node : List (String × Value)) : Option String :=
  match Json.lookup "_text" node with
  | some (.str s) => some s
  | _ => none

mutual

def emitDetailNode (tag : String) : Value → List Element
  | .arr nodes => emitAll tag nodes
  | .obj node => [.mk tag (attrsOf node) (textOf node) (emitChildren node)]
  | _ => []

def emitAll (tag : String) : List Value → List Element
  | [] => []
  | node :: nodes => emitDetailNode tag node ++ emitAll tag nodes

def emitChildren : List (String × Value) → List Element
  | [] => []
  | (key, value) :: rest => if key = "_children" then emitSubtree value else emitChildren rest

def emitSubtree : Value → List Element
  | .obj children => emitItems children
  | _ => []

def emitItems : List (String × Value) → List Element
  | [] => []
  | (tag, node) :: rest => emitDetailNode tag node ++ emitItems rest

end

theorem get?_strAttrib (attrib : Dict String String) (key : String) :
    (strAttrib attrib).get? key = (attrib.get? key).map .str := by
  simp only [Dict.get?, strAttrib, List.find?_map, Option.map_map]
  rfl

/-- The text that a node holds, its own or that of an attribute of this name. -/
def storedText (e : Element) : Option String :=
  match e.text with
  | some s => if strip s ≠ "" then some (strip s) else e.attrib.get? "_text"
  | none => e.attrib.get? "_text"

theorem get?_withText_text (attrib : Dict String String) (text : Option String) :
    (withText (strAttrib attrib) text).get? "_text" =
      (match text with
        | some s => if strip s ≠ "" then some (strip s) else attrib.get? "_text"
        | none => attrib.get? "_text").map .str := by
  unfold withText
  cases text with
  | none => exact get?_strAttrib _ _
  | some s =>
    by_cases blank : strip s = ""
    · simp only [blank, ne_eq, not_true_eq_false, if_false, get?_strAttrib]
    · simp only [blank, ne_eq, not_false_eq_true, if_true, Dict.get?_set_self, Option.map_some]

theorem get?_withText_ne (attrib : Dict String String) (text : Option String) {key : String}
    (other : key ≠ "_text") :
    (withText (strAttrib attrib) text).get? key = (attrib.get? key).map .str := by
  unfold withText
  split
  · split
    · rw [Dict.get?_set_ne _ _ other, get?_strAttrib]
    · exact get?_strAttrib _ _
  · exact get?_strAttrib _ _

theorem get?_nodeDict_text (e : Element) :
    (nodeDict e).get? "_text" = (storedText e).map .str := by
  obtain ⟨tag, attrib, text, children⟩ := e
  rw [nodeDict, withChildren]
  split
  · exact get?_withText_text attrib text
  · rw [Dict.get?_set_ne _ _ (by decide)]
    exact get?_withText_text attrib text

theorem get?_nodeDict_children (e : Element) :
    (nodeDict e).get? "_children" =
      if e.children = [] then (e.attrib.get? "_children").map .str
      else some (.obj (detailToAttributes e).items) := by
  obtain ⟨tag, attrib, text, children⟩ := e
  rw [nodeDict, withChildren]
  cases children with
  | nil => exact get?_withText_ne attrib text (by decide)
  | cons child rest => exact Dict.get?_set_self _ _ _

theorem get?_nodeDict_other (e : Element) {key : String} (text : key ≠ "_text")
    (children : key ≠ "_children") : (nodeDict e).get? key = (e.attrib.get? key).map .str := by
  obtain ⟨tag, attrib, body, below⟩ := e
  rw [nodeDict, withChildren]
  split
  · exact get?_withText_ne attrib body text
  · rw [Dict.get?_set_ne _ _ children]
    exact get?_withText_ne attrib body text

theorem items_foldl_set (items : List (String × String)) (d : Dict String String)
    (distinct : (items.map Prod.fst).Nodup) (fresh : ∀ i ∈ items, i.1 ∉ d.keys) :
    (items.foldl (fun d i => d.set i.1 i.2) d).items = d.items ++ items := by
  induction items generalizing d with
  | nil => exact (List.append_nil _).symm
  | cons i items ih =>
    rw [List.map_cons, List.nodup_cons] at distinct
    have new : i.1 ∉ d.keys := fresh i List.mem_cons_self
    have appended : (d.set i.1 i.2).items = d.items ++ [i] := by
      rw [Dict.items_set, if_neg new]
    rw [List.foldl_cons, ih _ distinct.2, appended, List.append_assoc, List.singleton_append]
    intro j later known
    rw [Dict.keys, appended, List.map_append, List.mem_append] at known
    rcases known with old | own
    · exact fresh j (List.mem_cons_of_mem i later) old
    · apply distinct.1
      rw [← List.mem_singleton.mp own]
      exact List.mem_map_of_mem later

theorem attr_keys_subset (node : List (String × Value)) :
    ((node.filterMap (fun m => (attrText m.1 m.2).map (fun s => (m.1, s)))).map Prod.fst).Sublist
      (node.map Prod.fst) := by
  induction node with
  | nil => exact List.Sublist.refl _
  | cons m node ih =>
    rw [List.filterMap_cons]
    cases attrText m.1 m.2 with
    | none => exact ih.cons m.1
    | some s => exact ih.cons_cons m.1

theorem find?_attrs (node : List (String × Value)) (distinct : (node.map Prod.fst).Nodup)
    (key : String) :
    ((node.filterMap (fun m => (attrText m.1 m.2).map (fun s => (m.1, s)))).find?
        (fun i => i.1 = key)).map Prod.snd = (Json.lookup key node).bind (attrText key) := by
  induction node with
  | nil => rfl
  | cons m node ih =>
    obtain ⟨name, v⟩ := m
    rw [List.map_cons, List.nodup_cons] at distinct
    have rest := ih distinct.2
    by_cases own : name = key
    · subst own
      have found : Json.lookup name ((name, v) :: node) = some v := by simp [Json.lookup]
      have later : Json.lookup name node = none := Json.lookup_eq_none_iff.mpr distinct.1
      rw [found, Option.bind_some, List.filterMap_cons]
      rw [later, Option.bind_none] at rest
      cases text : attrText name v with
      | none => simpa [text] using rest
      | some s => simp
    · have found : Json.lookup key ((name, v) :: node) = Json.lookup key node := by
        simp [Json.lookup, own]
      rw [found, ← rest, List.filterMap_cons]
      cases attrText name v with
      | none => rfl
      | some s => simp [own]

theorem get?_attrsOf {node : List (String × Value)} (distinct : (node.map Prod.fst).Nodup)
    (key : String) : (attrsOf node).get? key = (Json.lookup key node).bind (attrText key) := by
  have items := items_foldl_set
    (node.filterMap (fun m => (attrText m.1 m.2).map (fun s => (m.1, s)))) Dict.empty
    (distinct.sublist (attr_keys_subset node)) (fun _ _ => List.not_mem_nil)
  rw [attrsOf, ofList, Dict.get?, items]
  exact find?_attrs node distinct key

theorem emitChildren_eq (node : List (String × Value)) :
    emitChildren node =
      match Json.lookup "_children" node with
      | some value => emitSubtree value
      | none => [] := by
  induction node with
  | nil => rfl
  | cons m node ih =>
    obtain ⟨key, v⟩ := m
    by_cases own : key = "_children"
    · subst own
      have found : Json.lookup "_children" (("_children", v) :: node) = some v := by
        simp [Json.lookup]
      rw [found, emitChildren, if_pos rfl]
    · have found : Json.lookup "_children" ((key, v) :: node) = Json.lookup "_children" node := by
        simp [own, Json.lookup]
      rw [emitChildren, if_neg own, ih, found]

mutual

theorem tag_emitDetailNode (tag : String) : ∀ node :
    Value, ∀ e ∈ emitDetailNode tag node, e.tag = tag
  | .arr nodes => by
    rw [emitDetailNode]
    exact tag_emitAll tag nodes
  | .obj node => by
    rw [emitDetailNode]
    exact fun e member => List.mem_singleton.mp member ▸ rfl
  | .null => by simp [emitDetailNode]
  | .bool _ => by simp [emitDetailNode]
  | .num _ => by simp [emitDetailNode]
  | .str _ => by simp [emitDetailNode]

theorem tag_emitAll (tag : String) : ∀ nodes : List Value, ∀ e ∈ emitAll tag nodes, e.tag = tag
  | [] => by simp [emitAll]
  | node :: nodes => by
    rw [emitAll, List.forall_mem_append]
    exact ⟨tag_emitDetailNode tag node, tag_emitAll tag nodes⟩

end

/-- How several nodes of one tag are kept. -/
def pack : List Value → Option Value
  | [] => none
  | [node] => some node
  | nodes => some (.arr nodes)

theorem get?_addNode_self {result : Dict String Value} {key : String} {es : List Element}
    (packed : result.get? key = pack (es.map nodeOf)) (e : Element) :
    (addNode result key (nodeOf e)).get? key = pack ((es ++ [e]).map nodeOf) := by
  unfold addNode
  rw [packed]
  match es with
  | [] => exact Dict.get?_set_self _ _ _
  | [first] => exact Dict.get?_set_self _ _ _
  | first :: second :: rest =>
    simp only [List.map_cons, pack, Dict.get?_set_self, List.map_append, List.cons_append,
      List.map_nil]

theorem get?_addNode_ne {result : Dict String Value} {key other : String} (node : Value)
    (apart : other ≠ key) : (addNode result key node).get? other = result.get? other := by
  unfold addNode
  split <;> exact Dict.get?_set_ne _ _ apart

theorem get?_collect {result : Dict String Value} {key : String} {seen : List Element}
    (packed : result.get? key = pack (seen.map nodeOf)) (children : List Element) :
    (collect result children).get? key =
      pack ((seen ++ children.filter (fun e => e.tag = key)).map nodeOf) := by
  induction children generalizing result seen with
  | nil => simpa [collect] using packed
  | cons e children ih =>
    change (collect (addNode result e.tag (nodeOf e)) children).get? key = _
    by_cases own : e.tag = key
    · subst own
      rw [ih (get?_addNode_self packed e), List.filter_cons_of_pos (by simp), List.append_assoc,
        List.singleton_append]
    · rw [ih ((get?_addNode_ne _ (fun same => own same.symm)).trans packed),
        List.filter_cons_of_neg (by simpa using own)]

theorem get?_detail (detail : Element) (key : String) :
    (detailToAttributes detail).get? key =
      pack ((detail.children.filter (fun e => e.tag = key)).map nodeOf) :=
  get?_collect (show Dict.empty.get? key = pack (([] : List Element).map nodeOf) from rfl)
    detail.children

/-- The element that is emitted for the node of an element. -/
def again (e : Element) : Element :=
  .mk e.tag (attrsOf (nodeDict e).items) (textOf (nodeDict e).items)
    (emitChildren (nodeDict e).items)

theorem pack_eq_none_iff {nodes : List Value} : pack nodes = none ↔ nodes = [] := by
  cases nodes with
  | nil => simp [pack]
  | cons first rest => cases rest <;> simp [pack]

theorem emit_pack (tag : String) {es : List Element} (own : ∀ e ∈ es, e.tag = tag) {node : Value}
    (packed : pack (es.map nodeOf) = some node) : emitDetailNode tag node = es.map again := by
  have one {e : Element} (member : e ∈ es) : emitDetailNode tag (nodeOf e) = [again e] := by
    rw [nodeOf, emitDetailNode, again, own e member]
  have all (fs : List Element) (sub : fs ⊆ es) : emitAll tag (fs.map nodeOf) = fs.map again := by
    induction fs with
    | nil => rfl
    | cons f fs ih =>
      rw [List.map_cons, emitAll, one (sub List.mem_cons_self),
        ih (fun e later => sub (List.mem_cons_of_mem f later))]
      rfl
  match es, packed with
  | [first], packed =>
    cases packed
    exact one List.mem_cons_self
  | first :: second :: rest, packed =>
    cases packed
    rw [emitDetailNode]
    exact all _ (List.Subset.refl _)

theorem filter_emitItems {items : List (String × Value)} (distinct : (items.map Prod.fst).Nodup)
    (tag : String) :
    (emitItems items).filter (fun e => e.tag = tag) =
      match Json.lookup tag items with
      | some node => emitDetailNode tag node
      | none => [] := by
  induction items with
  | nil => rfl
  | cons item items ih =>
    obtain ⟨name, node⟩ := item
    rw [List.map_cons, List.nodup_cons] at distinct
    rw [emitItems, List.filter_append, ih distinct.2]
    by_cases own : name = tag
    · subst own
      have later : Json.lookup name items = none := Json.lookup_eq_none_iff.mpr distinct.1
      have found : Json.lookup name ((name, node) :: items) = some node := by simp [Json.lookup]
      rw [later, found, List.append_nil]
      exact List.filter_eq_self.mpr
        (fun e member => by simpa using tag_emitDetailNode name node e member)
    · have found : Json.lookup tag ((name, node) :: items) = Json.lookup tag items := by
        simp [Json.lookup, own]
      have foreign : (emitDetailNode name node).filter (fun e => e.tag = tag) = [] := by
        rw [List.filter_eq_nil_iff]
        intro e member
        simpa [tag_emitDetailNode name node e member] using own
      rw [found, foreign, List.nil_append]

theorem filter_emit_detail (detail : Element) (already : List String) (tag : String) :
    (emitItems ((detailToAttributes detail).items.filter (fun i => i.1 ∉ already))).filter
        (fun e => e.tag = tag) =
      if tag ∈ already then [] else (detail.children.filter (fun e => e.tag = tag)).map again := by
  have distinct := (detailToAttributes detail).distinct
  rw [filter_emitItems (distinct.sublist (List.filter_sublist.map _))]
  by_cases skipped : tag ∈ already
  · have absent : Json.lookup tag
        ((detailToAttributes detail).items.filter (fun i => i.1 ∉ already)) = none := by
      rw [Json.lookup_eq_none_iff]
      intro there
      obtain ⟨i, member, rfl⟩ := List.mem_map.mp there
      exact absurd skipped (by simpa using (List.mem_filter.mp member).2)
    rw [absent, if_pos skipped]
  · have found : Json.lookup tag
        ((detailToAttributes detail).items.filter (fun i => i.1 ∉ already)) =
          (detailToAttributes detail).get? tag := by
      rw [Json.lookup, List.find?_filter, Dict.get?]
      congr 2
      funext i
      by_cases own : i.1 = tag
      · simp [own, skipped]
      · simp [own]
    rw [found, get?_detail, if_neg skipped]
    cases packed : pack ((detail.children.filter (fun e => e.tag = tag)).map nodeOf) with
    | none =>
      rw [List.map_eq_nil_iff.mp (pack_eq_none_iff.mp packed)]
      rfl
    | some node =>
      exact emit_pack tag (fun e member => by simpa using (List.mem_filter.mp member).2) packed

/-- Text that is written, read and stripped to what it was. -/
def Legible (s : String) : Prop := s ≠ "" ∧ strip s = s ∧ '\r' ∉ s.toList

/-- The attributes and the text of the element come back: no attribute has a name with a leading
underscore, unless the text or the children took its place in the dictionary anyway. -/
def OwnKept (e : Element) : Prop :=
  (∀ name ∈ e.attrib.keys, "_".toList.isPrefixOf name.toList →
    name = "_text" ∨ (name = "_children" ∧ e.children ≠ [])) ∧
  ∀ s ∈ storedText e, Legible s

mutual

/-- Nothing of the element and of what is below it is lost or changed between two readings. -/
def Plain : Element → Prop
  | .mk tag attrib text children => OwnKept (.mk tag attrib text children) ∧ AllPlain children

def AllPlain : List Element → Prop
  | [] => True
  | e :: es => Plain e ∧ AllPlain es

end

theorem allPlain_iff (es : List Element) : AllPlain es ↔ ∀ e ∈ es, Plain e := by
  induction es with
  | nil => simp [AllPlain]
  | cons e es ih => rw [AllPlain, ih, List.forall_mem_cons]

/-- The element as it comes back: emitted from its node, written out and read. -/
def returned (e : Element) : Element := reread (again e)

theorem rel_pack {es : List Element} {f : Element → Element} :
    Option.Rel Same (pack (es.map nodeOf)) (pack (es.map (fun e => nodeOf (f e)))) ↔
      ∀ e ∈ es, Same (nodeOf e) (nodeOf (f e)) := by
  match es with
  | [] => simp [pack]
  | [e] => simp [pack]
  | first :: second :: rest =>
    have items : Same (.arr ((first :: second :: rest).map nodeOf))
        (.arr ((first :: second :: rest).map (fun e => nodeOf (f e)))) ↔
        ∀ e ∈ first :: second :: rest, Same (nodeOf e) (nodeOf (f e)) := by
      rw [Same, Json.sameItems_iff, List.forall₂_map_left_iff, List.forall₂_map_right_iff,
        List.forall₂_same]
    rw [← items]
    exact Option.rel_some_some

theorem same_detail_iff {detail other : Element}
    (back : ∀ tag, (other.children.filter (fun e => e.tag = tag)).map nodeOf =
      (detail.children.filter (fun e => e.tag = tag)).map (fun e => nodeOf (returned e))) :
    Same (.obj (detailToAttributes detail).items) (.obj (detailToAttributes other).items) ↔
      ∀ e ∈ detail.children, Same (nodeOf e) (nodeOf (returned e)) := by
  rw [Json.same_obj_iff (detailToAttributes detail).distinct]
  simp only [Json.lookup_items, get?_detail, back, rel_pack, List.mem_filter, decide_eq_true_eq]
  constructor
  · exact fun all e member => all e.tag e ⟨member, rfl⟩
  · exact fun all _ e member => all e member.1

theorem textOf_nodeDict (e : Element) : textOf (nodeDict e).items = storedText e := by
  rw [textOf, Json.lookup_items, get?_nodeDict_text]
  cases storedText e <;> rfl

theorem get?_attrib_returned (e : Element) (key : String) :
    (returned e).attrib.get? key = ((nodeDict e).get? key).bind (attrText key) := by
  rw [returned, attrib_reread]
  exact get?_attrsOf (nodeDict e).distinct key

theorem attrText_underscore {key : String} (mark : "_".toList.isPrefixOf key.toList = true)
    (v : Value) :
    attrText key v = none := by
  unfold attrText
  split
  · exact if_pos mark
  · rfl

theorem attrib_returned_underscore (e : Element) {key : String}
    (mark : "_".toList.isPrefixOf key.toList = true) : (returned e).attrib.get? key = none := by
  rw [get?_attrib_returned]
  cases (nodeDict e).get? key with
  | none => rfl
  | some v => exact attrText_underscore mark v

theorem children_returned (e : Element) :
    (returned e).children =
      if e.children = [] then [] else (emitItems (detailToAttributes e).items).map reread := by
  have below : (again e).children = emitChildren (nodeDict e).items := rfl
  rw [returned, children_reread, below, emitChildren_eq, Json.lookup_items, get?_nodeDict_children]
  by_cases leaf : e.children = []
  · rw [if_pos leaf, if_pos leaf]
    cases e.attrib.get? "_children" <;> rfl
  · rw [if_neg leaf, if_neg leaf]
    rfl

theorem filter_children_returned (e : Element) (tag : String) :
    ((returned e).children.filter (fun c => c.tag = tag)).map nodeOf =
      (e.children.filter (fun c => c.tag = tag)).map (fun c => nodeOf (returned c)) := by
  rw [children_returned]
  by_cases leaf : e.children = []
  · rw [if_pos leaf, leaf]
    rfl
  · have emitted := filter_emit_detail e [] tag
    simp only [List.not_mem_nil, not_false_eq_true, decide_true, List.filter_true, if_false]
      at emitted
    rw [if_neg leaf, List.filter_map, List.map_map]
    have tags : (fun c : Element => decide (c.tag = tag)) ∘ reread =
        fun c => decide (c.tag = tag) := by
      funext c
      simp
    rw [tags, emitted, List.map_map]
    rfl

theorem children_returned_eq_nil (e : Element) : (returned e).children = [] ↔ e.children = [] := by
  constructor
  · intro empty
    by_contra full
    obtain ⟨c, member⟩ := List.exists_mem_of_ne_nil _ full
    have tagged := filter_children_returned e c.tag
    rw [empty] at tagged
    have there : c ∈ e.children.filter (fun d => d.tag = c.tag) := by simp [member]
    simp [List.filter_eq_nil_iff] at tagged
    exact tagged c member rfl
  · intro leaf
    rw [children_returned, if_pos leaf]

theorem stripChars_no_return {cs : List Char} (absent : '\r' ∉ cs) : '\r' ∉ stripChars cs := by
  intro member
  rw [stripChars, stripLeft, List.mem_reverse] at member
  have inner := (List.dropWhile_sublist _).mem member
  rw [List.mem_reverse, stripLeft] at inner
  exact absent ((List.dropWhile_sublist _).mem inner)

theorem storedText_returned (e : Element) :
    storedText (returned e) = (rereadText (storedText e)).bind
      (fun s => if strip s ≠ "" then some (strip s) else none) := by
  have text : (returned e).text = rereadText (storedText e) := by
    rw [returned, text_reread, again]
    exact congrArg rereadText (textOf_nodeDict e)
  have attr : (returned e).attrib.get? "_text" = none := attrib_returned_underscore e (by decide)
  rw [storedText, text, attr]
  cases rereadText (storedText e) <;> rfl

theorem rel_text {text : Option String} :
    Option.Rel Same (text.map .str) (((rereadText text).bind
        (fun s => if strip s ≠ "" then some (strip s) else none)).map .str) ↔
      ∀ s ∈ text, Legible s := by
  cases text with
  | none => simp [rereadText]
  | some s =>
    simp only [Option.map_some, Option.mem_def, Option.some.injEq, forall_eq', rereadText, Legible]
    by_cases empty : s = ""
    · simp [empty]
    rw [if_neg empty, Option.bind_some]
    by_cases breaks : '\r' ∈ s.toList
    · -- what comes back has no carriage return, so it is not the text
      have other : strip (String.ofList (newlines s.toList)) ≠ s := by
        intro same
        apply stripChars_no_return (not_mem_newlines s.toList)
        have chars := congrArg String.toList same
        simp only [strip, String.toList_ofList] at chars
        rw [chars]
        exact breaks
      split
      · simp [Same, breaks, other.symm]
      · simp [breaks]
    · rw [newlines_of_not_mem breaks, String.ofList_toList]
      split
      · simp [Same, breaks, empty, eq_comm]
      · rename_i blank
        have vanished : strip s = "" := by simpa using blank
        simp [breaks, vanished, Ne.symm empty]

theorem rel_str_iff (a b : Option String) : Option.Rel Same (a.map .str) (b.map .str) ↔ a = b :=
  Json.rel_map_iff (fun s t => by simp [Same]) a b

theorem rel_same_str (a : Option String) : Option.Rel Same (a.map .str) (a.map .str) := by
  rw [rel_str_iff]

theorem rel_none_iff (a : Option String) :
    Option.Rel Same (a.map .str) none ↔ a = none := by
  cases a <;> simp

theorem rel_other {e : Element} {key : String} (text : key ≠ "_text")
    (children : key ≠ "_children") :
    Option.Rel Same ((nodeDict e).get? key) ((nodeDict (returned e)).get? key) ↔
      ("_".toList.isPrefixOf key.toList = true → e.attrib.get? key = none) := by
  rw [get?_nodeDict_other _ text children, get?_nodeDict_other _ text children]
  by_cases mark : "_".toList.isPrefixOf key.toList = true
  · rw [attrib_returned_underscore e mark, Option.map_none, rel_none_iff]
    exact ⟨fun absent _ => absent, fun absent => absent mark⟩
  · have kept : (returned e).attrib.get? key = e.attrib.get? key := by
      rw [get?_attrib_returned, get?_nodeDict_other _ text children]
      cases e.attrib.get? key with
      | none => rfl
      | some s => exact if_neg mark
    rw [kept]
    exact iff_of_true (rel_same_str _) (fun marked => absurd marked mark)

theorem rel_children {e : Element}
    (below : ∀ c ∈ e.children, Plain c ↔ Same (nodeOf c) (nodeOf (returned c))) :
    Option.Rel Same ((nodeDict e).get? "_children") ((nodeDict (returned e)).get? "_children") ↔
      ("_children" ∈ e.attrib.keys → e.children ≠ []) ∧ ∀ c ∈ e.children, Plain c := by
  rw [get?_nodeDict_children, get?_nodeDict_children]
  by_cases leaf : e.children = []
  · rw [if_pos leaf, if_pos ((children_returned_eq_nil e).mpr leaf),
      attrib_returned_underscore e (by decide), Option.map_none,
      rel_none_iff, Dict.get?_eq_none_iff]
    simp [leaf]
  · rw [if_neg leaf, if_neg (fun none_left => leaf ((children_returned_eq_nil e).mp none_left)),
      Option.rel_some_some, same_detail_iff (filter_children_returned e)]
    constructor
    · exact fun same => ⟨fun _ => leaf, fun c member => (below c member).mpr (same c member)⟩
    · exact fun plain c member => (below c member).mp (plain.2 c member)

theorem plain_step (e : Element)
    (below : ∀ c ∈ e.children, Plain c ↔ Same (nodeOf c) (nodeOf (returned c))) :
    OwnKept e ∧ (∀ c ∈ e.children, Plain c) ↔ Same (nodeOf e) (nodeOf (returned e)) := by
  rw [nodeOf, nodeOf, Json.same_obj_iff (nodeDict e).distinct]
  simp only [Json.lookup_items]
  have text : Option.Rel Same ((nodeDict e).get? "_text") ((nodeDict (returned e)).get? "_text") ↔
      ∀ s ∈ storedText e, Legible s := by
    rw [get?_nodeDict_text, get?_nodeDict_text, storedText_returned, rel_text]
  constructor
  · rintro ⟨⟨names, legible⟩, plain⟩ key
    by_cases own_text : key = "_text"
    · rw [own_text]
      exact text.mpr legible
    by_cases own_children : key = "_children"
    · rw [own_children]
      refine (rel_children below).mpr ⟨?_, plain⟩
      intro named
      rcases names _ named (by decide) with wrong | ⟨_, full⟩
      · exact absurd wrong (by decide)
      · exact full
    · refine (rel_other own_text own_children).mpr ?_
      intro mark
      rw [Dict.get?_eq_none_iff]
      intro named
      rcases names key named mark with wrong | ⟨wrong, _⟩
      · exact own_text wrong
      · exact own_children wrong
  · intro same
    obtain ⟨covered, plain⟩ := (rel_children below).mp (same "_children")
    refine ⟨⟨?_, text.mp (same "_text")⟩, plain⟩
    intro name named mark
    by_cases own_text : name = "_text"
    · exact .inl own_text
    by_cases own_children : name = "_children"
    · exact .inr ⟨own_children, covered (own_children ▸ named)⟩
    · have absent := (rel_other own_text own_children).mp (same name) mark
      exact absurd named ((Dict.get?_eq_none_iff _ _).mp absent)

mutual

/-- The node of an element is read back equal exactly where the element is plain. -/
theorem plain_iff : ∀ e : Element, Plain e ↔ Same (nodeOf e) (nodeOf (returned e))
  | .mk tag attrib text children => by
    rw [Plain, allPlain_iff]
    exact plain_step (.mk tag attrib text children) (plain_children children)

theorem plain_children :
    ∀ es : List Element, ∀ e ∈ es, Plain e ↔ Same (nodeOf e) (nodeOf (returned e))
  | [] => by simp
  | e :: es => by
    rw [List.forall_mem_cons]
    exact ⟨plain_iff e, plain_children es⟩

end

end TacticalGateway.Normalizers
