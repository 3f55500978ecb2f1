import TacticalGateway.Lib.Places
import TacticalGateway.Normalizers.DetailTree

/-! Which content of a `<detail>` subtree its dictionary tells apart: the elements and most of what
they say, but neither the text between them nor what stands under a reserved key. -/
namespace TacticalGateway.Normalizers
open ElementTree
open Json (Value Same)

structure OwnAgree (e f : Element) : Prop where
  attributes : ∀ name, name ≠ "_text" → name ≠ "_children" →
    e.attrib.get? name = f.attrib.get? name
  text : storedText e = storedText f
  leaf : e.children = [] → f.children = [] →
    e.attrib.get? "_children" = f.attrib.get? "_children"

/-- The trees differ in an element; or, at a place below the root, in an attribute whose name is not
reserved, in the text or an attribute that is taken for it, or in an attribute that is taken for the
children of an element without any. -/
inductive DifferCaptured (e f : Element) : Prop where
  | element (p : Place) (presence : (e.descend p).isSome ≠ (f.descend p).isSome)
  | attr {p : Place} {c d : Element} {name : String} (below : p ≠ [])
      (here : e.descend p = some c) (there : f.descend p = some d)
      (plain : name ≠ "_text" ∧ name ≠ "_children")
      (differs : c.attrib.get? name ≠ d.attrib.get? name)
  | text {p : Place} {c d : Element} (below : p ≠ []) (here : e.descend p = some c)
      (there : f.descend p = some d) (differs : storedText c ≠ storedText d)
  | leaf {p : Place} {c d : Element} (below : p ≠ []) (here : e.descend p = some c)
      (there : f.descend p = some d) (leaves : c.children = [] ∧ d.children = [])
      (differs : c.attrib.get? "_children" ≠ d.attrib.get? "_children")

def trimmed (text : Option String) : String := strip (text.getD "")

/-- The trees differ in an element, in an attribute, in the text of an element or in the text behind
one, but for white space around it. -/
inductive Differ (t u : Mixed) : Prop where
  | element (p : Place) (presence : (t.descend p).isSome ≠ (u.descend p).isSome)
  | attr {p : Place} {m n : Mixed} {name : String} (here : t.descend p = some m)
      (there : u.descend p = some n) (differs : m.attrib.get? name ≠ n.attrib.get? name)
  | text {p : Place} {m n : Mixed} (here : t.descend p = some m) (there : u.descend p = some n)
      (differs : trimmed m.text ≠ trimmed n.text)
  | tail {p : Place} {m n : Mixed} (below : p ≠ []) (here : t.descend p = some m)
      (there : u.descend p = some n) (differs : trimmed m.tail ≠ trimmed n.tail)

def SameDetail (e f : Element) : Prop :=
  Same (.obj (detailToAttributes e).items) (.obj (detailToAttributes f).items)

variable {e f : Element}

/-- A dictionary and a list are never equal, so that the number of nodes shows. -/
theorem rel_packs {es fs : List Element} :
    Option.Rel Same (pack (es.map nodeOf)) (pack (fs.map nodeOf)) ↔
      List.Forall₂ (fun c d => Same (nodeOf c) (nodeOf d)) es fs := by
  match es, fs with
  | [], [] => simp [pack]
  | [], [d] => simp [pack]
  | [], d :: d' :: ds => simp [pack]
  | [c], [] => simp [pack]
  | c :: c' :: cs, [] => simp [pack]
  | [c], [d] => simp [pack]
  | [c], d :: d' :: ds => simp [pack, nodeOf, Same]
  | c :: c' :: cs, [d] => simp [pack, nodeOf, Same]
  | c :: c' :: cs, d :: d' :: ds =>
    have items : Same (.arr ((c :: c' :: cs).map nodeOf)) (.arr ((d :: d' :: ds).map nodeOf)) ↔
        List.Forall₂ (fun c d => Same (nodeOf c) (nodeOf d)) (c :: c' :: cs) (d :: d' :: ds) := by
      rw [Same, Json.sameItems_iff, List.forall₂_map_left_iff, List.forall₂_map_right_iff]
    rw [← items]
    exact Option.rel_some_some

theorem sameDetail_iff :
    SameDetail e f ↔ ∀ tag, List.Forall₂ (fun c d => Same (nodeOf c) (nodeOf d))
      (e.children.filter (fun c => c.tag = tag)) (f.children.filter (fun c => c.tag = tag)) := by
  rw [SameDetail, Json.same_obj_iff (detailToAttributes e).distinct]
  simp only [Json.lookup_items, get?_detail, rel_packs]

theorem SameDetail.leaf_iff (same : SameDetail e f) : e.children = [] ↔ f.children = [] := by
  have by_tag := sameDetail_iff.mp same
  constructor
  · intro leaf
    by_contra full
    obtain ⟨d, member⟩ := List.exists_mem_of_ne_nil _ full
    have pairs := by_tag d.tag
    rw [leaf, List.filter_nil, List.forall₂_nil_left_iff, List.filter_eq_nil_iff] at pairs
    exact pairs d member (by simp)
  · intro leaf
    by_contra full
    obtain ⟨c, member⟩ := List.exists_mem_of_ne_nil _ full
    have pairs := by_tag c.tag
    rw [leaf, List.filter_nil, List.forall₂_nil_right_iff, List.filter_eq_nil_iff] at pairs
    exact pairs c member (by simp)

theorem same_node_iff : Same (nodeOf e) (nodeOf f) ↔ OwnAgree e f ∧ SameDetail e f := by
  rw [nodeOf, nodeOf, Json.same_obj_iff (nodeDict e).distinct]
  simp only [Json.lookup_items]
  constructor
  · intro answers
    have children := answers "_children"
    rw [get?_nodeDict_children, get?_nodeDict_children] at children
    have own : SameDetail e f ∧ (e.children = [] → f.children = [] →
        e.attrib.get? "_children" = f.attrib.get? "_children") := by
      by_cases leaf : e.children = [] <;> by_cases leaf' : f.children = []
      · rw [if_pos leaf, if_pos leaf', rel_str_iff] at children
        refine ⟨sameDetail_iff.mpr ?_, fun _ _ => children⟩
        simp [leaf, leaf']
      · rw [if_pos leaf, if_neg leaf'] at children
        cases attr : e.attrib.get? "_children" with
        | none => simp [attr] at children
        | some s => simp [attr, Same] at children
      · rw [if_neg leaf, if_pos leaf'] at children
        cases attr : f.attrib.get? "_children" with
        | none => simp [attr] at children
        | some s => simp [attr, Same] at children
      · rw [if_neg leaf, if_neg leaf', Option.rel_some_some] at children
        exact ⟨children, fun empty => absurd empty leaf⟩
    refine ⟨⟨?_, ?_, own.2⟩, own.1⟩
    · intro name text below
      have answer := answers name
      rwa [get?_nodeDict_other e text below, get?_nodeDict_other f text below, rel_str_iff]
        at answer
    · have answer := answers "_text"
      rwa [get?_nodeDict_text, get?_nodeDict_text, rel_str_iff] at answer
  · rintro ⟨agree, same⟩ key
    by_cases text : key = "_text"
    · rw [text, get?_nodeDict_text, get?_nodeDict_text, rel_str_iff]
      exact agree.text
    by_cases below : key = "_children"
    · rw [below, get?_nodeDict_children, get?_nodeDict_children]
      by_cases leaf : e.children = []
      · have leaf' := same.leaf_iff.mp leaf
        rw [if_pos leaf, if_pos leaf', rel_str_iff]
        exact agree.leaf leaf leaf'
      · rw [if_neg leaf, if_neg (fun empty => leaf (same.leaf_iff.mpr empty)), Option.rel_some_some]
        exact same
    · rw [get?_nodeDict_other e text below, get?_nodeDict_other f text below, rel_str_iff]
      exact agree.attributes key text below

theorem forall₂_iff_rel {A B : Type} {R : A → B → Prop} {as : List A} {bs : List B} :
    List.Forall₂ R as bs ↔ ∀ i : Nat, Option.Rel R as[i]? bs[i]? := by
  induction as generalizing bs with
  | nil =>
    cases bs with
    | nil => simp
    | cons b bs => exact iff_of_false (by simp) (fun all => by simpa using all 0)
  | cons a as ih =>
    cases bs with
    | nil => exact iff_of_false (by simp) (fun all => by simpa using all 0)
    | cons b bs =>
      rw [List.forall₂_cons, ih]
      constructor
      · rintro ⟨first, rest⟩ i
        cases i with
        | zero => simpa using first
        | succ i => simpa using rest i
      · intro all
        exact ⟨by simpa using all 0, fun i => by simpa using all (i + 1)⟩

theorem SameDetail.descend (same : SameDetail e f) (p : Place) :
    (e.descend p).isSome = (f.descend p).isSome ∧
      ∀ c d, e.descend p = some c → f.descend p = some d →
        SameDetail c d ∧ (p ≠ [] → OwnAgree c d) := by
  induction p generalizing e f with
  | nil =>
    refine ⟨rfl, ?_⟩
    rintro c d ⟨⟩ ⟨⟩
    exact ⟨same, fun below => absurd rfl below⟩
  | cons step rest ih =>
    obtain ⟨tag, i⟩ := step
    have child := forall₂_iff_rel.mp (sameDetail_iff.mp same tag) i
    rw [Element.descend_cons, Element.descend_cons]
    cases here : (e.children.filter (fun c => c.tag = tag))[i]? with
    | none =>
      rw [here] at child
      cases there : (f.children.filter (fun c => c.tag = tag))[i]? with
      | none =>
        refine ⟨rfl, ?_⟩
        rintro c d ⟨⟩
      | some d =>
        rw [there] at child
        cases child
    | some c =>
      rw [here] at child
      cases there : (f.children.filter (fun c => c.tag = tag))[i]? with
      | none =>
        rw [there] at child
        cases child
      | some d =>
        rw [there, Option.rel_some_some, same_node_iff] at child
        obtain ⟨agree, below⟩ := child
        obtain ⟨present, deeper⟩ := ih below
        refine ⟨present, ?_⟩
        intro c' d' here' there'
        refine ⟨(deeper c' d' here' there').1, ?_⟩
        intro _
        cases rest with
        | nil =>
          cases here'
          cases there'
          exact agree
        | cons step rest => exact (deeper c' d' here' there').2 (List.cons_ne_nil _ _)

theorem DifferCaptured.lift {c d : Element} {tag : String} {i : Nat}
    (here : (e.children.filter (fun c => c.tag = tag))[i]? = some c)
    (there : (f.children.filter (fun c => c.tag = tag))[i]? = some d)
    (differ : DifferCaptured c d) : DifferCaptured e f := by
  have down := Element.descend_child here
  have down' := Element.descend_child there
  cases differ with
  | element p presence =>
    refine .element ((tag, i) :: p) ?_
    rwa [down, down']
  | @attr p _ _ _ _ at_c at_d plain differs =>
    exact .attr (p := (tag, i) :: p) (List.cons_ne_nil _ _) ((down p).trans at_c)
      ((down' p).trans at_d) plain differs
  | @text p _ _ _ at_c at_d differs =>
    exact .text (p := (tag, i) :: p) (List.cons_ne_nil _ _) ((down p).trans at_c)
      ((down' p).trans at_d) differs
  | @leaf p _ _ _ at_c at_d leaves differs =>
    exact .leaf (p := (tag, i) :: p) (List.cons_ne_nil _ _) ((down p).trans at_c)
      ((down' p).trans at_d) leaves differs

theorem sizeOf_child {c : Element} (member : c ∈ e.children) : sizeOf c < sizeOf e := by
  obtain ⟨tag, attrib, text, children⟩ := e
  have within := List.sizeOf_lt_of_mem member
  simp only [Element.children_mk] at within
  simp only [Element.mk.sizeOf_spec]
  omega

theorem ownAgree_of_not_captured {c d : Element} {tag : String} {i : Nat}
    (agree : ¬ DifferCaptured e f)
    (here : (e.children.filter (fun c => c.tag = tag))[i]? = some c)
    (there : (f.children.filter (fun c => c.tag = tag))[i]? = some d) : OwnAgree c d := by
  have at_c : e.descend [(tag, i)] = some c := Element.descend_child here []
  have at_d : f.descend [(tag, i)] = some d := Element.descend_child there []
  have below : [(tag, i)] ≠ [] := List.cons_ne_nil _ _
  constructor
  case attributes =>
    intro name text children
    by_contra differs
    exact agree (.attr below at_c at_d ⟨text, children⟩ differs)
  case text =>
    by_contra differs
    exact agree (.text below at_c at_d differs)
  case leaf =>
    intro leaf leaf'
    by_contra differs
    exact agree (.leaf below at_c at_d ⟨leaf, leaf'⟩ differs)

theorem sameDetail_of_not_captured (e f : Element) (agree : ¬ DifferCaptured e f) :
    SameDetail e f := by
  rw [sameDetail_iff]
  intro tag
  rw [forall₂_iff_rel]
  intro i
  have present : (e.descend [(tag, i)]).isSome = (f.descend [(tag, i)]).isSome := by
    by_contra presence
    exact agree (.element _ presence)
  simp only [Element.descend_cons] at present
  cases here : (e.children.filter (fun c => c.tag = tag))[i]? with
  | none =>
    cases there : (f.children.filter (fun c => c.tag = tag))[i]? with
    | none => exact .none
    | some d =>
      rw [here, there] at present
      cases present
  | some c =>
    cases there : (f.children.filter (fun c => c.tag = tag))[i]? with
    | none =>
      rw [here, there] at present
      cases present
    | some d =>
      have member : c ∈ e.children := List.mem_of_mem_filter (List.mem_of_getElem? here)
      have smaller : sizeOf c < sizeOf e := sizeOf_child member
      refine .some (same_node_iff.mpr ⟨ownAgree_of_not_captured agree here there, ?_⟩)
      exact sameDetail_of_not_captured c d (fun differ => agree (differ.lift here there))
termination_by sizeOf e

/-- The dictionaries are equal exactly where nothing that is captured differs. -/
theorem sameDetail_iff_captured : SameDetail e f ↔ ¬ DifferCaptured e f := by
  refine ⟨?_, sameDetail_of_not_captured e f⟩
  intro same differ
  cases differ with
  | element p presence => exact presence (same.descend p).1
  | attr below here there plain differs =>
    exact differs ((((same.descend _).2 _ _ here there).2 below).attributes _ plain.1 plain.2)
  | text below here there differs =>
    exact differs (((same.descend _).2 _ _ here there).2 below).text
  | leaf below here there leaves differs =>
    exact differs ((((same.descend _).2 _ _ here there).2 below).leaf leaves.1 leaves.2)

/-- Two trees that differ have different dictionaries, unless they differ only in what is not
captured. -/
theorem told_apart_iff (t u : Mixed) :
    (Differ t u → ¬ SameDetail t.element u.element) ↔
      (Differ t u → DifferCaptured t.element u.element) := by
  rw [sameDetail_iff_captured, not_not]

theorem sameDetail_refl (e : Element) : SameDetail e e := by
  refine sameDetail_of_not_captured e e ?_
  intro differ
  cases differ with
  | element p presence => exact presence rfl
  | attr _ here there _ differs =>
    cases here.symm.trans there
    exact differs rfl
  | text _ here there differs =>
    cases here.symm.trans there
    exact differs rfl
  | leaf _ here there _ differs =>
    cases here.symm.trans there
    exact differs rfl

def noteDetail (behind : String) : Mixed :=
  .mk "detail" .empty none
    [.mk "note" .empty (some "see ") [.mk "ref" .empty none [] (some behind)] none] none

def remarksDetail (attrib : List (String × String)) (text : Option String) : Mixed :=
  .mk "detail" .empty none [.mk "remarks" (ofList attrib) text [] none] none

/-- Texts behind an element are not told apart, and neither are a text and an attribute. -/
theorem content_lost :
    (Differ (noteDetail " to the north") (noteDetail " to the south") ∧
      SameDetail (noteDetail " to the north").element (noteDetail " to the south").element) ∧
    Differ (remarksDetail [("_text", "hold")] none) (remarksDetail [] (some "hold")) ∧
      SameDetail (remarksDetail [("_text", "hold")] none).element
        (remarksDetail [] (some "hold")).element := by
  refine ⟨⟨?_, sameDetail_refl _⟩, ?_, ?_⟩
  · exact .tail (p := [("note", 0), ("ref", 0)]) (List.cons_ne_nil _ _) rfl rfl (by decide)
  · exact .text (p := [("remarks", 0)]) rfl rfl (by decide)
  · have same : detailToAttributes (remarksDetail [("_text", "hold")] none).element =
      detailToAttributes (remarksDetail [] (some "hold")).element := rfl
    rw [SameDetail, same]
    exact sameDetail_refl (remarksDetail [] (some "hold")).element

end TacticalGateway.Normalizers
