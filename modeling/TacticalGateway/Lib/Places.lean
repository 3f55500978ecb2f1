import TacticalGateway.Lib.ElementTree

/-! Places in an element tree, where a child is found by its tag and by its number among the
children of this tag; and trees with mixed content, which keep the text behind each element. -/
namespace ElementTree

abbrev Place := List (String × Nat)

def Element.descend (e : Element) : Place → Option Element
  | [] => some e
  | (tag, i) :: rest => ((e.children.filter (fun c => c.tag = tag))[i]?).bind (·.descend rest)

@[simp] theorem Element.descend_nil (e : Element) : e.descend [] = some e := by
  rw [Element.descend]

theorem Element.descend_cons (e : Element) (tag : String) (i : Nat) (rest : Place) :
    e.descend ((tag, i) :: rest) =
      ((e.children.filter (fun c => c.tag = tag))[i]?).bind (·.descend rest) := by
  rw [Element.descend]

theorem Element.descend_child {e c : Element} {tag : String} {i : Nat}
    (child : (e.children.filter (fun c => c.tag = tag))[i]? = some c) (rest : Place) :
    e.descend ((tag, i) :: rest) = c.descend rest := by
  rw [Element.descend_cons, child, Option.bind_some]

/-- An element with the text behind its end tag. -/
inductive Mixed where
  | mk (tag : String) (attrib : Dict String String) (text : Option String) (children : List Mixed)
      (tail : Option String)

namespace Mixed

def tag : Mixed → String
  | mk tag _ _ _ _ => tag

def attrib : Mixed → Dict String String
  | mk _ attrib _ _ _ => attrib

def text : Mixed → Option String
  | mk _ _ text _ _ => text

def children : Mixed → List Mixed
  | mk _ _ _ children _ => children

def tail : Mixed → Option String
  | mk _ _ _ _ tail => tail

mutual

def element : Mixed → Element
  | mk tag attrib text children _ => .mk tag attrib text (elements children)

def elements : List Mixed → List Element
  | [] => []
  | m :: ms => element m :: elements ms

end

theorem elements_eq (ms : List Mixed) : elements ms = ms.map element := by
  induction ms with
  | nil => rfl
  | cons m ms ih => rw [elements, ih, List.map_cons]

@[simp] theorem tag_element (m : Mixed) : m.element.tag = m.tag := by
  cases m
  rfl

@[simp] theorem attrib_element (m : Mixed) : m.element.attrib = m.attrib := by
  cases m
  rfl

@[simp] theorem text_element (m : Mixed) : m.element.text = m.text := by
  cases m
  rfl

@[simp] theorem children_element (m : Mixed) : m.element.children = m.children.map element := by
  cases m
  exact elements_eq _

def descend (m : Mixed) : Place → Option Mixed
  | [] => some m
  | (tag, i) :: rest => ((m.children.filter (fun c => c.tag = tag))[i]?).bind (·.descend rest)

theorem descend_element (m : Mixed) (p : Place) :
    m.element.descend p = (m.descend p).map element := by
  induction p generalizing m with
  | nil => rfl
  | cons step rest ih =>
    obtain ⟨tag, i⟩ := step
    have named : m.element.children.filter (fun c => c.tag = tag) =
        (m.children.filter (fun c => c.tag = tag)).map element := by
      rw [children_element, List.filter_map]
      congr 1
      simp [Function.comp_def]
    rw [Element.descend_cons, named, List.getElem?_map, descend]
    cases (m.children.filter (fun c => c.tag = tag))[i]? with
    | none => rfl
    | some c => exact ih c

end Mixed

end ElementTree
