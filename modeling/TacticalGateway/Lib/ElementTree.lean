import TacticalGateway.Lib.Dict

/-! Element trees as Python's ElementTree holds them, and what a tree is after it has been written
out and read back. What stands after the end tag of an element is left out. -/
namespace ElementTree

inductive Element where
  | mk (tag : String) (attrib : Dict String String) (text : Option String) (children : List Element)

namespace Element

def tag : Element → String
  | mk tag _ _ _ => tag

def attrib : Element → Dict String String
  | mk _ attrib _ _ => attrib

def text : Element → Option String
  | mk _ _ text _ => text

def children : Element → List Element
  | mk _ _ _ children => children

section

variable (tag : String) (attrib : Dict String String) (text : Option String)
    (children : List Element)

@[simp] theorem tag_mk : (mk tag attrib text children).tag = tag := rfl

@[simp] theorem attrib_mk : (mk tag attrib text children).attrib = attrib := rfl

@[simp] theorem text_mk : (mk tag attrib text children).text = text := rfl

@[simp] theorem children_mk : (mk tag attrib text children).children = children := rfl

end

def get (e : Element) (name : String) : Option String := e.attrib.get? name

def find (e : Element) (tag : String) : Option Element := e.children.find? (fun c => c.tag = tag)

end Element

theorem Element.ext_parts {e f : Element} (tag : e.tag = f.tag) (attrib : e.attrib = f.attrib)
    (text : e.text = f.text) (children : e.children = f.children) : e = f := by
  cases e
  cases f
  cases tag
  cases attrib
  cases text
  cases children
  rfl

/-- What `ET.fromstring` raises, with its text: a `ParseError`, or another exception where the
declaration names an encoding that is unknown or that the parser cannot take. -/
inductive ParserExn where
  | parseError (message : String)
  | lookupError (message : String)
  | valueError (message : String)
  deriving DecidableEq

def ParserExn.message : ParserExn → String
  | parseError message => message
  | lookupError message => message
  | valueError message => message

/-- Line ends as a parser reports them. -/
def newlines : List Char → List Char
  | '\r' :: '\n' :: cs => '\n' :: newlines cs
  | '\r' :: cs => '\n' :: newlines cs
  | c :: cs => c :: newlines cs
  | [] => []

/-- Text is written without escaping line ends, and no text at all is read as none. -/
def rereadText : Option String → Option String
  | none => none
  | some s => if s = "" then none else some (String.ofList (newlines s.toList))

mutual

def reread : Element → Element
  | .mk tag attrib text children => .mk tag attrib (rereadText text) (rereadAll children)

def rereadAll : List Element → List Element
  | [] => []
  | e :: es => reread e :: rereadAll es

end

theorem rereadAll_eq (es : List Element) : rereadAll es = es.map reread := by
  induction es with
  | nil => rfl
  | cons e es ih => rw [rereadAll, ih, List.map_cons]

@[simp] theorem tag_reread (e : Element) : (reread e).tag = e.tag := by
  cases e
  rfl

@[simp] theorem attrib_reread (e : Element) : (reread e).attrib = e.attrib := by
  cases e
  rfl

@[simp] theorem text_reread (e : Element) : (reread e).text = rereadText e.text := by
  cases e
  rfl

@[simp] theorem children_reread (e : Element) : (reread e).children = e.children.map reread := by
  cases e
  exact rereadAll_eq _

theorem newlines_of_not_mem {cs : List Char} (absent : '\r' ∉ cs) : newlines cs = cs := by
  induction cs with
  | nil => rfl
  | cons c cs ih =>
    have first : c ≠ '\r' := fun same => absent (same ▸ List.mem_cons_self)
    rw [newlines, ih (fun later => absent (List.mem_cons_of_mem c later))]
    · rintro _ same _
      exact first same
    · exact first

theorem not_mem_newlines (cs : List Char) : '\r' ∉ newlines cs := by
  induction cs using newlines.induct with
  | case1 cs ih => simpa [newlines] using ih
  | case2 cs other ih =>
    rw [newlines]
    · simpa using ih
    · exact other
  | case3 c cs other first ih =>
    rw [newlines]
    · simpa using ⟨fun same => first same.symm, ih⟩
    · exact other
    · exact first
  | case4 => simp [newlines]

theorem newlines_eq_nil_iff (cs : List Char) : newlines cs = [] ↔ cs = [] := by
  cases cs with
  | nil => simp [newlines]
  | cons c cs =>
    unfold newlines
    split <;> simp_all

theorem rereadText_rereadText (text : Option String) :
    rereadText (rereadText text) = rereadText text := by
  cases text with
  | none => rfl
  | some s =>
    by_cases empty : s = ""
    · rw [rereadText, if_pos empty]
      rfl
    · have full : String.ofList (newlines s.toList) ≠ "" := by
        intro nothing
        have chars := congrArg String.toList nothing
        rw [String.toList_ofList] at chars
        exact empty (String.toList_injective ((newlines_eq_nil_iff _).mp chars))
      rw [rereadText, if_neg empty, rereadText, if_neg full, String.toList_ofList,
        newlines_of_not_mem (not_mem_newlines _)]

theorem not_mem_of_reread {s : String} (read : rereadText (some s) = some s) : '\r' ∉ s.toList := by
  rw [rereadText] at read
  split at read
  · cases read
  · have same := congrArg String.toList (Option.some.inj read)
    rw [String.toList_ofList] at same
    rw [← same]
    exact not_mem_newlines _

mutual

theorem reread_reread : ∀ e : Element, reread (reread e) = reread e
  | .mk tag attrib text children => by
    rw [reread, reread, rereadText_rereadText, rereadAll_rereadAll children]

theorem rereadAll_rereadAll : ∀ es : List Element, rereadAll (rereadAll es) = rereadAll es
  | [] => rfl
  | e :: es => by rw [rereadAll, rereadAll, reread_reread e, rereadAll_rereadAll es]

end

end ElementTree
