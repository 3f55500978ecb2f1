import TacticalGateway.Lib.ElementTree
import TacticalGateway.Lib.Text

/-! The text that `ElementTree.tostring` writes for a tree, cut in front of each `<`, and where an
end tag stands in its bytes. What stands after the end tag of an element is left out. -/
namespace Markup

variable {A : Type*}

/-- The mark stands at the front of each piece and nowhere else. -/
def Marked (mark : A) (pieces : List (List A)) : Prop :=
  ∀ p ∈ pieces, ∃ body, p = mark :: body ∧ mark ∉ body

theorem Marked.head {mark c : A} {pieces : List (List A)} {rest : List A}
    (marked : Marked mark pieces) (first : pieces.flatten = c :: rest) : c = mark := by
  cases pieces with
  | nil => cases first
  | cons p pieces =>
    obtain ⟨body, rfl, -⟩ := marked p List.mem_cons_self
    exact (List.cons.inj first).1.symm

theorem word_in_pieces {mark : A} {pieces : List (List A)} {word front rest : List A}
    (marked : Marked mark pieces) (single : mark ∉ word)
    (found : pieces.flatten = front ++ (mark :: word ++ rest)) :
    ∃ before behind after, pieces = before ++ (mark :: (word ++ behind)) :: after ∧
      rest = behind ++ after.flatten := by
  induction pieces generalizing front with
  | nil =>
    have contrary := congrArg List.length found
    simp at contrary
  | cons p pieces ih =>
    have later : Marked mark pieces := fun q member => marked q (List.mem_cons_of_mem p member)
    have further (front' : List A) (inside : pieces.flatten = front' ++ (mark :: word ++ rest)) :
        ∃ before behind after, p :: pieces = before ++ (mark :: (word ++ behind)) :: after ∧
          rest = behind ++ after.flatten := by
      obtain ⟨before, behind, after, rfl, same⟩ := ih later inside
      exact ⟨p :: before, behind, after, rfl, same⟩
    obtain ⟨body, own, absent⟩ := marked p List.mem_cons_self
    rw [List.flatten_cons, own, List.cons_append] at found
    cases front with
    | nil =>
      have tails := (List.cons.inj found).2
      rcases List.append_eq_append_iff.mp tails with ⟨left, long, onward⟩ | ⟨behind, here, same⟩
      · cases left with
        | nil =>
          rw [List.append_nil] at long
          exact ⟨[], [], pieces, by rw [own, long, List.append_nil]; rfl, onward.symm⟩
        | cons c left =>
          have start := later.head onward
          exact absurd (long ▸ start ▸ List.mem_append_right body List.mem_cons_self) single
      · exact ⟨[], behind, pieces, by rw [own, here]; rfl, same⟩
    | cons c front =>
      have tails := (List.cons.inj found).2
      rcases List.append_eq_append_iff.mp tails with ⟨left, -, onward⟩ | ⟨left, short, onward⟩
      · exact further _ onward
      · cases left with
        | nil => exact further [] onward.symm
        | cons d left =>
          have start : mark = d := (List.cons.inj onward).1
          exact absurd (short ▸ start ▸ List.mem_append_right front List.mem_cons_self) absent

theorem last_piece_iff {mark : A} {pieces : List (List A)} {word : List A}
    (marked : Marked mark (pieces ++ [word])) :
    (∀ front rest, (pieces ++ [word]).flatten = front ++ word ++ rest → rest = []) ↔
      ∀ p ∈ pieces, ¬ word <+: p := by
  obtain ⟨body, rfl, single⟩ := marked _ (List.mem_append_right _ List.mem_cons_self)
  constructor
  · rintro once p member ⟨behind, rfl⟩
    obtain ⟨before, after, rfl⟩ := List.append_of_mem member
    have early := once before.flatten (behind ++ (after.flatten ++ mark :: body)) (by simp)
    simp at early
  · intro none_begins front rest found
    rw [List.append_assoc] at found
    obtain ⟨before, behind, after, parts, rfl⟩ := word_in_pieces marked single found
    rcases List.eq_nil_or_concat after with rfl | ⟨after, last, rfl⟩
    · have tail := (List.append_inj' parts rfl).2
      have same : behind = [] := by simpa using (List.cons.inj tail).1
      rw [same]
      rfl
    · rw [List.concat_eq_append, ← List.cons_append, ← List.append_assoc] at parts
      have earlier := (List.append_inj' parts rfl).1
      refine absurd ⟨behind, rfl⟩ (none_begins (mark :: (body ++ behind)) ?_)
      rw [earlier]
      exact List.mem_append_right _ List.mem_cons_self

end Markup

namespace ElementTree
open Markup

/-- `_namespace_map`. -/
def namespaceMap : List (String × String) :=
  [("http://www.w3.org/XML/1998/namespace", "xml"), ("http://www.w3.org/1999/xhtml", "html"),
    ("http://www.w3.org/1999/02/22-rdf-syntax-ns#", "rdf"),
    ("http://schemas.xmlsoap.org/wsdl/", "wsdl"), ("http://www.w3.org/2001/XMLSchema", "xs"),
    ("http://www.w3.org/2001/XMLSchema-instance", "xsi"),
    ("http://purl.org/dc/elements/1.1/", "dc")]

/-- The namespace and the local part of a name that begins with a brace. -/
def qualified (name : String) : Option (String × String) :=
  match name.toList with
  | '\x7b' :: rest =>
    some (String.ofList (rest.reverse.dropWhile (· ≠ '\x7d')).tail.reverse,
      String.ofList (rest.reverse.takeWhile (· ≠ '\x7d')).reverse)
  | _ => none

/-- A namespace that is met for the first time gets its well-known prefix or the next number. -/
def addQname (namespaces : List (String × String)) (name : String) : List (String × String) :=
  match qualified name with
  | none => namespaces
  | some (uri, _) =>
    if (namespaces.lookup uri).isSome ∨ namespaceMap.lookup uri = some "xml" then namespaces
    else namespaces ++
      [(uri, (namespaceMap.lookup uri).getD ("ns" ++ Text.decimal namespaces.length))]

mutual

/-- The names of a tree in the order in which `_namespaces` meets them. -/
def qnames : Element → List String
  | .mk tag attrib _ children => tag :: attrib.keys ++ qnamesAll children

def qnamesAll : List Element → List String
  | [] => []
  | e :: es => qnames e ++ qnamesAll es

end

def namespacesOf (names : List String) : List (String × String) := names.foldl addQname []

section Serialize

variable (namespaces : List (String × String))

/-- A name as it is written. -/
def qname (name : String) : String :=
  match qualified name with
  | none => name
  | some (uri, tag) => (namespaces.lookup uri).getD "xml" ++ ":" ++ tag

def escapeCdataChar (c : Char) : List Char :=
  if c = '&' then ['&', 'a', 'm', 'p', ';']
  else if c = '<' then ['&', 'l', 't', ';']
  else if c = '>' then ['&', 'g', 't', ';']
  else [c]

def escapeAttribChar (c : Char) : List Char :=
  if c = '"' then ['&', 'q', 'u', 'o', 't', ';']
  else if c = '\r' then ['&', '#', '1', '3', ';']
  else if c = '\n' then ['&', '#', '1', '0', ';']
  else if c = '\t' then ['&', '#', '0', '9', ';']
  else escapeCdataChar c

def escapeCdata (text : String) : List Char := text.toList.flatMap escapeCdataChar

def escapeAttrib (text : String) : List Char := text.toList.flatMap escapeAttribChar

/-- An attribute behind a blank. -/
def writeAttrib (name : List Char) (value : String) : List Char :=
  ' ' :: name ++ '=' :: '"' :: escapeAttrib value ++ ['"']

def writeNamespace (i : String × String) : List Char :=
  writeAttrib ("xmlns:".toList ++ i.2.toList) i.1

def endTag (name : String) : List Char := '<' :: '/' :: name.toList ++ ['>']

mutual

/-- `_serialize_xml`, with the namespaces that are declared at the element. -/
def pieces (declared : List (String × String)) : Element → List (List Char)
  | .mk tag attrib text children =>
    let start := '<' :: (qname namespaces tag).toList ++ declared.flatMap writeNamespace ++
      attrib.items.flatMap (fun i => writeAttrib (qname namespaces i.1).toList i.2)
    if text.getD "" = "" ∧ children.isEmpty then [start ++ [' ', '/', '>']]
    else (start ++ '>' :: escapeCdata (text.getD "")) :: piecesAll children ++
      [endTag (qname namespaces tag)]

def piecesAll : List Element → List (List Char)
  | [] => []
  | e :: es => pieces [] e ++ piecesAll es

end

end Serialize

mutual

/-- The elements that are written with an end tag. -/
def closings : Element → List String
  | .mk tag _ text children =>
    if text.getD "" = "" ∧ children.isEmpty then [] else closingsAll children ++ [tag]

def closingsAll : List Element → List String
  | [] => []
  | e :: es => closings e ++ closingsAll es

end

/-- `tostring` to UTF-8, before it is encoded. -/
def tostring (e : Element) : String :=
  let namespaces := namespacesOf (qnames e)
  String.ofList
    (pieces namespaces (namespaces.mergeSort (fun i j => decide (i.2 ≤ j.2))) e).flatten

/-- The characters that markup begins and ends with, which are in no name of XML. -/
def markup : List Char := ['<', '>', '/']

def NoMarkup (name : String) : Prop := ∀ c ∈ name.toList, c ∉ markup

/-- What is written of the name itself is no markup. -/
def PlainName (name : String) : Prop := NoMarkup (((qualified name).map Prod.snd).getD name)

theorem noMarkup_append {s t : String} (front : NoMarkup s) (back : NoMarkup t) :
    NoMarkup (s ++ t) := by
  intro c member
  rw [String.toList_append, List.mem_append] at member
  rcases member with member | member
  · exact front c member
  · exact back c member

theorem noMarkup_decimal (n : Nat) : NoMarkup (Text.decimal n) := by
  intro c member inside
  have digit := Text.decimal_isDigit member
  simp only [markup, List.mem_cons, List.not_mem_nil, or_false] at inside
  rcases inside with rfl | rfl | rfl <;> cases digit

theorem lookup_mem {l : List (String × String)} {key value : String}
    (found : l.lookup key = some value) : (key, value) ∈ l := by
  obtain ⟨front, back, rfl, -⟩ := List.lookup_eq_some_iff.mp found
  exact List.mem_append_right front List.mem_cons_self

theorem noMarkup_namespaceMap : ∀ i ∈ namespaceMap, NoMarkup i.2 := by
  simp [namespaceMap, NoMarkup, markup]

theorem noMarkup_addQname {namespaces : List (String × String)}
    (clean : ∀ i ∈ namespaces, NoMarkup i.2) (name : String) :
    ∀ i ∈ addQname namespaces name, NoMarkup i.2 := by
  unfold addQname
  split
  · exact clean
  · rename_i uri tag _
    split
    · exact clean
    · intro i member
      rcases List.mem_append.mp member with known | fresh
      · exact clean i known
      · rw [List.mem_singleton.mp fresh]
        cases found : namespaceMap.lookup uri with
        | none => exact noMarkup_append (by simp [NoMarkup, markup]) (noMarkup_decimal _)
        | some known => exact noMarkup_namespaceMap _ (lookup_mem found)

theorem noMarkup_namespacesOf (names : List String) : ∀ i ∈ namespacesOf names, NoMarkup i.2 := by
  suffices further : ∀ namespaces : List (String × String), (∀ i ∈ namespaces, NoMarkup i.2) →
      ∀ i ∈ names.foldl addQname namespaces, NoMarkup i.2 from further [] nofun
  induction names with
  | nil => exact fun _ clean => clean
  | cons name names ih => exact fun _ clean => ih _ (noMarkup_addQname clean name)

section Pieces

variable {namespaces : List (String × String)}

theorem noMarkup_qname (clean : ∀ i ∈ namespaces, NoMarkup i.2) {name : String}
    (plain : PlainName name) : NoMarkup (qname namespaces name) := by
  unfold PlainName at plain
  unfold qname
  cases parts : qualified name with
  | none =>
    rw [parts] at plain
    exact plain
  | some part =>
    obtain ⟨uri, tag⟩ := part
    rw [parts] at plain
    refine noMarkup_append (noMarkup_append ?_ (by simp [NoMarkup, markup])) plain
    cases found : namespaces.lookup uri with
    | none => simp [NoMarkup, markup]
    | some known => exact clean _ (lookup_mem found)

theorem qname_eq_iff {name word : String} (simple : ':' ∉ word.toList)
    (own : qualified word = none) : qname namespaces name = word ↔ name = word := by
  constructor
  · intro same
    unfold qname at same
    cases parts : qualified name with
    | none =>
      rw [parts] at same
      exact same
    | some part =>
      rw [parts] at same
      refine absurd ?_ simple
      rw [← same]
      simp [String.toList_append]
  · rintro rfl
    rw [qname, own]

theorem open_not_mem_cdata (text : String) : '<' ∉ escapeCdata text := by
  intro member
  obtain ⟨c, -, inside⟩ := List.mem_flatMap.mp member
  unfold escapeCdataChar at inside
  split_ifs at inside <;> simp at inside
  · rename_i other _
    exact other inside.symm

theorem open_not_mem_attrib (text : String) : '<' ∉ escapeAttrib text := by
  intro member
  obtain ⟨c, there, inside⟩ := List.mem_flatMap.mp member
  unfold escapeAttribChar at inside
  split_ifs at inside <;> try simp at inside
  exact open_not_mem_cdata (String.singleton c) (by simpa [escapeCdata] using inside)

theorem open_not_mem_writeAttrib {name : List Char} (clean : '<' ∉ name) (value : String) :
    '<' ∉ writeAttrib name value := by
  simp [writeAttrib, clean, open_not_mem_attrib value]

theorem open_not_mem_namespace {i : String × String} (clean : NoMarkup i.2) :
    '<' ∉ writeNamespace i := by
  refine open_not_mem_writeAttrib ?_ i.1
  have own : '<' ∉ i.2.toList := fun member => clean _ member (by simp [markup])
  simp [own]

theorem open_not_mem_clean {name : String} (clean : NoMarkup name) : '<' ∉ name.toList :=
  fun member => clean _ member (by simp [markup])

/-- A piece begins with a start tag, or it is an end tag. -/
inductive Piece (namespaces : List (String × String)) (closed : List String) : List Char → Prop
  where
  | start {tag : String} {c : Char} {rest : List Char} (plain : PlainName tag) (follows : c ≠ '/')
      (absent : '<' ∉ c :: rest) :
      Piece namespaces closed ('<' :: (qname namespaces tag).toList ++ c :: rest)
  | ending {tag : String} (plain : PlainName tag) (closes : tag ∈ closed) :
      Piece namespaces closed (endTag (qname namespaces tag))

theorem Piece.mono {closed more : List String} {p : List Char} (piece : Piece namespaces closed p)
    (part : closed ⊆ more) : Piece namespaces more p := by
  cases piece with
  | start plain follows absent => exact .start plain follows absent
  | ending plain closes => exact .ending plain (part closes)

theorem piece_start (clean : ∀ i ∈ namespaces, NoMarkup i.2) {declared : List (String × String)}
    (known : ∀ i ∈ declared, NoMarkup i.2) {closed : List String} {tag : String}
    {attrib : List (String × String)} (plain : PlainName tag) (keys : ∀ i ∈ attrib, PlainName i.1)
    {c : Char} {rest : List Char} (follows : c ≠ '/') (absent : '<' ∉ c :: rest) :
    Piece namespaces closed ('<' :: (qname namespaces tag).toList ++
      declared.flatMap writeNamespace ++
      attrib.flatMap (fun i => writeAttrib (qname namespaces i.1).toList i.2) ++ c :: rest) := by
  have no_namespace : '<' ∉ declared.flatMap writeNamespace := by
    intro member
    obtain ⟨i, there, inside⟩ := List.mem_flatMap.mp member
    exact open_not_mem_namespace (known i there) inside
  have no_attrib :
      '<' ∉ attrib.flatMap (fun i => writeAttrib (qname namespaces i.1).toList i.2) := by
    intro member
    obtain ⟨i, there, inside⟩ := List.mem_flatMap.mp member
    exact open_not_mem_writeAttrib
      (open_not_mem_clean (noMarkup_qname clean (keys i there))) i.2 inside
  have nowhere : '<' ∉ declared.flatMap writeNamespace ++
      (attrib.flatMap (fun i => writeAttrib (qname namespaces i.1).toList i.2) ++ c :: rest) := by
    simp only [List.mem_append, not_or]
    exact ⟨no_namespace, no_attrib, absent⟩
  rw [List.append_assoc, List.append_assoc]
  -- the name is followed by a blank where anything is declared or an attribute is there
  cases declared with
  | cons i declared =>
    exact .start plain (by decide) nowhere
  | nil =>
    cases attrib with
    | cons i attrib => exact .start plain (by decide) nowhere
    | nil => exact .start plain follows absent

theorem pieces_long (clean : ∀ i ∈ namespaces, NoMarkup i.2) {declared : List (String × String)}
    (known : ∀ i ∈ declared, NoMarkup i.2) {tag : String} {attrib : Dict String String}
    {text : Option String} {children : List Element} (plain : PlainName tag)
    (keys : ∀ i ∈ attrib.items, PlainName i.1) (long : ¬ (text.getD "" = "" ∧ children.isEmpty)) :
    ∃ first, Piece namespaces [] first ∧ pieces namespaces declared (.mk tag attrib text children) =
      first :: piecesAll namespaces children ++ [endTag (qname namespaces tag)] := by
  refine ⟨_, ?_, by rw [pieces, if_neg long]⟩
  exact piece_start clean known plain keys (by decide) (by simp [open_not_mem_cdata])

mutual

theorem pieces_spec (clean : ∀ i ∈ namespaces, NoMarkup i.2) {declared : List (String × String)}
    (known : ∀ i ∈ declared, NoMarkup i.2) :
    ∀ e : Element, (∀ name ∈ qnames e, PlainName name) →
      ∀ p ∈ pieces namespaces declared e, Piece namespaces (closings e) p
  | .mk tag attrib text children, plain, p, member => by
    rw [qnames] at plain
    have own : PlainName tag := plain tag List.mem_cons_self
    have keys : ∀ i ∈ attrib.items, PlainName i.1 := fun i there =>
      plain _ (List.mem_append_left _ (List.mem_cons_of_mem _ (List.mem_map_of_mem there)))
    have inside : ∀ name ∈ qnamesAll children, PlainName name := fun name there =>
      plain name (List.mem_append_right _ there)
    unfold closings
    split_ifs with empty
    · rw [pieces, if_pos empty] at member
      rw [List.mem_singleton.mp member]
      exact piece_start clean known own keys (by decide) (by decide)
    · obtain ⟨first, start, whole⟩ := pieces_long clean known own keys empty
      rw [whole, List.cons_append, List.mem_cons, List.mem_append, List.mem_singleton] at member
      rcases member with rfl | below | rfl
      · exact start.mono (List.nil_subset _)
      · exact (piecesAll_spec clean children inside p below).mono (List.subset_append_left _ _)
      · exact .ending own (List.mem_append_right _ List.mem_cons_self)

theorem piecesAll_spec (clean : ∀ i ∈ namespaces, NoMarkup i.2) :
    ∀ es : List Element, (∀ name ∈ qnamesAll es, PlainName name) →
      ∀ p ∈ piecesAll namespaces es, Piece namespaces (closingsAll es) p
  | [], _, p, member => by
    rw [piecesAll] at member
    cases member
  | e :: es, plain, p, member => by
    rw [qnamesAll] at plain
    rw [piecesAll, List.mem_append] at member
    rw [closingsAll]
    rcases member with first | later
    · exact (pieces_spec clean (List.forall_mem_nil _) e (fun name there =>
        plain name (List.mem_append_left _ there)) p first).mono (List.subset_append_left _ _)
    · exact (piecesAll_spec clean es (fun name there =>
        plain name (List.mem_append_right _ there)) p later).mono (List.subset_append_right _ _)

end

mutual

theorem endTag_mem_pieces (declared : List (String × String)) {tag : String} :
    ∀ e : Element, tag ∈ closings e → endTag (qname namespaces tag) ∈ pieces namespaces declared e
  | .mk own attrib text children, member => by
    unfold closings at member
    unfold pieces
    split_ifs at member ⊢ with empty
    · cases member
    · rcases List.mem_append.mp member with below | same
      · exact List.mem_append_left _ (List.mem_cons_of_mem _ (endTag_mem_piecesAll children below))
      · rw [List.mem_singleton.mp same]
        exact List.mem_append_right _ List.mem_cons_self

theorem endTag_mem_piecesAll {tag : String} :
    ∀ es : List Element, tag ∈ closingsAll es →
      endTag (qname namespaces tag) ∈ piecesAll namespaces es
  | [], member => by
    rw [closingsAll] at member
    cases member
  | e :: es, member => by
    rw [closingsAll] at member
    rw [piecesAll]
    rcases List.mem_append.mp member with first | later
    · exact List.mem_append_left _ (endTag_mem_pieces [] e first)
    · exact List.mem_append_right _ (endTag_mem_piecesAll es later)

end

theorem Piece.marked (clean : ∀ i ∈ namespaces, NoMarkup i.2) {closed : List String} {p : List Char}
    (piece : Piece namespaces closed p) : ∃ body, p = '<' :: body ∧ '<' ∉ body := by
  cases piece with
  | start plain follows absent =>
    refine ⟨_, rfl, ?_⟩
    rw [List.append_eq, List.mem_append, not_or]
    exact ⟨open_not_mem_clean (noMarkup_qname clean plain), absent⟩
  | ending plain closes =>
    refine ⟨_, rfl, ?_⟩
    simpa using open_not_mem_clean (noMarkup_qname clean plain)

theorem Piece.endTag (clean : ∀ i ∈ namespaces, NoMarkup i.2) {closed : List String} {word : String}
    (single : '>' ∉ word.toList) {behind : List Char}
    (piece : Piece namespaces closed (ElementTree.endTag word ++ behind)) :
    behind = [] ∧ ∃ tag ∈ closed, qname namespaces tag = word := by
  generalize whole : ElementTree.endTag word ++ behind = p at piece
  cases piece with
  | @start tag c rest plain follows absent =>
    have second := (List.cons.inj whole).2
    have names := noMarkup_qname clean plain
    cases chars : (qname namespaces tag).toList with
    | nil =>
      rw [chars] at second
      exact absurd (List.cons.inj second).1.symm follows
    | cons d more =>
      rw [chars] at second
      have slash := (List.cons.inj second).1
      exact absurd (by simp [markup]) (names '/' (chars ▸ slash ▸ List.mem_cons_self))
  | @ending tag plain closes =>
    have names := noMarkup_qname clean plain
    have no_end : '>' ∉ (qname namespaces tag).toList := fun member =>
      names _ member (by simp [markup])
    have rest : word.toList ++ ['>'] ++ behind = (qname namespaces tag).toList ++ ['>'] :=
      (List.cons.inj (List.cons.inj whole).2).2
    rw [List.append_assoc] at rest
    obtain ⟨same, tails⟩ := Text.cut_unique single no_end rest
    exact ⟨tails, tag, closes, (String.toList_injective same).symm⟩

end Pieces

def utf8 (cs : List Char) : List UInt8 := cs.flatMap String.utf8EncodeChar

theorem encode_ofList (cs : List Char) : Text.encode (String.ofList cs) = utf8 cs := by
  rw [Text.encode, String.toByteArray_ofList, List.utf8Encode]
  simp [utf8]

theorem utf8_append (cs ds : List Char) : utf8 (cs ++ ds) = utf8 cs ++ utf8 ds :=
  List.flatMap_append

theorem utf8_flatten (pieces : List (List Char)) :
    utf8 pieces.flatten = (pieces.map utf8).flatten := by
  induction pieces with
  | nil => rfl
  | cons p pieces ih => rw [List.flatten_cons, utf8_append, ih, List.map_cons, List.flatten_cons]

/-- What has the bytes of a text at its front has the text there. -/
theorem utf8_front {cs ds : List Char} {rest : List UInt8} (front : utf8 cs ++ rest = utf8 ds) :
    ∃ behind, ds = cs ++ behind ∧ rest = utf8 behind := by
  have arrays : cs.utf8Encode ++ rest.toByteArray = ds.utf8Encode := by
    rw [List.utf8Encode, List.utf8Encode, ← List.toByteArray_append]
    exact congrArg List.toByteArray front
  obtain ⟨behind, rfl⟩ := List.isPrefix_of_utf8Encode_append_eq_utf8Encode _ arrays
  rw [utf8_append] at front
  exact ⟨behind, rfl, List.append_cancel_left front⟩

theorem open_of_byte {c : Char} (inside : (0x3C : UInt8) ∈ String.utf8EncodeChar c) : c = '<' := by
  have byte : ∀ n, (0x3C : UInt8) = UInt8.ofNat n → n % 256 = 60 := by
    intro n same
    have value := congrArg UInt8.toNat same
    simpa using value.symm
  unfold String.utf8EncodeChar at inside
  dsimp only at inside
  split_ifs at inside with small
  · have value := byte _ (List.mem_singleton.mp inside)
    exact Char.ext (UInt32.toNat_inj.mp (show c.val.toNat = 60 by omega))
  -- every byte of a longer character is at least 128
  all_goals simp only [List.mem_cons, List.not_mem_nil, or_false] at inside
  · rcases inside with same | same <;> have value := byte _ same <;> omega
  · rcases inside with same | same | same <;> have value := byte _ same <;> omega
  · rcases inside with same | same | same | same <;> have value := byte _ same <;> omega

theorem marked_utf8 {pieces : List (List Char)} (marked : Marked '<' pieces) :
    Marked 0x3C (pieces.map utf8) := by
  intro p member
  obtain ⟨chars, there, rfl⟩ := List.mem_map.mp member
  obtain ⟨body, rfl, absent⟩ := marked chars there
  refine ⟨utf8 body, rfl, ?_⟩
  intro inside
  obtain ⟨c, at_c, byte⟩ := List.mem_flatMap.mp inside
  exact absent (open_of_byte byte ▸ at_c)

/-- The bytes of an element's end tag stand at its end, and there alone where no element inside is
written with an end tag of that name. -/
theorem end_tag_once_iff {tag : String} {attrib : Dict String String} {text : Option String}
    {children : List Element}
    (plain : ∀ name ∈ qnames (.mk tag attrib text children), PlainName name)
    (simple : ':' ∉ tag.toList) (own : qualified tag = none)
    (long : ¬ (text.getD "" = "" ∧ children.isEmpty)) :
    (∃ body, Text.encode (tostring (.mk tag attrib text children)) = body ++ utf8 (endTag tag)) ∧
      ((∀ front rest, Text.encode (tostring (.mk tag attrib text children)) =
          front ++ utf8 (endTag tag) ++ rest → rest = []) ↔ tag ∉ closingsAll children) := by
  rw [tostring, encode_ofList, utf8_flatten]
  generalize named : namespacesOf (qnames (.mk tag attrib text children)) = namespaces
  have clean : ∀ i ∈ namespaces, NoMarkup i.2 := named ▸ noMarkup_namespacesOf _
  generalize sorted : namespaces.mergeSort (fun i j => decide (i.2 ≤ j.2)) = declared
  have known : ∀ i ∈ declared, NoMarkup i.2 := by
    intro i member
    rw [← sorted] at member
    exact clean i (List.mem_mergeSort.mp member)
  have spec := pieces_spec clean known _ plain
  rw [qnames] at plain
  have own_plain : PlainName tag := plain tag List.mem_cons_self
  have keys : ∀ i ∈ attrib.items, PlainName i.1 := fun i there =>
    plain _ (List.mem_append_left _ (List.mem_cons_of_mem _ (List.mem_map_of_mem there)))
  have inside : ∀ name ∈ qnamesAll children, PlainName name := fun name there =>
    plain name (List.mem_append_right _ there)
  obtain ⟨first, start, whole⟩ := pieces_long clean known own_plain keys long
  have written : qname namespaces tag = tag := (qname_eq_iff simple own).mpr rfl
  rw [written] at whole
  rw [whole] at spec ⊢
  constructor
  · refine ⟨((first :: piecesAll namespaces children).map utf8).flatten, ?_⟩
    rw [List.map_append, List.flatten_append, List.map_singleton, List.flatten_singleton]
  · have marked : Marked 0x3C ((first :: piecesAll namespaces children ++ [endTag tag]).map utf8) :=
      marked_utf8 (fun p member => (spec p member).marked clean)
    rw [List.map_append, List.map_singleton] at marked ⊢
    have single : '>' ∉ tag.toList := by
      have own_clean := noMarkup_qname clean own_plain
      rw [written] at own_clean
      exact fun member => own_clean _ member (by simp [markup])
    refine (last_piece_iff marked).trans ?_
    rw [List.forall_mem_map, List.forall_mem_cons]
    constructor
    · rintro ⟨-, none_begins⟩ member
      have there : endTag (qname namespaces tag) ∈ piecesAll namespaces children :=
        endTag_mem_piecesAll children member
      rw [written] at there
      exact none_begins _ there List.prefix_rfl
    · intro absent
      refine ⟨?_, ?_⟩
      · rintro ⟨behind, front⟩
        obtain ⟨chars, rfl, -⟩ := utf8_front front
        obtain ⟨-, _, contrary, -⟩ := start.endTag clean single
        cases contrary
      · rintro p member ⟨behind, front⟩
        obtain ⟨chars, rfl, -⟩ := utf8_front front
        obtain ⟨-, other, closes, same⟩ :=
          (piecesAll_spec clean children inside _ member).endTag clean single
        rw [(qname_eq_iff simple own).mp same] at closes
        exact absent closes

theorem head_tostring (e : Element) : ∃ rest, Text.encode (tostring e) = 0x3C :: rest := by
  obtain ⟨tag, attrib, text, children⟩ := e
  rw [tostring, encode_ofList, pieces]
  split_ifs
  · exact ⟨_, rfl⟩
  · exact ⟨_, rfl⟩

end ElementTree
