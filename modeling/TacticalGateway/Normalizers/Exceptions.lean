import TacticalGateway.Normalizers.CotPb
import TacticalGateway.Normalizers.XmlEgress

/-! Which exceptions leave the two normalizers. A listener catches one class of them; a check that
raises another class is one that the content of a message has to pass. -/
namespace TacticalGateway.Normalizers
open ElementTree

def Exn.isCotXmlParseError : Exn → Bool
  | .cotXmlParseError _ => true
  | _ => false

def Exn.isCotPbError : Exn → Bool
  | .cotPbError _ => true
  | _ => false

section Contained

variable {A B : Type} {caught : Exn → Bool}

def Contained (caught : Exn → Bool) (r : Except Exn A) : Prop := ∀ e, r = .error e → caught e = true

theorem contained_ok (a : A) : Contained caught (.ok a) := by
  intro e raised
  cases raised

theorem contained_error {e : Exn} : Contained caught (.error e : Except Exn A) ↔
    caught e = true := by
  constructor
  · intro contained
    exact contained e rfl
  · intro known e' raised
    cases raised
    exact known

theorem contained_bind {x : Except Exn A} {f : A → Except Exn B} :
    Contained caught (x >>= f) ↔ Contained caught x ∧ ∀ a, x = .ok a → Contained caught (f a) := by
  cases x with
  | ok a =>
    rw [ok_bind]
    constructor
    · intro contained
      refine ⟨contained_ok a, ?_⟩
      intro b same
      cases same
      exact contained
    · rintro ⟨_, later⟩
      exact later a rfl
  | error e =>
    constructor
    · intro contained
      refine ⟨contained_error.mpr (contained e rfl), ?_⟩
      intro b same
      cases same
    · rintro ⟨contained, _⟩ e' raised
      cases raised
      exact contained e rfl

theorem contained_raiseNone {e : Exn} {x : Option A} :
    Contained caught (raiseNone e x) ↔ (x = none → caught e = true) := by
  cases x with
  | none => simp [raiseNone, contained_error]
  | some a => simp [raiseNone, contained_ok]

theorem contained_raiseNone_bind {e : Exn} {x : Option A} {f : A → Except Exn B}
    (known : caught e = true) :
    Contained caught (raiseNone e x >>= f) ↔ ∀ a, x = some a → Contained caught (f a) := by
  rw [contained_bind, contained_raiseNone]
  cases x with
  | none => simp [raiseNone, known]
  | some a => simp [raiseNone]

theorem contained_required {e : Exn} {x : Option A} {f : A → Except Exn B}
    (unknown : caught e = false) :
    Contained caught (raiseNone e x >>= f) ↔ ∃ a, x = some a ∧ Contained caught (f a) := by
  rw [contained_bind, contained_raiseNone]
  cases x with
  | none => simp [unknown]
  | some a => simp [raiseNone]

end Contained

section Xml

variable {A B : Type} {caught : Exn → Bool}

/-- If the attribute is there it can be converted, and then the rest holds of its value. -/
def Converts (e : Element) (name : String) (convert : String → Option A) (rest : A → Prop) : Prop :=
  ∀ s, e.get name = some s → ∃ a, convert s = some a ∧ rest a

theorem contained_requireAttr {e : Element} {name : String} {f : String → Except Exn A} :
    Contained Exn.isCotXmlParseError (requireAttr e name >>= f) ↔
      ∀ s, e.get name = some s → Contained Exn.isCotXmlParseError (f s) := by
  unfold requireAttr
  cases e.get name with
  | none =>
    constructor
    · intro _ s there
      cases there
    · intro _
      exact contained_error.mpr rfl
  | some s => simp [ok_bind]

def isoTime (py : Runtime) (s : String) : Option Timestamp :=
  py.fromisoformat (replaceSuffix "Z" "+00:00" s)

theorem contained_missing {message : String} {x : Option A} {f : A → Except Exn B} :
    Contained Exn.isCotXmlParseError (raiseNone (.cotXmlParseError message) x >>= f) ↔
      ∀ a, x = some a → Contained Exn.isCotXmlParseError (f a) := contained_raiseNone_bind rfl

theorem contained_convert {x : Option A} {f : A → Except Exn B} :
    Contained Exn.isCotXmlParseError (raiseNone .valueError x >>= f) ↔
      ∃ a, x = some a ∧ Contained Exn.isCotXmlParseError (f a) := contained_required rfl

theorem contained_mustBeAware {t : Timestamp} {f : Datetime → Except Exn B} :
    Contained Exn.isCotXmlParseError (mustBeAware t >>= f) ↔
      ∃ d, t = .aware d ∧ Contained Exn.isCotXmlParseError (f d) := by
  cases t with
  | aware d => simp [mustBeAware, ok_bind]
  | naive d =>
    constructor
    · intro contained
      exact absurd (contained _ rfl) Bool.false_ne_true
    · rintro ⟨_, same, _⟩
      cases same

/-- In the order of the checks: from each attribute that is there a time or a number can be read,
up to the first that is missing; if none is, the stack has room for the detail, and the times have
an offset. -/
def XmlLegible (room : Nat) (py : Runtime) (root : Element) : Prop :=
  root.get "type" ≠ none → root.get "uid" ≠ none →
    Converts root "time" (isoTime py) fun eventTime =>
    Converts root "start" (isoTime py) fun start =>
    Converts root "stale" (isoTime py) fun stale =>
    ∀ point, root.find "point" = some point →
      Converts point "lat" py.float fun _ =>
      Converts point "lon" py.float fun _ =>
        fits room (root.find "detail") = true ∧
          (∃ t, eventTime = .aware t) ∧ (∃ t, start = .aware t) ∧ ∃ t, stale = .aware t

theorem contained_recursion {b : Bool} {f : Unit → Except Exn B}
    (unknown : caught .recursionError = false) :
    Contained caught (raiseNone .recursionError (if b then some () else none) >>= f) ↔
      b = true ∧ Contained caught (f ()) := by
  rw [contained_required unknown]
  cases b with
  | false => simp
  | true =>
    constructor
    · rintro ⟨⟨⟩, _, contained⟩
      exact ⟨rfl, contained⟩
    · rintro ⟨_, contained⟩
      exact ⟨(), rfl, contained⟩

theorem contained_legible (room : Nat) (py : Runtime) (root : Element) (intake : Intake) :
    Contained Exn.isCotXmlParseError (readHeader py root >>= fun h =>
      raiseNone .recursionError (if fits room (root.find "detail") then some () else none) >>=
        fun _ => headedCto py root intake h) ↔ XmlLegible room py root := by
  have parsed (s : String) : parseIso py s = raiseNone .valueError (isoTime py s) := rfl
  have built (c : CTO) : Contained Exn.isCotXmlParseError (pure c) := contained_ok c
  have unknown : Exn.isCotXmlParseError .recursionError = false := rfl
  unfold headedCto readHeader XmlLegible Converts
  simp only [bind_assoc, pure_bind, contained_requireAttr, parsed, contained_convert,
    contained_missing, contained_recursion unknown, contained_mustBeAware, built, and_true,
    exists_and_right, Option.ne_none_iff_exists', forall_exists_index]

/-- A document that is read, or that the parser refuses with a `ParseError`; and if its root is an
event, it can be read as far as it is looked at. -/
structure XmlHandled (room : Nat) (py : Runtime) (et : Etree) (xml : List UInt8) : Prop where
  parsed : ∀ e, et.fromstring xml = .error e → ∃ message, e = .parseError message
  legible : ∀ root, et.fromstring xml = .ok root → root.tag = "event" → XmlLegible room py root

theorem caught_reraise (words : String) (e : ParserExn) :
    (reraise words e).isCotXmlParseError = true ↔ ∃ message, e = .parseError message := by
  cases e <;> simp [reraise, Exn.isCotXmlParseError]

theorem contained_cotXmlToCto (room : Nat) (py : Runtime) (et : Etree) (xml : List UInt8)
    (intake : Intake) :
    Contained Exn.isCotXmlParseError (cotXmlToCtoWithin room py et xml intake) ↔
      XmlHandled room py et xml := by
  unfold cotXmlToCtoWithin
  cases read : et.fromstring xml with
  | error e =>
    rw [contained_error, caught_reraise]
    constructor
    · intro known
      refine ⟨?_, ?_⟩
      · intro e' same
        cases read.symm.trans same
        exact known
      · intro root same
        cases read.symm.trans same
    · intro handled
      exact handled.parsed e read
  | ok root =>
    have whole : XmlHandled room py et xml ↔ (root.tag = "event" → XmlLegible room py root) := by
      constructor
      · intro handled
        exact handled.legible root read
      · intro legible
        refine ⟨?_, ?_⟩
        · intro e same
          cases read.symm.trans same
        · intro root' same
          cases read.symm.trans same
          exact legible
    rw [whole]
    dsimp only
    by_cases event : root.tag = "event"
    · rw [if_neg (not_not.mpr event)]
      refine (contained_legible room py root intake).trans ?_
      exact ⟨fun legible _ => legible, fun legible => legible event⟩
    · rw [if_pos event, contained_error]
      exact ⟨fun _ named => absurd named event, fun _ => rfl⟩

/-- Where the detail fits, the normalizer does what it does without a limit. -/
theorem cotXmlToCtoWithin_eq {room : Nat} {py : Runtime} {et : Etree} {xml : List UInt8}
    {intake : Intake}
    (fitting : ∀ root, et.fromstring xml = .ok root → fits room (root.find "detail") = true) :
    cotXmlToCtoWithin room py et xml intake = cotXmlToCto py et xml intake := by
  unfold cotXmlToCtoWithin cotXmlToCto eventToCto
  cases read : et.fromstring xml with
  | error e => rfl
  | ok root =>
    dsimp only
    rw [fitting root read]
    rfl

end Xml

section Pb

def endOfTime : Nat := 253402300800000

theorem fromMillis_eq_ok (ms : UInt64) : (∃ t, fromMillis ms = .ok t) ↔ ms.toNat < endOfTime := by
  have bounds : (atOffset (ms.toNat * 1000) 0).isSome ↔ _ := atOffset_isSome_iff (by decide)
  rw [Option.isSome_iff_exists] at bounds
  unfold fromMillis endOfTime
  constructor
  · rintro ⟨t, made⟩
    have legal := bounds.mp ⟨t, raiseNone_eq_ok made⟩
    omega
  · intro early
    obtain ⟨t, made⟩ := bounds.mpr (by omega)
    exact ⟨t, by rw [made]; rfl⟩

/-- The embedded text, if there is one, is read with room on the stack, or the parser refuses it
with a `ParseError`. -/
def EmbeddedHandled (room : Nat) (et : Etree) (ev : Proto.CotEvent) : Prop :=
  ∀ xml ∈ embeddedText ev,
    (∀ e, et.fromstring xml = .error e → ∃ message, e = .parseError message) ∧
      ∀ detail, et.fromstring xml = .ok detail → nesting detail ≤ room

theorem readEmbedded_ok_iff (room : Nat) (et : Etree) (ev : Proto.CotEvent) :
    readEmbedded room et ev = .ok () ↔ EmbeddedHandled room et ev := by
  unfold readEmbedded EmbeddedHandled
  cases text : embeddedText ev with
  | none => simp
  | some xml =>
    simp only [Option.map_some, Option.mem_some_iff, forall_eq']
    cases read : et.fromstring xml with
    | ok detail =>
      by_cases roomy : nesting detail ≤ room <;> simp [roomy, raiseNone]
    | error e => cases e <;> simp

theorem contained_readEmbedded {room : Nat} {et : Etree} {ev : Proto.CotEvent} :
    Contained Exn.isCotPbError (readEmbedded room et ev) ↔ readEmbedded room et ev = .ok () := by
  have raised (e : Exn) (error : readEmbedded room et ev = .error e) : e.isCotPbError = false := by
    unfold readEmbedded raiseNone at error
    split at error <;> first | split at error | skip
    all_goals cases error
    all_goals rfl
  cases read : readEmbedded room et ev with
  | ok _ => simp [contained_ok]
  | error e => simp [contained_error, raised e read]

/-- The bytes are a message; and of its event, if it has one, the embedded text can be handled, and
the times lie before the year 10000. -/
def PbHandled (room : Nat) (pb : Protobuf) (et : Etree) (payload : List UInt8) : Prop :=
  ∃ msg, pb.parseFromString payload = some msg ∧ ∀ ev, msg.cotEvent = some ev →
    EmbeddedHandled room et ev ∧
    ev.sendTime.toNat < endOfTime ∧ ev.startTime.toNat < endOfTime ∧ ev.staleTime.toNat < endOfTime

theorem contained_fromMillis {B : Type} {ms : UInt64} {f : Datetime → Except Exn B} :
    Contained Exn.isCotPbError (fromMillis ms >>= f) ↔
      ∃ t, fromMillis ms = .ok t ∧ Contained Exn.isCotPbError (f t) := by
  unfold fromMillis
  rw [contained_required rfl]
  cases atOffset (ms.toNat * 1000) 0 with
  | none => simp [raiseNone]
  | some t => simp [raiseNone]

theorem contained_cotPbToCto (room : Nat) (pb : Protobuf) (et : Etree) (payload : List UInt8)
    (intake : Intake) :
    Contained Exn.isCotPbError (cotPbToCtoWithin room pb et payload intake) ↔
      PbHandled room pb et payload := by
  have built (c : CTO) : Contained Exn.isCotPbError (pure c) := contained_ok c
  unfold cotPbToCtoWithin pbEventToCto PbHandled
  rw [contained_required rfl]
  apply exists_congr
  intro msg
  apply and_congr_right
  intro _
  rw [contained_raiseNone_bind rfl]
  apply forall₂_congr
  intro ev _
  rw [contained_bind, contained_readEmbedded, readEmbedded_ok_iff]
  refine and_congr_right fun handled => ?_
  simp only [(readEmbedded_ok_iff room et ev).mpr handled, forall_const,
    contained_fromMillis, built, and_true, exists_and_right, fromMillis_eq_ok]

theorem bind_congr_ok {A B : Type} {x : Except Exn A} {f g : A → Except Exn B}
    (same : ∀ a, x = .ok a → f a = g a) : x >>= f = x >>= g := by
  cases x with
  | ok a => exact same a rfl
  | error e => rfl

/-- Where the embedded detail raises nothing, the normalizer does what it does without a limit. -/
theorem cotPbToCtoWithin_eq {room : Nat} {pb : Protobuf} {et : Etree} {payload : List UInt8}
    {intake : Intake}
    (quiet : ∀ msg ev, pb.parseFromString payload = some msg → msg.cotEvent = some ev →
      readEmbedded room et ev = .ok ()) :
    cotPbToCtoWithin room pb et payload intake = cotPbToCto pb et payload intake := by
  unfold cotPbToCtoWithin cotPbToCto
  refine bind_congr_ok fun msg read => bind_congr_ok fun ev event => ?_
  rw [quiet msg ev (raiseNone_eq_ok read) (raiseNone_eq_ok event), ok_bind]

end Pb

end TacticalGateway.Normalizers
