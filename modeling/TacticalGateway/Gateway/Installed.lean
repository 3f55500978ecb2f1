import TacticalGateway.Gateway.Linkage
import TacticalGateway.Kmz.Agreement
import TacticalGateway.Kmz.Delivery
import TacticalGateway.Normalizers.CotPb
import TacticalGateway.Ovl.Contract

/-! The four parsers that the gateway installs, and the one fact that linkage asks of them: each
object they make carries the pointer to the bytes it was made from. -/
namespace TacticalGateway.Gateway
open Normalizers (Etree Protobuf cotPbToCtoWithin cotXmlToCtoWithin)

/-- What the parsers use of Python and of third-party packages, and the calls the interpreter's
stack has room for. -/
structure Libraries where
  room : Nat
  py : Normalizers.Runtime
  et : Etree
  pb : Protobuf
  ovl : Ovl.Runtime
  kmz : Kmz.Runtime
  uuid7 : Nat → UUID

def cotXmlParsed : Except Normalizers.Exn CTO → Parsed
  | .ok cto => .ctos [cto]
  | .error (.cotXmlParseError message) => .parseError message
  | .error _ => .raised

def cotPbParsed : Except Normalizers.Exn CTO → Parsed
  | .ok cto => .ctos [cto]
  | .error (.cotPbError message) => .parseError message
  | .error _ => .raised

def Libraries.parsers (lib : Libraries) : Parsers where
  cotXmlToCto := fun draw data sourceSystem receivedAt rawPointer =>
    cotXmlParsed (cotXmlToCtoWithin lib.room lib.py lib.et data
      ⟨lib.uuid7 draw, sourceSystem, receivedAt, rawPointer⟩)
  cotPbToCto := fun draw data sourceSystem receivedAt rawPointer =>
    cotPbParsed (cotPbToCtoWithin lib.room lib.pb lib.et data
      ⟨lib.uuid7 draw, sourceSystem, receivedAt, rawPointer⟩)
  kmzToCtos := fun draw data filename sourceSystem receivedAt rawPointer ingestSource =>
    Kmz.parsed (Kmz.kmzToCtos lib.kmz data
      ⟨draw, filename, sourceSystem, receivedAt, rawPointer, ingestSource⟩)
  ovlToCtos := fun draw data filename sourceSystem receivedAt rawPointer ingestSource =>
    Ovl.parsed (Ovl.ovlToCtos lib.ovl lib.et data
      ⟨draw, filename, sourceSystem, receivedAt, rawPointer, ingestSource⟩)

section Normalizers
open Normalizers

variable {py : Runtime} {et : Etree} {pb : Protobuf} {room : Nat} {intake : Intake} {cto : CTO}

theorem headedCto_pointer {root : ElementTree.Element} {h : Header}
    (made : headedCto py root intake h = .ok cto) : cto.rawPointer = some intake.rawPointer := by
  unfold headedCto at made
  obtain ⟨eventTime, _, made⟩ := bind_ok made
  obtain ⟨start, _, made⟩ := bind_ok made
  obtain ⟨stale, _, made⟩ := bind_ok made
  cases made
  rfl

theorem cotXmlToCtoWithin_pointer {xml : List UInt8}
    (made : cotXmlToCtoWithin room py et xml intake = .ok cto) :
    cto.rawPointer = some intake.rawPointer := by
  unfold cotXmlToCtoWithin at made
  split at made
  · cases made
  · split at made
    · cases made
    · obtain ⟨h, _, made⟩ := bind_ok made
      obtain ⟨_, _, made⟩ := bind_ok made
      exact headedCto_pointer made

theorem cotPbToCtoWithin_pointer {payload : List UInt8}
    (made : cotPbToCtoWithin room pb et payload intake = .ok cto) :
    cto.rawPointer = some intake.rawPointer := by
  unfold cotPbToCtoWithin at made
  obtain ⟨msg, _, made⟩ := bind_ok made
  obtain ⟨ev, _, made⟩ := bind_ok made
  obtain ⟨_, _, made⟩ := bind_ok made
  unfold pbEventToCto at made
  obtain ⟨eventTime, _, made⟩ := bind_ok made
  obtain ⟨start, _, made⟩ := bind_ok made
  obtain ⟨stale, _, made⟩ := bind_ok made
  cases made
  rfl

end Normalizers

theorem ovlToCtos_pointer {py : Ovl.Runtime} {et : Etree} {data : List UInt8} {intake : Ovl.Intake}
    {ctos : List CTO} {cto : CTO} (made : Ovl.ovlToCtos py et data intake = .ok ctos)
    (member : cto ∈ ctos) : cto.rawPointer = some intake.rawPointer := by
  unfold Ovl.ovlToCtos at made
  split at made
  · cases made
  · obtain ⟨_, _, one⟩ := Ovl.mem_ctosFrom made member
    exact Ovl.ctoOf_pointer one

theorem kmzToCtos_pointer {py : Kmz.Runtime} {data : List UInt8} {intake : Kmz.Intake}
    {ctos : List CTO} {cto : CTO} (made : Kmz.kmzToCtos py data intake = .ok ctos)
    (member : cto ∈ ctos) : cto.rawPointer = some intake.rawPointer := by
  obtain ⟨_, _, _, _, loop⟩ := Kmz.kmzToCtos_ok made
  obtain ⟨_, _, one⟩ := Kmz.mem_ctosFrom loop member
  obtain ⟨_, same⟩ := Kmz.placemarkToCto_made one
  exact same.pointer

theorem cotXmlParsed_eq {r : Except Normalizers.Exn CTO} {ctos : List CTO}
    (parsed : cotXmlParsed r = .ctos ctos) : ∃ cto, r = .ok cto ∧ ctos = [cto] := by
  unfold cotXmlParsed at parsed
  split at parsed <;> cases parsed
  exact ⟨_, rfl, rfl⟩

theorem cotPbParsed_eq {r : Except Normalizers.Exn CTO} {ctos : List CTO}
    (parsed : cotPbParsed r = .ctos ctos) : ∃ cto, r = .ok cto ∧ ctos = [cto] := by
  unfold cotPbParsed at parsed
  split at parsed <;> cases parsed
  exact ⟨_, rfl, rfl⟩

theorem kmzParsed_eq {r : Except Kmz.Exn (List CTO)} {ctos : List CTO}
    (parsed : Kmz.parsed r = .ctos ctos) : r = .ok ctos := by
  unfold Kmz.parsed at parsed
  split at parsed <;> cases parsed
  rfl

theorem ovlParsed_eq {r : Except Ovl.Exn (List CTO)} {ctos : List CTO}
    (parsed : Ovl.parsed r = .ctos ctos) : r = .ok ctos := by
  unfold Ovl.parsed at parsed
  split at parsed <;> cases parsed
  rfl

/-- The parsers of the gateway keep the pointer they are given. -/
theorem installed_keepPointer (lib : Libraries) : lib.parsers.KeepPointer := by
  intro draw m rawPointer ctos parsed cto member
  unfold Parsers.normalize at parsed
  cases source : m.source with
  | cotXmlTcp sourceSystem =>
    simp only [source] at parsed
    obtain ⟨made, one, rfl⟩ := cotXmlParsed_eq parsed
    cases List.mem_singleton.mp member
    exact cotXmlToCtoWithin_pointer one
  | cotXmlUdp sourceSystem =>
    simp only [source] at parsed
    obtain ⟨made, one, rfl⟩ := cotXmlParsed_eq parsed
    cases List.mem_singleton.mp member
    exact cotXmlToCtoWithin_pointer one
  | cotPbTcp sourceSystem =>
    simp only [source] at parsed
    obtain ⟨made, one, rfl⟩ := cotPbParsed_eq parsed
    cases List.mem_singleton.mp member
    exact cotPbToCtoWithin_pointer one
  | kmzFile filename sourceLabel ingestSource =>
    simp only [source] at parsed
    exact kmzToCtos_pointer (kmzParsed_eq parsed) member
  | ovlFile filename sourceLabel ingestSource =>
    simp only [source] at parsed
    exact ovlToCtos_pointer (ovlParsed_eq parsed) member

end TacticalGateway.Gateway
