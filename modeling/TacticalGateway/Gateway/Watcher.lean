import TacticalGateway.Gateway.Ingest
import TacticalGateway.Normalizers.CotXml

/-! The folder watcher: which files one scan picks up, and where they are afterwards. An exception
that leaves `_process` ends the scan; the loop logs it and scans again. -/
namespace TacticalGateway.Gateway
open Text

abbrev Ingestor := IngestArguments → Option Verdict × Publishing

structure Watcher where
  inboxPath : String
  inFlight : List String
  handlers : Dict String Ingestor

/-- A directory entry, and what `_scan_once` finds when it comes to it; a size that is missing is an
`OSError`, or a file that has gone. -/
structure Entry where
  name : String
  isDir : Bool
  size1 : Option Nat
  size2 : Option Nat
  disk : Disk
  ts : String

structure Inbox where
  entries : List Entry
  distinct : (entries.map Entry.name).Nodup

structure Attempt where
  entry : Entry
  placement : Placement
  publishing : Publishing

namespace Watcher

def init (inboxPath : String) : Watcher := ⟨inboxPath, [], .empty⟩

def register (w : Watcher) (extension : String) (ingestor : Ingestor) : Watcher :=
  let ext := Normalizers.lower extension
  let ext := if ".".toList.isPrefixOf ext.toList then ext else "." ++ ext
  { w with handlers := w.handlers.set ext ingestor }

def registered (inboxPath : String) (calls : List (String × Ingestor)) : Watcher :=
  calls.foldl (fun w call => w.register call.1 call.2) (init inboxPath)

def matchHandler (w : Watcher) (filename : String) : Option Ingestor :=
  let lname := Normalizers.lower filename
  (w.handlers.items.find? (fun i => i.1.toList.isSuffixOf lname.toList)).map Prod.snd

def sourceLabel (w : Watcher) : String := "folder:" ++ w.inboxPath

/-- The checks of `_scan_once` up to the pickup. -/
def pick (w : Watcher) (e : Entry) : Option Ingestor :=
  if e.isDir then none
  else
    match w.matchHandler e.name with
    | none => none
    | some handler =>
      if e.name ∈ w.inFlight then none
      else
        match e.size1 with
        | none => none
        | some size1 => if size1 = 0 then none else if e.size2 = some size1 then
          some handler else none

/-- The attempts in their order, whether an exception ended the scan, and the names in flight. -/
def scanEntries (w : Watcher) : List Entry → List Attempt × Bool × Watcher
  | [] => ([], false, w)
  | e :: es =>
    match w.pick e with
    | none => w.scanEntries es
    | some handler =>
      let (placement, raised, publishing) := processFile e.disk w.inboxPath e.name e.ts handler
      let w := { w with inFlight := (e.name :: w.inFlight).filter (· ≠ e.name) }
      if raised then ([⟨e, placement, publishing⟩], true, w)
      else
        let (later, raised, w) := w.scanEntries es
        (⟨e, placement, publishing⟩ :: later, raised, w)

def sortedEntries (entries : List Entry) : List Entry :=
  entries.insertionSort (fun e e' => e.name ≤ e'.name)

def scanOnce (w : Watcher) (inbox : Inbox) : List Attempt × Bool × Watcher :=
  w.scanEntries (sortedEntries inbox.entries)

/-- `_loop`: the attempts of each scan; a scan that raised is followed by the next one. -/
def loop (w : Watcher) : List Inbox → List (List Attempt)
  | [] => []
  | inbox :: polls =>
    let (attempts, _, w) := w.scanOnce inbox
    attempts :: w.loop polls

end Watcher

namespace Watcher

variable {w : Watcher} {e : Entry} {es : List Entry} {handler : Ingestor}

end Watcher

/-- `<MODEL><milbobject></milbobject></MODEL>`: an object without a position. -/
def placeless : Bytes := Text.encode "<MODEL><milbobject></milbobject></MODEL>"

def emptyModel : Bytes := Text.encode "<MODEL></MODEL>\n"

/-- The parsers on the two overlays: coordinates that are missing are a `ValidationError`. -/
def overlayParsers : Parsers :=
  { onePoint with
    ovlToCtos := fun _ data _ _ _ _ _ => if data = placeless then .raised else .ctos [] }

def overlayIngestor : Ingestor := fun args =>
  ovlHandler overlayParsers { onePointCall (fun _ => true) with toIngestArguments := args }

def overlayEntry (name : String) (data : Bytes) : Entry :=
  { name := name
    isDir := false
    size1 := some data.length
    size2 := some data.length
    disk := ⟨true, some data, true, true⟩
    ts := "20240101T000000" }

def overlays : Inbox where
  entries := [overlayEntry "b.ovl" emptyModel, overlayEntry "a.ovl" placeless]
  distinct := by decide

def overlayWatcher : Watcher := .registered "/inbox" [(".ovl", overlayIngestor)]

end TacticalGateway.Gateway
