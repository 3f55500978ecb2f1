import TacticalGateway.Lib.Execution
import TacticalGateway.Lib.Glob
import TacticalGateway.Listeners.ProtobufFraming
import TacticalGateway.Normalizers.CotPb

/-! The route engine: dispatches that look at the configured routes one after the other and
suspend at their sends, and toggles of the routes in between. -/
namespace TacticalGateway.Routes
open Execution
open Normalizers (Etree Protobuf ctoToCotPb ctoToCotXml)

structure RouteMatch where
  sourceSystemGlob : Option String := none
  sourceProtocol : Option String := none
  objectClass : Option String := none

inductive DestinationKind where
  | tcp
  | udp
  deriving DecidableEq

def DestinationKind.value : DestinationKind → String
  | .tcp => "tcp"
  | .udp => "udp"

inductive OutputFormat where
  | cotXml
  | cotProtobuf
  deriving DecidableEq

structure Destination where
  kind : DestinationKind
  host : String
  port : Nat
  format : OutputFormat
  valid : 1 ≤ port ∧ port ≤ 65535

structure Route where
  id : String
  enabled : Bool := true
  rule : RouteMatch := {}
  destination : Destination

/-- `_matches`. -/
def matches_ (cto : CTO) (m : RouteMatch) : Bool :=
  (m.sourceSystemGlob.all (fun pattern => Glob.fnmatchcase cto.sourceSystem pattern)) &&
    m.sourceProtocol.all (fun protocol => cto.sourceProtocol.value = protocol) &&
    m.objectClass.all (fun objectClass => cto.objectClass.value = objectClass)

/-- What the two translators run on. -/
structure Translators where
  py : Normalizers.Runtime
  pb : Protobuf
  et : Etree

/-- `_translate`. -/
def translate (t : Translators) (cto : CTO) :
    OutputFormat → Except Normalizers.Exn (List UInt8 × List String)
  | .cotXml => ctoToCotXml t.py t.et cto
  | .cotProtobuf => (ctoToCotPb t.py t.pb t.et cto).map (fun r => (Listeners.encodeFrame r.1, r.2))

structure RouteStats where
  matched : Nat := 0
  sent : Nat := 0
  sendErrors : Nat := 0
  lastSendAt : Option Datetime := none

structure Sender where
  kind : DestinationKind
  host : String
  port : Nat

/-- Routes with one id share their counters. -/
structure Engine where
  routes : List Route
  stats : Dict String RouteStats
  senders : Dict String Sender

def Engine.statsOf (e : Engine) (id : String) : RouteStats := (e.stats.get? id).getD {}

def Engine.count (e : Engine) (id : String) (f : RouteStats → RouteStats) : Engine :=
  { e with stats := e.stats.set id (f (e.statsOf id)) }

def RouteStats.countMatched (s : RouteStats) : RouteStats := { s with matched := s.matched + 1 }

def RouteStats.countError (s : RouteStats) : RouteStats := { s with sendErrors := s.sendErrors + 1 }

def RouteStats.countSent (now : Datetime) (s : RouteStats) : RouteStats :=
  { s with sent := s.sent + 1, lastSendAt := some now }

/-- `_sender_for`, by the table of senders. -/
def Engine.senderFor (e : Engine) (dest : Destination) : Engine :=
  let key := dest.kind.value ++ "://" ++ dest.host ++ ":" ++ Text.decimal dest.port
  if key ∈ e.senders.keys then e
  else { e with senders := e.senders.set key ⟨dest.kind, dest.host, dest.port⟩ }

/-- The first route with the id, in the list of routes. -/
def toggleFirst (id : String) (enabled : Bool) : List Route → Option (List Route)
  | [] => none
  | r :: rs =>
    if r.id = id then some ({ r with enabled := enabled } :: rs)
    else (toggleFirst id enabled rs).map (r :: ·)

/-- `set_enabled`; none where it returns False. -/
def Engine.setEnabled (e : Engine) (id : String) (enabled : Bool) : Option Engine :=
  (toggleFirst id enabled e.routes).map (fun routes => { e with routes := routes })

/-- A route as the loop of a call finds it when its turn comes, after so many events. -/
structure Turn where
  time : Nat
  route : Route

/-- A route, by its position, that a call tries; no data where the translation has failed. -/
structure Attempt where
  position : Nat
  data : Option (List UInt8)

/-- A call of `handle_cto`, suspended at the send of its last attempt, or done. It began after so
many events. -/
structure Call where
  began : Nat
  cto : CTO
  turns : List Turn := []
  attempts : List Attempt := []
  awaiting : Option Nat := none

def Turn.wanted (cto : CTO) (t : Turn) : Bool := t.route.enabled && matches_ cto t.route.rule

def Call.look (c : Call) (t : Turn) : Call := { c with turns := c.turns ++ [t] }

def Call.attempt (c : Call) (data : Option (List UInt8)) : Call :=
  let position := c.turns.length - 1
  { c with
    attempts := c.attempts ++ [⟨position, data⟩]
    awaiting := if data.isSome then some position else none }

/-- The loop of `handle_cto` over the routes that are left, up to the first send. -/
def dispatch (tr : Translators) (time : Nat) : List Route → Engine → Call → Engine × Call
  | [], e, c => (e, c)
  | route :: rest, e, c =>
    let c := c.look ⟨time, route⟩
    if !(Turn.wanted c.cto ⟨time, route⟩) then dispatch tr time rest e c
    else
      let e := e.count route.id .countMatched
      match translate tr c.cto route.destination.format with
      | .error _ => dispatch tr time rest (e.count route.id .countError) (c.attempt none)
      | .ok (data, _) => (e.senderFor route.destination, c.attempt (some data))

/-- All calls so far, in the order in which they began. -/
structure System where
  engine : Engine
  calls : List Call
  clock : Nat

inductive Outcome where
  | sent (now : Datetime)
  | raised

inductive Event where
  | handleCto (cto : CTO)
  | setEnabled (id : String) (enabled : Bool)
  | sendEnds (call : Nat) (outcome : Outcome)

def startStats (config : List Route) : Dict String RouteStats :=
  config.foldl (fun stats r => stats.set r.id {}) .empty

def start (config : List Route) : System := ⟨⟨config, startStats config, .empty⟩, [], 0⟩

def Outcome.counted : Outcome → RouteStats → RouteStats
  | .sent now => .countSent now
  | .raised => .countError

/-- One piece of work of the event loop, between two awaits. A toggle that changes nothing is a
piece of work too. -/
def step (tr : Translators) (s : System) : Event → Option System
  | .handleCto cto =>
    let (e, c) := dispatch tr s.clock s.engine.routes s.engine { began := s.clock, cto := cto }
    some ⟨e, s.calls ++ [c], s.clock + 1⟩
  | .setEnabled id enabled =>
    some ⟨(s.engine.setEnabled id enabled).getD s.engine, s.calls, s.clock + 1⟩
  | .sendEnds n outcome =>
    match s.calls[n]? with
    | none => none
    | some c =>
      match c.awaiting.bind (fun p => s.engine.routes[p]?) with
      | none => none
      | some route =>
        let (e, c) := dispatch tr s.clock (s.engine.routes.drop c.turns.length)
          (s.engine.count route.id outcome.counted) { c with awaiting := none }
        some ⟨e, s.calls.set n c, s.clock + 1⟩

end TacticalGateway.Routes
