import Parley.Console.Route
import Parley.Dispatch.Network

namespace Parley.Console.Dispatch

open Parley.Dispatch (Codec Config Link Service)

def limits (v : Option Json) : Frame.Limits :=
  { header := (v.bind (Json.natAt? · "header")).getD 4096
    frame := (v.bind (Json.natAt? · "frame")).getD 16777216 }

def config (v : Option Json) : Config where
  handlerTimeout := v.bind (Json.natAt? · "handler_timeout_ms")
  requestTimeout := v.bind (Json.natAt? · "request_timeout_ms")
  outboundQueue := (v.bind (Json.natAt? · "outbound_queue")).getD 256
  inboundQueue := (v.bind (Json.natAt? · "inbound_queue")).getD 256

def refuses (v : Option Json) (name : String) (frame : Bytes) : Bool :=
  match v.bind (Json.stringAt? · name) with
  | some text => (Text.cut (Bytes.ofString text) frame).isSome
  | none => false

def codec (v : Option Json) : Codec where
  decode frame := if refuses v "refuse_decode" frame then none else ({} : Codec).decode frame
  encode m := if refuses v "refuse_encode" m.encode then none else ({} : Codec).encode m

def service? (v : Json) : Option Service := do
  some {
    routes := ← Route.handlers? { tieBreak := ← Route.tieBreak? v } v "routes"
    config := config (v.get? "config")
    limits := limits (v.get? "limits")
    codec := codec (v.get? "codec") }

def cable (name : String) : Cable := ⟨⟨"<" ++ name ++ ">"⟩, ⟨"<peer " ++ name ++ ">"⟩⟩

structure State where
  network : Network
  joined : Bool
  tags : Names Network.Task := []
  gone : List ConnectionId := []

namespace State

def attach (s : State) (name : String) : State :=
  let k := cable name
  { s with network := if s.joined then s.network.join k
      else s.network.modify .near (·.attach k.near) }

def link? (s : State) (side : Side) (name : String) : Option Link :=
  (s.network.side side).link? ((cable name).side side)

def modify (s : State) (name : String) (f : Link → Link) : State :=
  { s with network := s.network.modify .near (·.modify (cable name).near f) }

/-- Send an errand, and tell it by its tag if it has one. -/
def send (s : State) (c : Json) (name : String) (side : Side) : Option State := do
  let conn := (cable name).side side
  let (network, number) ← s.network.send side conn (← Errand.ofCommand? c)
  let task : Network.Task := (side, conn, .caller number)
  some { s with network, tags := (c.stringAt? "tag").toList.map (·, task) ++ s.tags }

def depart (s : State) (name : String) : State :=
  let seen := (s.link? .near name).any (·.writerDone)
  { s.modify name Link.farLeaves with
    gone := if seen then s.gone else (cable name).near :: s.gone }

end State

/-- The errands that are done, by their tags. -/
def done (n : Network) (tags : Names Network.Task) : Json :=
  .ofMembers (n.outcomes.filterMap fun o =>
    (tags.find? fun t => t.2 = o.1).map fun t => (t.1, ExchangeError.outcome o.2))

def sorted (lines : List String) : Json := .ofStrings (lines.mergeSort fun a b => a ≤ b)

def framed (v : Json) : Bytes :=
  (v.items?.getD [v]).flatMap fun m => Frame.encode (Bytes.ofString m.text)

def verb (s : State) (c : Json) (name : String) : Option State := do
  let side : Side := if c.stringAt? "side" = some "peer" then .far else .near
  match ← c.stringAt? "do" with
  | "attach" => some (s.attach name)
  | "settle" => some s
  | "send" => do
    let bytes := framed (← c.get? "msg")
    some (s.modify name (·.accept bytes))
  | "frame" => do
    let bytes := Frame.encode (← bytesAt? c "body")
    some (s.modify name (·.accept bytes))
  | "raw" => do
    let bytes ← bytesAt? c "bytes"
    some (s.modify name (·.accept bytes))
  | "open" => do some { s with network := s.network.openGate (← c.stringAt? "gate") }
  | "advance" => do some { s with network := s.network.advance (← c.natAt? "ms") }
  | "request" | "notify" | "cancel" => s.send c name side
  | "close" =>
    some { s with network := s.network.modify side (·.close ((cable name).side side)) }
  | "half_close" => some (s.modify name Link.farStops)
  | "hang_up" => some (s.depart name)
  | _ => none

def farView (s : State) (name : String) (l : Link) : Option Json.Members := do
  if s.joined then
    let m ← s.link? .far name
    some [("out", .arr []), ("peer_closed", .bool m.isClosed),
      ("peer_pending", .ofNat m.desk.peer.pending.size)]
  else
    some [("out", sorted (← l.written.mapM Bytes.toString?)),
      ("eof", .bool (l.writerDone && !s.gone.contains l.id))]

def view (s : State) (name : String) : Option Json := do
  let l ← s.link? .near name
  let hub := s.network.near.hub
  some (.ofMembers ((← farView s name l) ++ [("log", sorted s.network.journal),
    ("done", done s.network s.tags), ("inflight", .ofNat hub.inflight.size),
    ("conn_inflight", .ofNat (hub.inflight.sizeOf l.id)),
    ("pending", .ofNat l.desk.peer.pending.size), ("closed", .bool l.isClosed),
    ("stored", .ofNat hub.sessions.store.size), ("live", .ofNat hub.sessions.live)]))

def step (s : State) (c : Json) : Option (State × Json) := do
  let name := (c.stringAt? "conn").getD "a"
  let s ← verb s c name
  let s := { s with network := s.network.settle turns }
  let shown ← view s name
  let s := { s with network := s.network.reported }
  some (s.modify name fun l => { l with written := [] }, shown)

def transcript (v : Json) : Option Json := do
  let store := (v.get? "store").getD (.obj [])
  let near := Dispatcher.serving (← service? v) (manager Parley.Dispatch.CallName store)
  let routes ← Route.handlers? {} v "peer_routes"
  let far := Dispatcher.ofService { routes, limits := limits (v.get? "limits") } (maxIdle (.obj []))
  let s : State := { network := { near, far }, joined := (v.get? "peer_routes").isSome }
  Console.transcript (s.attach "a") step v

end Parley.Console.Dispatch
