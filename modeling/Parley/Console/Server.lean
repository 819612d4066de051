import Parley.Console.Dispatch
import Parley.Server.Health

namespace Parley.Console.Server

open Console.Dispatch (cable config done sorted)
open Parley.Server (Refusal Page socketPattern)

structure State where
  server : Parley.Server
  clients : Dispatcher
  cables : List Cable := []
  roster : List (Network.Task × Nat) := []
  names : List String := []
  tags : Names Network.Task := []

namespace State

def network (s : State) : Network := ⟨s.server.dispatcher, s.clients, s.cables, s.roster⟩

def setNetwork (s : State) (n : Network) : State :=
  { s with
    server := { s.server with dispatcher := n.near }
    clients := n.far
    cables := n.cables
    roster := n.roster }

def modify (s : State) (f : Network → Network) : State := s.setNetwork (f s.network)

/-- All tasks take their turns, and connections that have been cleaned up leave the server. -/
def settle (s : State) : State :=
  let s := s.modify (·.settle turns)
  { s with server := s.server.releaseAll }

def refusal (r : Refusal) : Json :=
  faultText (match r with
    | .shuttingDown => "ShuttingDown"
    | .atCapacity _ => "AtCapacity") r.message

def attach (s : State) (name : String) : State × Json :=
  let k := cable name
  match s.server.attach k.near with
  | .error r => (s, refusal r)
  | .ok server => ({ s with
      server, clients := s.clients.attach k.far, cables := s.cables ++ [k],
      names := s.names ++ [name] }, .str "ok")

/-- Close all connections, and tell whether that was done within the time there is for it. -/
def drain (s : State) : State × Json :=
  let there := s.server.attached
  let s := { s with server := s.server.drain }
  let t := s.settle
  (t, .bool ((if s.server.drainTime = 0 then s else t).server.isDrained there))

def request (s : State) (c : Json) (name : String) : Option State := do
  let k := cable name
  let (n, number) ← s.network.send .far k.far (← Errand.ofCommand? c)
  let task : Network.Task := (.far, k.far, .caller number)
  some { s.setNetwork n with tags := (← c.stringAt? "tag", task) :: s.tags }

end State

def page (p : Page) : Json :=
  let shown := match p with
    | .health h => [("health", h.toJson), ("has_uptime", Json.bool true)]
    | _ => []
  .ofMembers (("status", .ofNat p.status) :: shown)

def verb (s : State) (c : Json) (name : String) : Option (State × Json) := do
  let side (x : Side) : State × Json :=
    (s.modify (·.modify x (·.close ((cable name).side x))), .null)
  match ← c.stringAt? "do" with
  | "attach" => some (s.attach name)
  | "request" => do some (← s.request c name, .null)
  | "close" => some (side .near)
  | "far_close" => some (side .far)
  | "open" => do
    let gate ← c.stringAt? "gate"
    some (s.modify (·.openGate gate), .null)
  | "advance" => do
    let ms ← c.natAt? "ms"
    some (s.modify (·.advance ms), .null)
  | "shutdown" => some ({ s with server := s.server.shutDown }, .null)
  | "drain" => some s.drain
  | "get" => do
    let p := s.server.page ((c.stringAt? "method").getD "GET") (← c.stringAt? "path")
    some (s, page (← p.toOption))
  | _ => none

def step (s : State) (c : Json) : Option (State × Json) := do
  let (s, r) ← verb s c ((c.stringAt? "conn").getD "a")
  let s := s.settle
  let server := s.server
  let closed := s.names.map fun name =>
    (name, Json.bool (server.dispatcher.isClosed (cable name).near))
  some (s.modify Network.reported, .ofMembers [("r", r), ("done", done s.network s.tags),
    ("log", sorted s.network.journal), ("connections", .ofNat server.attached.length),
    ("handles", .ofNat server.attached.length),
    ("inflight", .ofNat server.dispatcher.hub.inflight.size), ("draining", .bool server.draining),
    ("closed", .ofMembers closed)])

def unservable? (path : String) (steps : List Json) : Option Json :=
  match socketPattern path with
  | .ok _ => none
  | .error f =>
    if steps.any fun c => c.stringAt? "do" = some "get" then
      some (faultText "panic" (f.message path))
    else none

def transcript (v : Json) : Option Json := do
  let limit := (v.natAt? "max_connections").getD 4
  let c : Parley.Server.Config := {
    (default : Parley.Server.Config) with
    maxConnections := limit
    shutdownTimeout := (v.natAt? "shutdown_timeout_ms").getD 2000
    websocketPath := (v.stringAt? "websocket_path").getD "/ws"
    dispatch := config (v.get? "config") }
  let server := Parley.Server.ofConfig c (← Route.handlers? c.routes v "routes")
  let routes ← Route.handlers? {} v "client_routes"
  let clients := Dispatcher.ofService { routes } (maxIdle (.obj []))
  let steps ← v.itemsAt? "steps"
  match unservable? c.websocketPath steps with
  | some e => some e
  | none => do
    let (_, shown) ← run { server, clients } step steps
    some (.ofMembers [("max_connections", .ofNat limit), ("steps", .arr shown)])

/-- A visit of a client to a listener, on a host that cannot reach itself. -/
def visit (s : Parley.Server) (c : Json) : Option (Except Json (Parley.Server × Json)) := do
  let report (s : Parley.Server) (r : Json) : Except Json (Parley.Server × Json) :=
    .ok (s, .ofMembers [("r", r), ("out", .arr []), ("ended", .null),
      ("connections", .ofNat s.attached.length)])
  match ← c.stringAt? "do" with
  | "connect" | "get" => some (.error (faultText "panic" Parley.Server.Host.unreachable.message))
  | "shutdown" =>
    let s := s.shutDown
    some (report s (.ofMembers [("clients", .obj []), ("served", .bool s.draining),
      ("refused", .bool !s.admits.isOk)]))
  | _ => some (report s (.bool true))

def visits (s : Parley.Server) (out : List Json) : List Json → Option Json
  | [] => some (.ofMembers [("steps", .arr out)])
  | c :: cs => do
    match ← visit s c with
    | .error e => some e
    | .ok (s, shown) => visits s (out ++ [shown]) cs

def serve (v : Json) : Option Json := do
  let c : Parley.Server.Config := default
  let server := Parley.Server.ofConfig c (← Route.handlers? c.routes v "routes")
  visits server [] (← v.itemsAt? "steps")

end Parley.Console.Server
