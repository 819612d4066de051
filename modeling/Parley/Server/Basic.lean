import Parley.Dispatch.Dispatcher
import Parley.Server.Builtin
import Parley.Server.Config

namespace Parley

structure Server where
  limit : Nat
  drainTime : Nat
  socketPath : String
  dispatcher : Dispatcher
  attached : List ConnectionId := []
  free : Nat
  draining : Bool := false

namespace Server

open Dispatch (Service)

inductive Refusal
  | shuttingDown
  | atCapacity (limit : Nat)
  deriving DecidableEq, Repr

def Refusal.message : Refusal → String
  | shuttingDown => "server is shutting down"
  | atCapacity limit => "connection limit of " ++ Decimal.ofNat limit ++ " reached"

/-- What a configured server does for its connections, with the given routes. -/
def Config.service (c : Config) (routes : Route.Table Handler) : Service :=
  { routes, config := c.dispatch, limits := c.limits }

def Config.routes (c : Config) : Route.Table Handler := registerBuiltin { tieBreak := c.tieBreak }

def ofConfig (c : Config) (routes : Route.Table Handler) : Server where
  limit := c.maxConnections
  drainTime := c.shutdownTimeout
  socketPath := c.websocketPath
  dispatcher := .ofService (c.service routes) (c.sessionMaxIdle * 1000000)
  free := c.maxConnections

def admits (s : Server) : Except Refusal Unit :=
  if s.draining then .error .shuttingDown
  else if s.free = 0 then .error (.atCapacity s.limit)
  else .ok ()

def attach (s : Server) (c : ConnectionId) : Except Refusal Server := do
  s.admits
  return { s with
    dispatcher := s.dispatcher.attach c
    attached := s.attached ++ [c]
    free := s.free - 1 }

def leaving (s : Server) : List ConnectionId := s.attached.filter s.dispatcher.isClosed

/-- A connection that has been cleaned up gives its place back. -/
def release (s : Server) (c : ConnectionId) : Server :=
  if c ∈ s.leaving then { s with attached := s.attached.erase c, free := s.free + 1 } else s

def releaseAll (s : Server) : Server := s.leaving.foldl release s

def shutDown (s : Server) : Server := { s with draining := true }

def log (s : Server) (e : Log.Event) : Server :=
  { s with dispatcher := { s.dispatcher with hub := s.dispatcher.hub.log e } }

def drain (s : Server) : Server :=
  let s := s.shutDown.log .draining
  { s with dispatcher := s.attached.foldl Dispatcher.close s.dispatcher }

def isDrained (s : Server) (connections : List ConnectionId) : Bool :=
  connections.all s.dispatcher.isClosed

end Server

end Parley

namespace Parley.Server

structure Stdio where
  server : Server
  connection : ConnectionId

namespace Stdio

def begin (c : Config) (connection : ConnectionId) : Except Refusal Stdio := do
  let server ← ((ofConfig c c.routes).log .ready |>.log .starting).attach connection
  return { server, connection }

def modify (s : Stdio) (f : Dispatcher → Dispatcher) : Stdio :=
  { s with server := { s.server with dispatcher := f s.server.dispatcher } }

def settle (fuel : Nat) (s : Stdio) : Stdio := s.modify (Dispatcher.settle fuel)

/-- More has come in. -/
def receive (s : Stdio) (bytes : Bytes) : Stdio :=
  s.modify fun d => d.modify s.connection fun l => l.receive bytes

def finish (s : Stdio) : Stdio := s.modify fun d => d.modify s.connection Dispatch.Link.farStops

def written (s : Stdio) : List Bytes :=
  ((s.server.dispatcher.link? s.connection).map (·.written)).getD []

def collected (s : Stdio) : Stdio :=
  s.modify fun d => d.modify s.connection fun l => { l with written := [] }

def isClosed (s : Stdio) : Bool := s.server.dispatcher.isClosed s.connection

def events (s : Stdio) : List Log.Event :=
  s.server.dispatcher.hub.events.reverse ++ [.hungUp, .draining, .stopped]

end Stdio

end Parley.Server
