import Parley.Decimal.Natural
import Parley.Route.Table
import Parley.Text.Quoted

namespace Parley

inductive Transport
  | stdio
  | tcp
  | websocket
  deriving DecidableEq, Repr, Inhabited

namespace Transport

def name : Transport → String
  | stdio => "stdio"
  | tcp => "tcp"
  | websocket => "websocket"

def all : List Transport := [stdio, tcp, websocket]

end Transport

inductive LogLevel
  | trace
  | debug
  | info
  | warn
  | error
  deriving DecidableEq, Repr

namespace LogLevel

instance : Inhabited LogLevel := ⟨info⟩

def name : LogLevel → String
  | trace => "trace"
  | debug => "debug"
  | info => "info"
  | warn => "warn"
  | error => "error"

def all : List LogLevel := [trace, debug, info, warn, error]

def verbosity : LogLevel → Nat
  | error => 1
  | warn => 2
  | info => 3
  | debug => 4
  | trace => 5

end LogLevel

inductive LogFormat
  | pretty
  | json
  deriving DecidableEq, Repr, Inhabited

namespace LogFormat

def name : LogFormat → String
  | pretty => "pretty"
  | json => "json"

def all : List LogFormat := [pretty, json]

end LogFormat

namespace Route.TieBreak

def name : TieBreak → String
  | reject => "reject"
  | firstRegistered => "firstRegistered"

def all : List TieBreak := [reject, firstRegistered]

end Route.TieBreak

namespace Settings

structure Server where
  transport : Transport := .stdio
  host : String := "127.0.0.1"
  port : Nat := 2087
  websocketPath : String := "/ws"
  wsFrameHeaders : Bool := true
  maxConnections : Nat := 64
  shutdownTimeoutSecs : Nat := 5
  deriving DecidableEq, Repr, Inhabited

structure Rpc where
  tieBreak : Route.TieBreak := .reject
  handlerTimeoutMs : Option Nat := none
  requestTimeoutMs : Option Nat := none
  outboundQueue : Nat := 256
  inboundQueue : Nat := 256
  maxFrameBytes : Nat := 16777216
  maxHeaderBytes : Nat := 4096
  deriving DecidableEq, Repr, Inhabited

structure Session where
  maxIdleSecs : Nat := 1800
  deriving DecidableEq, Repr, Inhabited

/-- Levels of single modules stand in the order of the module names. -/
structure Logging where
  level : LogLevel := .info
  format : LogFormat := .pretty
  modules : List (String × LogLevel) := []
  deriving DecidableEq, Repr, Inhabited

/-- The filter that the logging settings ask for: a level, and the exceptions from it. -/
def Logging.directive (l : Logging) : String :=
  l.modules.foldl (fun text m => text ++ "," ++ m.1 ++ "=" ++ m.2.name) l.level.name

end Settings

structure Settings where
  server : Settings.Server := {}
  rpc : Settings.Rpc := {}
  session : Settings.Session := {}
  logging : Settings.Logging := {}
  deriving DecidableEq, Repr, Inhabited

namespace Settings

inductive Fault
  | smallHeaderLimit (got : Nat)
  | noFrameBytes
  | noQueueCapacity
  | noConnections
  | relativePath (got : String)
  deriving DecidableEq, Repr

def leastHeaderBytes : Nat := 64

namespace Fault

def reason : Fault → String
  | smallHeaderLimit got => "rpc.maxHeaderBytes must be at least 64, got " ++ Decimal.ofNat got
  | noFrameBytes => "rpc.maxFrameBytes must be positive"
  | noQueueCapacity => "rpc queue capacities must be positive"
  | noConnections => "server.maxConnections must be positive"
  | relativePath got => "server.websocketPath must start with '/', got " ++ Text.quoted got

def message (f : Fault) : String := "invalid settings value: " ++ f.reason

end Fault

/-- The first fault, in a fixed order of fields. -/
def fault? (s : Settings) : Option Fault :=
  if s.rpc.maxHeaderBytes < leastHeaderBytes then some (.smallHeaderLimit s.rpc.maxHeaderBytes)
  else if s.rpc.maxFrameBytes = 0 then some .noFrameBytes
  else if s.rpc.outboundQueue = 0 ∨ s.rpc.inboundQueue = 0 then some .noQueueCapacity
  else if s.server.maxConnections = 0 then some .noConnections
  else if s.server.websocketPath.toList.head? ≠ some '/' then
    some (.relativePath s.server.websocketPath)
  else none

end Settings

end Parley
