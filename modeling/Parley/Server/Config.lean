import Parley.Address
import Parley.Dispatch.Hub
import Parley.Frame.Decoder
import Parley.Settings.Basic

namespace Parley.Server

structure Config where
  transport : Transport
  host : String
  port : Nat
  websocketPath : String
  wsFrameHeaders : Bool
  maxConnections : Nat
  shutdownTimeout : Nat
  tieBreak : Route.TieBreak
  limits : Frame.Limits
  dispatch : Dispatch.Config
  sessionMaxIdle : Nat
  deriving DecidableEq, Repr

namespace Config

def ofSettings (s : Settings) : Config where
  transport := s.server.transport
  host := s.server.host
  port := s.server.port
  websocketPath := s.server.websocketPath
  wsFrameHeaders := s.server.wsFrameHeaders
  maxConnections := s.server.maxConnections
  shutdownTimeout := s.server.shutdownTimeoutSecs * 1000
  tieBreak := s.rpc.tieBreak
  limits := ⟨s.rpc.maxHeaderBytes, s.rpc.maxFrameBytes⟩
  dispatch := ⟨s.rpc.handlerTimeoutMs, s.rpc.requestTimeoutMs, s.rpc.outboundQueue,
    s.rpc.inboundQueue⟩
  sessionMaxIdle := s.session.maxIdleSecs * 1000

instance : Inhabited Config := ⟨ofSettings {}⟩

def listenText (c : Config) : String := c.host ++ ":" ++ Decimal.ofNat c.port

/-- The address to listen on. The host must be an address itself, not a name. -/
def listenAddress? (c : Config) : Option Address := Address.read? c.listenText

def invalidAddress (text : String) : String := "invalid listen address: " ++ text

end Config

end Parley.Server

namespace Parley.Server.Host

def firstOpenPort : Nat := 1024

def isOpenPort (port : Nat) : Bool := port = 0 || firstOpenPort ≤ port

def isLocal : Address → Bool
  | .v4 _ _ => true
  | .v6 ip _ _ => ip.mapped?.isSome || ip.groups.all (· = 0)

def canBind (bound : List Address) (a : Address) : Bool :=
  isOpenPort a.port && isLocal a && !bound.contains a

/-- The address of a listener, its port chosen by the host where none is asked for. -/
def assign (fresh : Nat) : Address → Address
  | .v4 ip port => .v4 ip (if port = 0 then fresh else port)
  | .v6 ip scope port => .v6 ip scope (if port = 0 then fresh else port)

structure Failure where
  call : String
  code : Nat
  kind : String
  text : String

def Failure.message (f : Failure) : String :=
  f.call ++ ": Os \x7b code: " ++ Decimal.ofNat f.code ++ ", kind: " ++ f.kind ++ ", message: \""
    ++ f.text ++ "\" \x7d"

def unreachable : Failure := ⟨"connect", 101, "NetworkUnreachable", "Network is unreachable"⟩

end Parley.Server.Host
