import Parley.Frame.Decoder
import Parley.Handler.Program
import Parley.InFlight
import Parley.Log.Event
import Parley.Message.Envelope
import Parley.Route.Table
import Parley.Session.Manager

namespace Parley.Dispatch

/-- Without a limit a handler, or a request of our own, may take for ever. -/
structure Config where
  handlerTimeout : Option Nat := none
  requestTimeout : Option Nat := none
  outboundQueue : Nat := 256
  inboundQueue : Nat := 256
  deriving DecidableEq, Repr, Inhabited

end Parley.Dispatch

namespace Parley.Dispatch

/-- How messages are written in frames. What cannot be read or written is left out. -/
structure Codec where
  decode : Bytes → Option Message := fun frame => (Message.decode frame).toOption
  encode : Message → Option Bytes := fun m => some m.encode
  isUnversioned : Bytes → Bool := Message.isUnversioned

instance : Inhabited Codec := ⟨{}⟩

structure Service where
  routes : Route.Table Handler := {}
  config : Config := {}
  limits : Frame.Limits := {}
  codec : Codec := {}

/-- What a token belongs to: a connection as a whole, all its handlers, or one of them. -/
inductive Scope
  | connection
  | handlers
  | call (serial : Nat)
  deriving DecidableEq, Repr

abbrev TokenName := ConnectionId × Scope

abbrev CallName := ConnectionId × Nat

structure Hub where
  inflight : InFlight TokenName := {}
  sessions : Session.Manager CallName
  moment : Nat := 0
  now : Nat := 0
  gates : List String := []
  journal : List String := []
  events : List Log.Event := []

namespace Hub

def log (h : Hub) (e : Log.Event) : Hub := { h with events := e :: h.events }

def logAll (h : Hub) (es : List Log.Event) : Hub := es.foldl log h

def logIf (h : Hub) (condition : Bool) (e : Log.Event) : Hub := if condition then h.log e else h

def note (h : Hub) (line : String) : Hub := { h with journal := h.journal ++ [line] }

def fire (h : Hub) (c : ConnectionId) (s : Scope) : Hub :=
  { h with inflight := h.inflight.fire (c, s) }

def stopToken (c : ConnectionId) : Flow.Token TokenName := ⟨(c, .connection), []⟩

def handlersToken (c : ConnectionId) : Flow.Token TokenName := (stopToken c).child (c, .handlers)

def callToken (c : ConnectionId) (serial : Nat) : Flow.Token TokenName :=
  (handlersToken c).child (c, .call serial)

def isStopped (h : Hub) (c : ConnectionId) : Bool := h.inflight.isCancelled (stopToken c)

def tick (h : Hub) : Hub := { h with moment := h.moment + 1 }

end Hub

end Parley.Dispatch
