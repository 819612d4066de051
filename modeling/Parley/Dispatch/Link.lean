import Parley.Dispatch.Call
import Parley.Dispatch.Inbound
import Parley.Flow.Fanout
import Parley.Peer.Basic

namespace Parley.Dispatch

inductive Reader
  | reading
  | publishing (id : Nat)
  | done
  deriving DecidableEq, Repr

inductive Pump
  | taking
  | handling (m : Message)
  | replying (m : Message)
  | done

/-- To clean up, a supervisor takes the requests of the connection out of the registry, seizes each
of them and fires its token, closes the table of pending requests, fires the token of all handlers,
and then that of the connection. -/
inductive Supervisor
  | awaitingReader
  | awaitingRequests
  | awaitingResponses
  | withdrawing
  | seizing (ts : List (Ticket TokenName))
  | firing (t : Ticket TokenName) (ts : List (Ticket TokenName))
  | closing
  | dismissing
  | stopping
  | awaitingWriter
  | done
  deriving DecidableEq, Repr

structure Link where
  id : ConnectionId
  inbound : Inbound
  fanout : Flow.Fanout Message
  desk : Desk Actor
  reader : Reader := .reading
  requests : Pump := .taking
  responsesDone : Bool := false
  writerDone : Bool := false
  supervisor : Supervisor := .awaitingReader
  calls : List Call := []
  numbered : Nat := 0
  written : List Bytes := []
  farOpen : Bool := true

namespace Link

def requestQueue : Nat := 0
def responseQueue : Nat := 1

def fanoutOf (capacity : Nat) : Flow.Fanout Message :=
  (((({} : Flow.Fanout Message).subscribe capacity fun m => !m.isResponse).1).subscribe capacity
    Message.isResponse).1

def attach (sv : Service) (id : ConnectionId) : Link where
  id := id
  inbound := { decoder := { limits := sv.limits } }
  fanout := fanoutOf sv.config.inboundQueue
  desk := { peer := .connected sv.config.outboundQueue sv.config.requestTimeout }

def isClosed (l : Link) : Bool := l.supervisor = .done

def setPeer (l : Link) (peer : Peer Actor) : Link := { l with desk := { l.desk with peer } }

def setOutbound (l : Link) (outbound : Flow.Channel Actor Message) : Link :=
  l.setPeer { l.desk.peer with outbound }

def endReading (l : Link) : Link := { l with reader := .done, fanout := l.fanout.close }

def publish (sv : Service) (h : Hub) (l : Link) (body : Bytes) : Hub × Link :=
  let log (h : Hub) (e : Log.Event) : Hub := h.log (e.within (.reading l.id.text))
  let h := if sv.codec.isUnversioned body then log h .unversioned else h
  match sv.codec.decode body with
  | none => (log h .undecodable, l)
  | some m =>
    let (fanout, id) := l.fanout.publish m
    (log h .received, { l with fanout, reader := .publishing id })

def stepReader (sv : Service) (h : Hub) (l : Link) : Option (Hub × Link) :=
  let log (e : Log.Event) : Hub := h.log (e.within (.reading l.id.text))
  match l.reader with
  | .done => none
  | .publishing id =>
    if h.isStopped l.id then some (h, { l with fanout := l.fanout.abandon id }.endReading)
    else
      match l.fanout.step? id with
      | none => none
      | some (fanout, .finished _) => some (h, { l with fanout, reader := .reading })
      | some (fanout, _) => some (h, { l with fanout })
  | .reading =>
    if h.isStopped l.id then some (h, l.endReading)
    else
      match l.inbound.next? with
      | none => none
      | some (inbound, none) => some (h, { l with inbound })
      | some (inbound, some (.frame body)) => some (publish sv h { l with inbound } body)
      | some (_, some (.broken _)) => some (log .broken, l.endReading)
      | some (_, some .ended) => some (log .ended, l.endReading)

def endWriting (l : Link) : Link :=
  { l.setOutbound l.desk.peer.outbound.close with writerDone := true }

def stepWriter (sv : Service) (h : Hub) (l : Link) : Option (Hub × Link) :=
  let outbound := l.desk.peer.outbound
  let log (e : Log.Event) : Hub := h.log (e.within (.writing l.id.text))
  if l.writerDone then none
  else if h.isStopped l.id then some (h, l.endWriting)
  else
    match outbound.next? with
    | none => none
    | some m =>
      let l := l.setOutbound outbound.take
      match sv.codec.encode m with
      | none => some (log .unencodable, l)
      | some body =>
        if l.farOpen then some (h, { l with written := l.written ++ [body] })
        else some ((log .unwritable).fire l.id .connection, l.endWriting)

def reply (l : Link) (m : Message) : Link := { l with requests := .replying m }

/-- The id that a cancellation is for. -/
def cancelTarget? (params : Option Json) : Option RequestId :=
  (params.bind (Json.get? · "id")).bind RequestId.ofJson?

/-- Give up the request with the given id and answer it, if that has not been done. -/
def cancel (h : Hub) (l : Link) (params : Option Json) : Hub × Link :=
  match cancelTarget? params with
  | none => (h.log .malformedCancel, l)
  | some id =>
    match h.inflight.cancel l.id id with
    | (inflight, true) =>
      ({ h.log .cancelled with inflight }, l.reply (.failure id .cancelled))
    | (inflight, false) =>
      let late := h.inflight.contains l.id id
      (({ h with inflight }.logIf late .tooLate).log .nothingToCancel, l)

def spawn (l : Link) (call : Nat → Call) : Link :=
  { l with calls := l.calls ++ [call l.numbered], numbered := l.numbered + 1 }

def ambiguous : ErrorBody := ⟨Code.internalError, "ambiguous handler mapping", none⟩

def handleRequest (sv : Service) (h : Hub) (l : Link) (r : Request) : Hub × Link :=
  match sv.routes.resolve r.method with
  | .error (.notFound _) =>
    (h.log .noHandler, l.reply (.failure r.id (.methodNotFound r.method)))
  | .error (.ambiguous _ _) => (h.log .ambiguousRoute, l.reply (.failure r.id ambiguous))
  | .ok handler =>
    let token := Hub.callToken l.id l.numbered
    match h.inflight.begin? l.id r.id token with
    | none =>
      (h.log .duplicateId, l.reply (.failure r.id (.invalidRequest "duplicate request id")))
    | some (inflight, ticket) =>
      let call (serial : Nat) : Call :=
        { serial, handler, method := r.method, params := r.params, ticket := some ticket, token }
      ({ h with inflight }, l.spawn call)

def handleNotification (sv : Service) (h : Hub) (l : Link) (n : Notification) : Hub × Link :=
  match sv.routes.resolve n.method with
  | .error _ => (h.log .unrouted, l)
  | .ok handler =>
    let token := Hub.callToken l.id l.numbered
    (h, l.spawn fun serial =>
      { serial, handler, method := n.method, params := n.params, ticket := none, token })

def handle (sv : Service) (h : Hub) (l : Link) : Message → Hub × Link
  | .request r => handleRequest sv h l r
  | .notification n =>
    if n.method = Message.cancelMethod then cancel h l n.params
    else handleNotification sv h l n
  | .response _ => (h, l)

def stepRequests (sv : Service) (h : Hub) (l : Link) : Option (Hub × Link) :=
  match l.requests with
  | .done => none
  | .taking =>
    match l.fanout.receive requestQueue with
    | (_, .empty) => none
    | (fanout, .closed) => some (h, { l with fanout, requests := .done })
    | (fanout, .item m) => some (h, { l with fanout, requests := .handling m })
  | .handling m => some (handle sv h { l with requests := .taking } m)
  | .replying m =>
    let outbound := l.desk.peer.outbound
    let inLine := .requests ∈ outbound.line
    match outbound.offer .requests m with
    | (outbound, .waiting) => if inLine then none else some (h, l.setOutbound outbound)
    | (outbound, .accepted) => some (h, { l.setOutbound outbound with requests := .taking })
    | (outbound, .refused) =>
      some (h.logAll Log.Event.unsent, { l.setOutbound outbound with requests := .taking })

def stepResponses (h : Hub) (l : Link) : Option (Hub × Link) :=
  if l.responsesDone then none
  else
    match l.fanout.receive responseQueue with
    | (_, .empty) => none
    | (fanout, .closed) => some (h, { l with fanout, responsesDone := true })
    | (fanout, .item (.response r)) =>
      let (pending, expected) := l.desk.peer.pending.fulfill r
      some (h.logIf (!expected) .unexpected, { l with fanout }.setPeer { l.desk.peer with pending })
    | (fanout, .item _) => some (h, { l with fanout })

def stepSupervisor (h : Hub) (l : Link) : Option (Hub × Link) :=
  let next (s : Supervisor) : Option (Hub × Link) := some (h, { l with supervisor := s })
  match l.supervisor with
  | .done => none
  | .awaitingReader =>
    match l.reader with
    | .done => next .awaitingRequests
    | _ => none
  | .awaitingRequests =>
    match l.requests with
    | .done => next .awaitingResponses
    | _ => none
  | .awaitingResponses => if l.responsesDone then next .withdrawing else none
  | .withdrawing =>
    let (inflight, ts) := h.inflight.withdraw l.id
    some ({ h with inflight }, { l with supervisor := .seizing ts })
  | .seizing [] => next .closing
  | .seizing (t :: ts) =>
    some ({ h with inflight := h.inflight.seize t }, { l with supervisor := .firing t ts })
  | .firing t ts =>
    some ({ h with inflight := h.inflight.fire t.token.name }, { l with supervisor := .seizing ts })
  | .closing =>
    let peer := l.desk.peer
    some (h,
      { l.setPeer { peer with pending := peer.pending.close.1 } with supervisor := .dismissing })
  | .dismissing => some (h.fire l.id .handlers, { l with supervisor := .stopping })
  | .stopping => some (h.fire l.id .connection, { l with supervisor := .awaitingWriter })
  | .awaitingWriter =>
    if l.writerDone then some (h.log .closed, { l with supervisor := .done }) else none

def stepCall (sv : Service) (h : Hub) (l : Link) (serial : Nat) : Option (Hub × Link) := do
  let c ← l.calls.find? fun c => c.serial = serial
  let (h, peer, c) ← c.step sv h l.desk.peer l.id
  let calls := match c with
    | some c => l.calls.map fun d => if d.serial = serial then c else d
    | none => l.calls.filter fun d => d.serial ≠ serial
  some (h, { l.setPeer peer with calls })

def stepCaller (h : Hub) (l : Link) (who : Actor) : Option (Hub × Link) :=
  (l.desk.step h.now who).map fun desk => (h, { l with desk })

/-- One step of one of those who act on the connection, if there is one to take. -/
def step (sv : Service) (h : Hub) (l : Link) : Actor → Option (Hub × Link)
  | .writer => stepWriter sv h l
  | .reader => stepReader sv h l
  | .requests => stepRequests sv h l
  | .responses => stepResponses h l
  | .supervisor => stepSupervisor h l
  | .call serial => stepCall sv h l serial
  | .caller serial => stepCaller h l (.caller serial)

def actors (l : Link) : List Actor :=
  [.writer, .reader, .requests, .responses, .supervisor]
    ++ l.calls.map (fun c => .call c.serial) ++ l.desk.callers.map (·.1)

/-- What an actor receives, sends or has waited for is part of its turn. A message is both received
and sent by the writer. -/
def cost (l : Link) : Actor → Nat
  | .writer => 2
  | .reader =>
    match l.reader with
    | .publishing id => if l.fanout.isDelivering id then 1 else 0
    | _ => if l.inbound.dry then 1 else 0
  | .requests =>
    match l.requests with
    | .taking => 0
    | _ => 1
  | .responses => 1
  | .supervisor =>
    match l.supervisor with
    | .awaitingReader | .awaitingRequests | .awaitingResponses | .awaitingWriter => 1
    | _ => 0
  | .call serial => ((l.calls.find? fun c => c.serial = serial).map Call.cost).getD 0
  | .caller serial => ((l.desk.callers.lookup (.caller serial)).map Exchange.cost).getD 0

def alarms (h : Hub) (l : Link) : Actor → List (Option Nat)
  | .call serial => ((l.calls.find? fun c => c.serial = serial).map (Call.alarms h)).getD []
  | .caller serial => (l.desk.callers.lookup (.caller serial)).toList.map Exchange.deadline?
  | _ => []

def answered (l : Link) : List Actor :=
  let hasMail (slot : Option Nat) : Bool := slot.any l.desk.peer.pending.hasMail
  (l.calls.filter fun c => hasMail c.slot?).map (fun c => .call c.serial)
    ++ (l.desk.callers.filter fun c => hasMail c.2.slot?).map (·.1)

def changedCalls (l : Link) (h h' : Hub) (l' : Link) : List Actor :=
  let fired := h'.inflight.fired.drop h.inflight.fired.length
  let isChanged (c : Call) : Bool := l.numbered ≤ c.serial || c.token.isCancelled fired
  (l'.calls.filter isChanged).map fun c => .call c.serial

def woken (l : Link) (h h' : Hub) (l' : Link) (who : Actor) : List Actor :=
  l'.desk.peer.outbound.called ++
    match who with
    | .writer => if l'.writerDone then l'.actors else []
    | .reader => [.requests, .responses, .supervisor]
    | .requests =>
      match l.requests with
      | .taking => [.reader, .supervisor]
      | _ => l.changedCalls h h' l' ++ [.writer]
    | .responses => .reader :: l'.answered ++ [.supervisor]
    | .supervisor => l'.actors
    | .call _ | .caller _ => [.writer]

def send (l : Link) (errand : Errand) : Link × Nat :=
  ({ l with desk := l.desk.send (.caller l.numbered) errand, numbered := l.numbered + 1 },
    l.numbered)

def receive (l : Link) (bytes : Bytes) : Link := { l with inbound := l.inbound.receive bytes }

def accept (l : Link) (bytes : Bytes) : Link := { l with inbound := l.inbound.accept bytes }

def refill (l : Link) : Link := { l with inbound := l.inbound.refill }

def farStops (l : Link) : Link := { l with inbound := l.inbound.hangUp }

def farLeaves (l : Link) : Link := { l.farStops with farOpen := false }

end Link

end Parley.Dispatch
