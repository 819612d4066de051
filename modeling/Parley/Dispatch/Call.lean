import Parley.Dispatch.Hub
import Parley.Flow.Commit

namespace Parley.Dispatch

open Session (Handle)

inductive Actor
  | writer
  | reader
  | requests
  | responses
  | supervisor
  | call (serial : Nat)
  | caller (serial : Nat)
  deriving DecidableEq, Repr

inductive Activity
  | running (p : Program)
  | asleep (wake : Nat) (ifDropped : String) (next : Program)
  | atGate (gate ifDropped : String) (next : Program)
  | sending (x : Exchange) (next : Except ExchangeError Json → Program)

namespace Activity

inductive Progress
  | moved (a : Activity)
  | waiting
  | ended (outcome : Except HandlerError Json)
  | panicked (text : Option String)

def panicError (text : Option String) : HandlerError :=
  .internal ("handler panicked: " ++ text.getD "non-string panic payload")

def touch (h : Hub) (s : Handle) (edit : Session → Session) : Hub × Session :=
  ({ h with sessions := h.sessions.edit s edit }, (h.sessions.store.get? s).getD { id := s.id })

def exec (h : Hub) (token : Flow.Token TokenName) (s : Handle) : Program → Hub × Progress
  | .finish outcome => (h, .ended outcome)
  | .panic text => (h, .panicked text)
  | .sleep ms ifDropped next => (h, .moved (.asleep (h.now + ms) ifDropped next))
  | .await gate ifDropped next => (h, .moved (.atGate gate ifDropped next))
  | .log line next => (h.note line, .moved (.running next))
  | .touch edit next =>
    let (h, before) := touch h s edit
    (h, .moved (.running (next before)))
  | .send errand next => (h, .moved (.sending (.fresh errand) next))
  | .probe next => (h, .moved (.running (next (h.inflight.isCancelled token))))

def step (h : Hub) (p : Peer Actor) (serial : Nat) (token : Flow.Token TokenName) (s : Handle) :
    Activity → Hub × Peer Actor × Progress
  | .running program =>
    let (h, r) := exec h token s program
    (h, p, r)
  | .asleep wake _ next => (h, p, if wake ≤ h.now then .moved (.running next) else .waiting)
  | .atGate gate _ next => (h, p, if gate ∈ h.gates then .moved (.running next) else .waiting)
  | .sending x next =>
    match p.step (.call serial) h.now x with
    | (p, .moved x) => (h, p, .moved (.sending x next))
    | (p, .waiting) => (h, p, .waiting)
    | (p, .done outcome) => (h, p, .moved (.running (next outcome)))

/-- The handler is dropped in the middle of its activity. A slot that it waits at stays. -/
def drop (h : Hub) (p : Peer Actor) (serial : Nat) : Activity → Hub × Peer Actor
  | .running _ => (h, p)
  | .asleep _ ifDropped _ | .atGate _ ifDropped _ => (h.note ifDropped, p)
  | .sending _ _ => (h, p.abandon (.call serial))

def isLeaving : Activity → Bool
  | .sending x _ => x.isLeaving
  | _ => false

def alarm (h : Hub) : Activity → Option Nat
  | .asleep wake _ _ => some wake
  | .atGate gate _ _ => if gate ∈ h.gates then some 0 else none
  | .sending x _ => x.deadline?
  | .running _ => none

def cost : Activity → Nat
  | .asleep _ _ _ => 1
  | .sending x _ => x.cost
  | _ => 0

end Activity

inductive Phase
  | fresh
  | executing (activity : Activity) (deadline : Option Nat) (session : Handle)
  | concluded (outcome : Except HandlerError Json)
  | replying (m : Message)

structure Call where
  serial : Nat
  handler : Handler
  method : String
  params : Option Json
  ticket : Option (Ticket TokenName)
  token : Flow.Token TokenName
  commit : Flow.Commit Handle := {}
  phase : Phase := .fresh

namespace Call

def span (c : Call) (conn : ConnectionId) : Log.Span :=
  match c.ticket with
  | some t => .request conn.text t.id.display c.method
  | none => .notification conn.text c.method

def log (c : Call) (h : Hub) (conn : ConnectionId) (e : Log.Event) : Hub :=
  h.log (e.within (c.span conn))

def letGo (c : Call) (h : Hub) (conn : ConnectionId) : Hub :=
  let sessions := h.sessions.release (conn, c.serial)
  match c.ticket with
  | some t => { h with sessions, inflight := (h.inflight.release t).1 }
  | none => { h with sessions }

def abandon (c : Call) (h : Hub) (conn : ConnectionId) : Hub :=
  c.letGo (if c.ticket.isSome then c.log h conn .abandoned else h) conn

def context (c : Call) (sv : Service) (conn : ConnectionId) : Context where
  connection := conn
  requestId := c.ticket.map (·.id)
  method := c.method
  methods := sv.routes.methods
  routes := sv.routes.size

def logSessions (c : Call) (h : Hub) (conn : ConnectionId)
    (sessions : Session.Manager CallName) : Hub :=
  let old := h.sessions.store
  let h := if sessions.store.size < old.size then c.log h conn .expiredSession else h
  if old.sessions.length < sessions.store.sessions.length then c.log h conn .freshSession else h

/-- Resolve the session of the call, to be saved before the answer. -/
def resolve (c : Call) (h : Hub) (conn : ConnectionId) :
    Hub × Call × Except SessionError Handle :=
  let (sessions, r) := h.sessions.resolve [conn.session] conn.session h.moment
  let h := (c.logSessions h conn sessions).tick
  match r with
  | .error e => ({ h with sessions }, c, .error e)
  | .ok a =>
    ({ h with sessions := sessions.hold (conn, c.serial) a },
      { c with commit := (c.commit.add a).1 }, .ok a)

def conclude (c : Call) (h : Hub) (conn : ConnectionId) (outcome : Except HandlerError Json) :
    Hub × Option Call :=
  let claim := match c.ticket with
    | some t => h.inflight.claim t
    | none => (h.inflight, true)
  let h := { h with inflight := claim.1 }
  if claim.2 then
    let h := match outcome with
      | .ok _ => h
      | .error _ => c.log h conn .handlerFailed
    (h, some { c with phase := .concluded outcome })
  else (c.letGo (c.log h conn .discarded) conn, none)

def saveAll (h : Hub) : List Handle → Hub × Except SessionError Unit
  | [] => (h, .ok ())
  | a :: as =>
    match h.sessions.saveIfActive a h.moment with
    | (sessions, .ok ()) => saveAll { h.tick with sessions } as
    | (sessions, .error e) => ({ h.tick with sessions }, .error e)

def answer (id : RequestId) : Except HandlerError Json → Message
  | .ok v => .success id v
  | .error e => .failure id e.body

def settle (c : Call) (h : Hub) (conn : ConnectionId) (outcome : Except HandlerError Json) :
    Hub × Option Call :=
  let (h, saved) := saveAll h c.commit.start.1.hooks
  let h := match saved with
    | .ok () => h
    | .error _ => c.log h conn .saveFailed
  let h := c.letGo h conn
  match c.ticket, saved with
  | none, _ => (h, none)
  | some t, .ok () => (h, some { c with phase := .replying (answer t.id outcome) })
  | some t, .error _ => (h, some { c with phase := .replying (.failure t.id .internal) })

def timedOut (limit : Nat) : HandlerError :=
  .internal ("handler timed out after " ++ Text.duration limit)

def start (c : Call) (sv : Service) (h : Hub) (conn : ConnectionId) : Hub × Option Call :=
  match c.resolve h conn with
  | (h, c, .error e) => c.conclude h conn (.error (.ofSession e))
  | (h, c, .ok a) =>
    let program := c.handler (c.context sv conn) c.params
    let deadline := sv.config.handlerTimeout.map (h.now + ·)
    (h, some { c with phase := .executing (.running program) deadline a })

/-- One step of a call, if there is one to take. The call is gone when it is over. -/
def step (sv : Service) (h : Hub) (p : Peer Actor) (conn : ConnectionId) (c : Call) :
    Option (Hub × Peer Actor × Option Call) :=
  match c.phase with
  | .fresh =>
    if h.inflight.isCancelled c.token then some (c.abandon h conn, p, none)
    else
      let (h, c) := c.start sv h conn
      some (h, p, c)
  | .executing activity deadline s =>
    if h.inflight.isCancelled c.token && !activity.isLeaving then
      let (h, p) := activity.drop h p c.serial
      some (c.abandon h conn, p, none)
    else
      match activity.step h p c.serial c.token s with
      | (h, p, .moved activity) =>
        some (h, p, some { c with phase := .executing activity deadline s })
      | (h, p, .ended outcome) =>
        let (h, c) := c.conclude h conn outcome
        some (h, p, c)
      | (h, p, .panicked text) =>
        let (h, c) := c.conclude (c.log h conn .handlerPanicked) conn
          (.error (Activity.panicError text))
        some (h, p, c)
      | (_, _, .waiting) =>
        if deadline.any (· ≤ h.now) then
          let (h, p) := activity.drop h p c.serial
          let (h, c) := c.conclude h conn (.error (timedOut (sv.config.handlerTimeout.getD 0)))
          some (h, p, c)
        else none
  | .concluded outcome =>
    let (h, c) := c.settle h conn outcome
    some (h, p, c)
  | .replying m =>
    let inLine := .call c.serial ∈ p.outbound.line
    match p.outbound.offer (.call c.serial) m with
    | (outbound, .waiting) => if inLine then none else some (h, { p with outbound }, some c)
    | (outbound, .accepted) => some (h, { p with outbound }, none)
    | (outbound, .refused) =>
      some (Log.Event.unsent.foldl (fun h e => c.log h conn e) h, { p with outbound }, none)

def alarms (h : Hub) (c : Call) : List (Option Nat) :=
  match c.phase with
  | .executing activity deadline _ => activity.alarm h :: deadline.toList.map some
  | _ => []

def cost (c : Call) : Nat :=
  match c.phase with
  | .executing activity _ _ => activity.cost
  | .replying _ => 1
  | _ => 0

def slot? (c : Call) : Option Nat :=
  match c.phase with
  | .executing (.sending x _) _ _ => x.slot?
  | _ => none

end Call

end Parley.Dispatch
