import Parley.Flow.Channel
import Parley.Flow.Schedule
import Parley.Json.Record
import Parley.Peer.Pending

namespace Parley

inductive Params
  | value (v : Json)
  | unencodable (why : String)
  deriving DecidableEq, Repr, Inhabited

/-- The parameters to write. Null means that there are none. -/
def Params.encode : Params → Except ExchangeError (Option Json)
  | value v => .ok v.present?
  | unencodable why => .error (.encode why)

inductive ResultShape
  | any
  | words
  | integer
  | text
  | switch
  deriving DecidableEq, Repr, Inhabited

namespace ResultShape

def accepts : ResultShape → Json → Bool
  | any, _ => true
  | words, .arr vs => vs.all fun v => (Json.below? (span 32) v).isSome
  | integer, .int n => RequestId.inRange n
  | text, .str _ => true
  | switch, .null | switch, .bool _ => true
  | _, _ => false

def read (s : ResultShape) (v : Json) : Except ExchangeError Json :=
  if s.accepts v then .ok v else .error (.encode "unexpected result")

end ResultShape

structure RequestSpec where
  method : String
  id : Option RequestId := none
  params : Params := .value .null
  timeout : Option Nat := none
  shape : ResultShape := .any
  deriving Repr, Inhabited

inductive Errand
  | request (spec : RequestSpec)
  | notify (method : String) (params : Params)
  deriving Repr, Inhabited

/-- Ask the peer to give up a request of ours. -/
def Errand.cancel (id : RequestId) : Errand :=
  .notify Message.cancelMethod (.value (.obj [("id", id.toJson)]))

structure Peer (κ : Type) where
  pending : Pending Nat := {}
  outbound : Flow.Channel κ Message
  nextId : Int := 1
  nextSlot : Nat := 0
  timeout : Option Nat := none
  deriving Repr

structure Awaited where
  id : RequestId
  slot : Nat
  method : String
  timeout : Option Nat
  shape : ResultShape
  deriving Repr, Inhabited

inductive Lapse
  | unsent
  | overdue
  deriving DecidableEq, Repr

def Lapse.error (a : Awaited) : Lapse → ExchangeError
  | unsent => .connectionClosed
  | overdue => .timeout a.method (a.timeout.getD 0)

inductive Exchange
  | fresh (errand : Errand)
  | queueing (m : Message) (awaited : Option Awaited)
  | awaiting (a : Awaited) (deadline : Option Nat)
  | leaving (a : Awaited) (why : Lapse)
  deriving Repr, Inhabited

namespace Peer

variable {κ : Type}

def connected (capacity : Nat) (timeout : Option Nat) : Peer κ :=
  { outbound := .ofCapacity capacity, timeout }

def detached : Peer κ where
  pending := ({} : Pending Nat).close.1
  outbound := (Flow.Channel.ofCapacity 1).close

inductive Progress
  | moved (x : Exchange)
  | waiting
  | done (outcome : Except ExchangeError Json)
  deriving Inhabited

/-- An id and a slot for a request. Explicit ids do not move the counter. -/
def register (p : Peer κ) (spec : RequestSpec) : Peer κ × Except ExchangeError Awaited :=
  let (p, id) := match spec.id with
    | some id => (p, id)
    | none => ({ p with nextId := p.nextId + 1 }, .number p.nextId)
  match p.pending.register id p.nextSlot with
  | .error e => (p, .error e)
  | .ok pending =>
    let timeout := spec.timeout.orElse fun _ => p.timeout
    ({ p with pending, nextSlot := p.nextSlot + 1 },
      .ok ⟨id, p.nextSlot, spec.method, timeout, spec.shape⟩)

def begin (p : Peer κ) : Errand → Peer κ × Progress
  | .notify method params =>
    match params.encode with
    | .error e => (p, .done (.error e))
    | .ok params => (p, .moved (.queueing (.notification ⟨method, params⟩) none))
  | .request spec =>
    match spec.params.encode with
    | .error e => (p, .done (.error e))
    | .ok params =>
      match p.register spec with
      | (p, .error e) => (p, .done (.error e))
      | (p, .ok a) => (p, .moved (.queueing (.request ⟨a.id, a.method, params⟩) (some a)))

def leave (p : Peer κ) (a : Awaited) (why : Lapse) : Peer κ × Progress :=
  ({ p with pending := (p.pending.remove a.id).1 }, .done (.error (why.error a)))

def conclude (a : Awaited) (r : Response) : Except ExchangeError Json :=
  match r.outcome with
  | .ok v => a.shape.read v
  | .error b => .error (.remote b)

def await (p : Peer κ) (now : Nat) (a : Awaited) (deadline : Option Nat) : Peer κ × Progress :=
  match p.pending.look a.slot with
  | (pending, .answer (.ok r)) => ({ p with pending }, .done (conclude a r))
  | (pending, .answer (.error e)) => ({ p with pending }, .done (.error e))
  | (_, .gone) => (p, .done (.error .connectionClosed))
  | (_, .waiting) =>
    (p, if deadline.any (· ≤ now) then .moved (.leaving a .overdue) else .waiting)

variable [DecidableEq κ]

def queue (p : Peer κ) (who : κ) (now : Nat) (m : Message) (awaited : Option Awaited) :
    Peer κ × Progress :=
  let inLine := who ∈ p.outbound.line
  let (outbound, answer) := p.outbound.offer who m
  let p := { p with outbound }
  match answer, awaited with
  | .waiting, _ => (p, if inLine then .waiting else .moved (.queueing m awaited))
  | .accepted, none => (p, .done (.ok .null))
  | .refused, none => (p, .done (.error .connectionClosed))
  | .accepted, some a => (p, .moved (.awaiting a (a.timeout.map (now + ·))))
  | .refused, some a => (p, .moved (.leaving a .unsent))

def step (p : Peer κ) (who : κ) (now : Nat) : Exchange → Peer κ × Progress
  | .fresh errand => p.begin errand
  | .queueing m awaited => p.queue who now m awaited
  | .awaiting a deadline => p.await now a deadline
  | .leaving a why => p.leave a why

def abandon (p : Peer κ) (who : κ) : Peer κ := { p with outbound := p.outbound.leave who }

end Peer

namespace Exchange

def deadline? : Exchange → Option Nat
  | awaiting _ deadline => deadline
  | _ => none

def slot? : Exchange → Option Nat
  | awaiting a _ => some a.slot
  | _ => none

def isLeaving : Exchange → Bool
  | leaving _ _ => true
  | _ => false

def cost : Exchange → Nat
  | fresh _ | leaving _ _ => 0
  | queueing _ _ | awaiting _ _ => 1

end Exchange

end Parley

namespace Parley

structure Desk (κ : Type) where
  peer : Peer κ
  callers : List (κ × Exchange) := []
  outcomes : List (κ × Except ExchangeError Json) := []

namespace Desk

variable {κ : Type} [DecidableEq κ]

def send (d : Desk κ) (who : κ) (errand : Errand) : Desk κ :=
  { d with callers := d.callers ++ [(who, .fresh errand)] }

def dismiss (d : Desk κ) (who : κ) : Desk κ :=
  { d with callers := d.callers.filter fun c => c.1 ≠ who }

/-- One step of a caller, if there is one to take. -/
def step (now : Nat) (d : Desk κ) (who : κ) : Option (Desk κ) := do
  let x ← d.callers.lookup who
  match d.peer.step who now x with
  | (_, .waiting) => none
  | (peer, .moved x) =>
    some { d with peer, callers := d.callers.map fun c => if c.1 = who then (who, x) else c }
  | (peer, .done outcome) =>
    some { d.dismiss who with peer, outcomes := d.outcomes ++ [(who, outcome)] }

def drop (d : Desk κ) (who : κ) : Desk κ := { d.dismiss who with peer := d.peer.abandon who }

def abort (d : Desk κ) (who : κ) : Desk κ :=
  if (d.callers.lookup who).any Exchange.isLeaving then d else d.drop who

def crew (now : Nat) : Flow.Crew (Desk κ) κ where
  tasks d :=
    let line := d.peer.outbound.line
    line ++ (d.callers.map (·.1)).filter fun who => who ∉ line
  step d who := d.step now who
  cost d who := ((d.callers.lookup who).map Exchange.cost).getD 0

def settle (fuel now : Nat) (d : Desk κ) : Desk κ := (crew now).settle fuel d

end Desk

end Parley
