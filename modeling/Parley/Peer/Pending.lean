import Parley.Decimal.Natural
import Parley.Message.Basic

namespace Parley

inductive ExchangeError
  | connectionClosed
  | duplicateId (id : RequestId)
  | timeout (method : String) (after : Nat)
  | remote (body : ErrorBody)
  | encode (text : String)
  deriving DecidableEq, Repr

namespace ExchangeError

def message : ExchangeError → String
  | connectionClosed => "connection closed before a response arrived"
  | duplicateId id => "request id " ++ id.display ++ " is already pending"
  | timeout method after => "request " ++ method ++ " timed out after " ++ Text.duration after
  | remote body => "peer returned error: " ++ body.display
  | encode text => "failed to encode request: " ++ text

/-- The peer answered that the request was cancelled. -/
def isCancelled : ExchangeError → Bool
  | remote body => body.code = Code.requestCancelled
  | _ => false

end ExchangeError

end Parley

namespace Parley

structure Pending (κ : Type) where
  closed : Bool := false
  slots : List (RequestId × κ) := []
  mail : List (κ × Except ExchangeError Response) := []
  deriving Repr, Inhabited

namespace Pending

variable {κ : Type}

def contains (p : Pending κ) (id : RequestId) : Bool := p.slots.any fun s => s.1 = id

def size (p : Pending κ) : Nat := p.slots.length

def register (p : Pending κ) (id : RequestId) (who : κ) : Except ExchangeError (Pending κ) :=
  if p.closed then .error .connectionClosed
  else if p.contains id then .error (.duplicateId id)
  else .ok { p with slots := p.slots ++ [(id, who)] }

def remove (p : Pending κ) (id : RequestId) : Pending κ × Bool :=
  ({ p with slots := p.slots.filter fun s => s.1 ≠ id }, p.contains id)

def fulfill (p : Pending κ) (r : Response) : Pending κ × Bool :=
  match p.slots.find? fun s => s.1 = r.id with
  | none => (p, false)
  | some (_, who) => ({ (p.remove r.id).1 with mail := p.mail ++ [(who, .ok r)] }, true)

def failAll (p : Pending κ) (reason : ExchangeError) : Pending κ × Nat :=
  ({ p with slots := [], mail := p.mail ++ p.slots.map fun s => (s.2, .error reason) },
    p.slots.length)

def close (p : Pending κ) : Pending κ × Nat :=
  let (q, n) := p.failAll .connectionClosed
  ({ q with closed := true }, n)

/-- What one finds who looks at a slot. Without an answer to come, the slot is gone. -/
inductive Look
  | waiting
  | gone
  | answer (a : Except ExchangeError Response)

variable [DecidableEq κ]

def hasMail (p : Pending κ) (who : κ) : Bool := p.mail.any fun m => m.1 = who

def look (p : Pending κ) (who : κ) : Pending κ × Look :=
  match p.mail.find? fun m => m.1 = who with
  | some (_, a) => ({ p with mail := p.mail.filter fun m => m.1 ≠ who }, .answer a)
  | none => (p, if p.slots.any fun s => s.2 = who then .waiting else .gone)

end Pending

end Parley

namespace Parley

def ErrorBody.value (b : ErrorBody) : Json :=
  .ofMembers ([("code", .int b.code), ("message", .str b.message)]
    ++ (b.data.map ("data", ·)).toList)

namespace ExchangeError

def kind : ExchangeError → String
  | connectionClosed => "ConnectionClosed"
  | duplicateId _ => "DuplicateId"
  | timeout _ _ => "Timeout"
  | remote _ => "Remote"
  | encode _ => "Encode"

/-- Why something could not be encoded is not shown. -/
def toJson (e : ExchangeError) : Json :=
  .ofMembers ([("cancelled", .bool e.isCancelled), ("error", .str e.kind)] ++
    match e with
    | remote b => [("message", .str e.message), ("body", b.value)]
    | encode _ => []
    | _ => [("message", .str e.message)])

def outcome : Except ExchangeError Json → Json
  | .ok v => .obj [("ok", v)]
  | .error e => e.toJson

end ExchangeError

end Parley
