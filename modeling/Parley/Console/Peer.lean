import Parley.Console.Basic
import Parley.Peer.Basic
import Parley.Peer.Pending

namespace Parley.Console

namespace Pending

def reason? (c : Json) : Option ExchangeError := do
  match ← c.stringAt? "reason" with
  | "closed" => some .connectionClosed
  | "timeout" => some (.timeout "m" 1500)
  | "encode" => some (.encode "")
  | _ => none

def verb {κ : Type} (p : Pending κ) (c : Json) : Option (Pending κ × Json) := do
  match ← c.stringAt? "do" with
  | "fulfill" => do
    let (p, r) := p.fulfill (← (c.get? "response").bind response?)
    some (p, .bool r)
  | "fail_all" => do
    let (p, n) := p.failAll (← reason? c)
    some (p, .ofNat n)
  | "close" =>
    let (p, n) := p.close
    some (p, .ofNat n)
  | "remove" => do
    let (p, r) := p.remove (← idAt? c "id")
    some (p, .bool r)
  | "contains" => do some (p, .bool (p.contains (← idAt? c "id")))
  | _ => none

structure State where
  table : Pending Nat := {}
  slots : Names Nat := []
  nextSlot : Nat := 0

def State.look (s : State) (slot : Nat) : State × Json :=
  match s.table.look slot with
  | (table, .answer (.ok r)) =>
    ({ s with table },
      .ofMembers [("id", r.id.toJson), ("wire", .str (Message.response r).text)])
  | (table, .answer (.error e)) => ({ s with table }, e.toJson)
  | (_, .waiting) => (s, .str "waiting")
  | (_, .gone) => (s, .str "gone")

def step (s : State) (c : Json) : Option (State × Json) := do
  let (s, r) ← match ← c.stringAt? "do" with
    | "register" => do
      let name ← c.stringAt? "slot"
      match s.table.register (← idAt? c "id") s.nextSlot with
      | .ok table => some (⟨table, (name, s.nextSlot) :: s.slots, s.nextSlot + 1⟩, Json.bool true)
      | .error e => some (s, e.toJson)
    | "drop" => do some ({ s with slots := s.slots.forget (← c.stringAt? "slot") }, .bool true)
    | "poll" =>
      match (c.stringAt? "slot").bind s.slots.get? with
      | some slot => some (s.look slot)
      | none => some (s, .str "gone")
    | _ => do
      let (table, r) ← verb s.table c
      some ({ s with table }, r)
  some (s, .ofMembers [("r", r), ("len", .ofNat s.table.size),
    ("empty", .bool (s.table.size = 0)), ("closed", .bool s.table.closed)])

def transcript : Json → Option Json := Console.transcript {} step

end Pending

namespace Errand

def shape? (c : Json) : Option ResultShape :=
  match c.stringAt? "as" with
  | none => some .any
  | some "vec_u32" => some .words
  | some "i64" => some .integer
  | some "string" => some .text
  | some "opt_bool" => some .switch
  | some _ => none

def params (c : Json) : Params :=
  if c.flagAt "bad_params" then .unencodable "key must be a string"
  else .value (.ofOption (c.get? "params"))

/-- A request. A plain call has a method and parameters and nothing else. -/
def request? (c : Json) : Option RequestSpec := do
  let method ← c.stringAt? "method"
  if c.flagAt "call" then some { method, params := .value (.ofOption (c.get? "params")) }
  else
    some {
      method
      id := idAt? c "id"
      params := params c
      timeout := c.natAt? "timeout_ms"
      shape := ← shape? c }

def ofCommand? (c : Json) : Option Errand := do
  match ← c.stringAt? "do" with
  | "request" => (request? c).map .request
  | "notify" => do some (.notify (← c.stringAt? "method") (params c))
  | "cancel" => (idAt? c "id").map .cancel
  | _ => none

end Errand

namespace Peer

structure State where
  desk : Desk Nat
  tags : Names Nat := []
  now : Nat := 0

/-- Take up to `n` messages off a queue. -/
def take : Nat → Flow.Channel Nat Message → Flow.Channel Nat Message × List Message
  | 0, q => (q, [])
  | n + 1, q =>
    match q.next? with
    | none => (q, [])
    | some m =>
      let (q, ms) := take n q.take
      (q, m :: ms)

def State.set (s : State) (peer : Peer Nat) : State := { s with desk := { s.desk with peer } }

def verb (s : State) (c : Json) : Option (State × Json × List Message × List String) := do
  let peer := s.desk.peer
  match ← c.stringAt? "do" with
  | "request" | "notify" | "cancel" => do
    let errand ← Errand.ofCommand? c
    let who := s.tags.length
    some ({ s with desk := s.desk.send who errand, tags := (← c.stringAt? "tag", who) :: s.tags },
      .null, [], [])
  | "take" =>
    let (outbound, ms) := take ((c.natAt? "n").getD peer.outbound.queue.length) peer.outbound
    some (s.set { peer with outbound }, .null, ms, [])
  | "drop_writer" => some (s.set { peer with outbound := peer.outbound.drop }, .null, [], [])
  | "abort" => do
    let tag ← c.stringAt? "tag"
    let who ← s.tags.get? tag
    let dropped := if (s.desk.callers.lookup who).isSome then [tag] else []
    some ({ s with desk := s.desk.abort who }, .null, [], dropped)
  | "advance" => do some ({ s with now := s.now + (← c.natAt? "ms") }, .null, [], [])
  | _ => do
    let (pending, r) ← Pending.verb peer.pending c
    some (s.set { peer with pending }, r, [], [])

def step (s : State) (c : Json) : Option (State × Json) := do
  let (s, r, wire, dropped) ← verb s c
  let desk := s.desk.settle turns s.now
  let done := desk.outcomes.map fun o => (s.tags.nameOf o.1, ExchangeError.outcome o.2)
  some ({ s with desk := { desk with outcomes := [] } }, .ofMembers [("r", r),
    ("wire", .ofStrings (wire.map Message.text)),
    ("done", .ofMembers (dropped.map (·, .str "task failed") ++ done)),
    ("pending", .ofNat desk.peer.pending.size), ("closed", .bool desk.peer.pending.closed)])

def transcript (v : Json) : Option Json := do
  let peer := Peer.connected ((v.natAt? "capacity").getD 16) (v.natAt? "default_timeout_ms")
  let (_, shown) ← run { desk := { peer } } step (← v.itemsAt? "steps")
  some (.ofMembers [("connection", .str "c"), ("steps", .arr shown)])

end Peer

end Parley.Console
