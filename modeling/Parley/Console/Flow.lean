import Parley.Console.Basic
import Parley.Flow.Channel
import Parley.Flow.Commit
import Parley.Flow.Fanout
import Parley.InFlight
import Parley.Session.Basic

namespace Parley.Console

namespace Fanout

open Parley.Flow (Fanout)

structure State where
  fanout : Fanout Int := {}
  names : Names Nat := []
  tags : Names Nat := []

def accepts (c : Json) (n : Int) : Bool :=
  match c.intAt? "mod" with
  | some m => n % m = (c.intAt? "eq").getD 0
  | none => true

def received : Fanout.Received Int → Json
  | .item n => .obj [("item", .int n)]
  | .empty => .str "empty"
  | .closed => .str "closed"

def verb (s : State) (c : Json) : Option (State × Json) := do
  let known? := (c.stringAt? "name").bind s.names.get?
  match ← c.stringAt? "do" with
  | "subscribe" => do
    let (fanout, id) := s.fanout.subscribe ((c.natAt? "capacity").getD 4) (accepts c)
    some ({ s with fanout, names := (← c.stringAt? "name", id) :: s.names }, .null)
  | "publish" => do
    let (fanout, id) := s.fanout.publish (← c.intAt? "item")
    some ({ s with fanout, tags := (← c.stringAt? "tag", id) :: s.tags }, .null)
  | "recv" => do
    let (fanout, r) := s.fanout.receive (← known?)
    some ({ s with fanout }, received r)
  | "drop" => do some ({ s with fanout := s.fanout.unsubscribe (← known?) }, .bool true)
  | "close" => some ({ s with fanout := s.fanout.close }, .null)
  | _ => none

def step (s : State) (c : Json) : Option (State × Json) := do
  let (s, r) ← verb s c
  let (fanout, ended) := s.fanout.settle turns
  some ({ s with fanout }, .ofMembers [("r", r),
    ("done", .ofMembers (ended.map fun e => (s.tags.nameOf e.1, .ofNat e.2))),
    ("waiting", .ofNat fanout.publications.length),
    ("subscribers", .ofNat fanout.registered.length)])

def transcript : Json → Option Json := Console.transcript {} step

end Fanout

namespace Outbound

open Parley.Flow (Channel Outbox)

structure State where
  box : Outbox String Message
  dropped : Bool := false

def State.set (s : State) (channel : Channel String Message) : State :=
  { s with box := { s.box with channel } }

/-- What stands at the head of the queue. -/
def State.receive (s : State) : State × Json :=
  let channel := s.box.channel
  if s.dropped then (s, .str "dropped")
  else
    match channel.next? with
    | some m => (s.set channel.take, .obj [("item", .str m.text)])
    | none => (s, .str (if channel.shut then "closed" else "empty"))

def verb (s : State) (c : Json) : Option (State × Json × List (String × Bool)) := do
  match ← c.stringAt? "do" with
  | "send" => do
    let tag ← c.stringAt? "tag"
    let (box, sent) := s.box.offer tag (← (c.get? "message").bind message?)
    some ({ s with box }, .null, (sent.map (tag, ·)).toList)
  | "recv" =>
    let (s, r) := s.receive
    some (s, r, [])
  | "close" => some (s.set s.box.channel.close, .null, [])
  | "drop" => some ({ s.set s.box.channel.drop with dropped := true }, .null, [])
  | _ => none

def step (s : State) (c : Json) : Option (State × Json) := do
  let (s, r, sent) ← verb s c
  let (box, done) := s.box.settle
  some ({ s with box }, .ofMembers [("r", r),
    ("done", .ofMembers ((sent ++ done).map fun d => (d.1, .bool d.2))),
    ("waiting", .ofNat box.waiting.length), ("closed", .bool box.channel.shut)])

def transcript (v : Json) : Option Json :=
  let box : Outbox String Message := ⟨.ofCapacity ((v.natAt? "capacity").getD 4), []⟩
  Console.transcript { box } step v

end Outbound

namespace Commit

open Parley.Flow (Commit)

/-- A hook that may have to wait for a gate, and may try to add another, and may fail. -/
structure Hook where
  name : String
  gate : Option String
  requeue : Bool
  failure : Option String

structure State where
  commit : Commit Hook := {}
  runner : Option String := none
  opened : List String := []

def stateName : Flow.Commit.State → String
  | .new => "new"
  | .committing => "committing"
  | .committed => "committed"

def storeFault (e : SessionError) : Json := faultText
  (match e with
  | .store _ => "Store"
  | .expired _ => "Expired") e.message

def unitResult : Except SessionError Unit → Json
  | .ok () => .str "ok"
  | .error e => storeFault e

def verb (s : State) (c : Json) : Option (State × Json × List String) := do
  match ← c.stringAt? "do" with
  | "hook" => do
    let (commit, r) := s.commit.add
      ⟨← c.stringAt? "name", c.stringAt? "gate", c.flagAt "requeue", c.stringAt? "fail"⟩
    some ({ s with commit }, .bool r, [])
  | "commit" => do
    let tag ← c.stringAt? "tag"
    let (commit, first) := s.commit.start
    if first then some ({ s with commit, runner := some tag }, .null, [])
    else some (s, .null, [tag])
  | "open" => do some ({ s with opened := (← c.stringAt? "gate") :: s.opened }, .null, [])
  | _ => none

def trace (c : Commit Hook) (h : Hook) : Json :=
  let more := if h.requeue then [.bool (c.add h).2] else []
  .arr ([.str h.name, .str (stateName c.state)] ++ more)

def step (s : State) (c : Json) : Option (State × Json) := do
  let (s, r, idle) ← verb s c
  let passes (h : Hook) := h.gate.all (· ∈ s.opened)
  let (commit, ran) :=
    if s.runner.isSome then s.commit.proceed passes (·.failure.isSome) (s.commit.hooks.length + 1)
    else (s.commit, [])
  let committed := commit.state = .committed
  let result := match ran.getLast?.bind (·.failure) with
    | some text => storeFault (.store text)
    | none => .str "ok"
  let ended := if committed then s.runner.toList.map (·, result) else []
  some ({ s with commit, runner := if committed then none else s.runner }, .ofMembers [("r", r),
    ("done", .ofMembers (ended ++ idle.map (·, .str "ok"))),
    ("ran", .arr (ran.map (trace s.commit))), ("state", .str (stateName commit.state)),
    ("committed", .bool committed)])

def transcript : Json → Option Json := Console.transcript {} step

end Commit

end Parley.Console

namespace Parley.Console.InFlight

open Parley.Flow (Token)

structure State where
  registry : InFlight Nat := {}
  tickets : Names (Ticket Nat) := []
  tokens : Names (Token Nat) := []
  nextToken : Nat := 0

/-- A new token, made from another one if there is one. -/
def State.token (s : State) (parent : Option (Token Nat)) : State × Token Nat :=
  ({ s with nextToken := s.nextToken + 1 },
    match parent with
    | some p => p.child s.nextToken
    | none => ⟨s.nextToken, []⟩)

def State.set (s : State) (r : InFlight Nat × Bool) : State × Json :=
  ({ s with registry := r.1 }, .bool r.2)

def verb (s : State) (c : Json) (conn : ConnectionId) : Option (State × Json) := do
  let token? (k : String) := (c.stringAt? k).bind s.tokens.get?
  let ticket? := (c.stringAt? "ticket").bind s.tickets.get?
  let id? := idAt? c "id"
  match ← c.stringAt? "do" with
  | "token" => do
    let name ← c.stringAt? "name"
    let (s, t) := s.token (token? "parent")
    some ({ s with tokens := (name, t) :: s.tokens }, .bool true)
  | "cancel_token" => do
    some ({ s with registry := s.registry.fire (← token? "name").name }, .bool true)
  | "token_cancelled" => do some (s, .bool (s.registry.isCancelled (← token? "name")))
  | "begin" => do
    let name ← c.stringAt? "ticket"
    let (s, t) := match token? "token" with
      | some t => (s, t)
      | none => s.token none
    match s.registry.begin? conn (← id?) t with
    | none => some (s, .null)
    | some (registry, ticket) =>
      some ({ s with registry, tickets := (name, ticket) :: s.tickets }, .ofMembers [
        ("conn", .str ticket.connection.text), ("id", ticket.id.toJson),
        ("cancelled", .bool (registry.isCancelled ticket.token))])
  | "cancel" => do some (s.set (s.registry.cancel conn (← id?)))
  | "end" => do some (s.set (s.registry.remove conn (← id?)))
  | "contains" => do some (s, .bool (s.registry.contains conn (← id?)))
  | "release" => do some (s.set (s.registry.release (← ticket?)))
  | "resolve" => do some (s.set (s.registry.claim (← ticket?)))
  | "cancelled" => do some (s, .bool (s.registry.isCancelled (← ticket?).token))
  | "cancel_connection" =>
    let (registry, n) := s.registry.cancelConnection conn
    some ({ s with registry }, .ofNat n)
  | _ => none

def step (s : State) (c : Json) : Option (State × Json) := do
  let conn : ConnectionId := ⟨(c.stringAt? "conn").getD "c"⟩
  let (s, r) ← verb s c conn
  some (s, .ofMembers [("r", r), ("len", .ofNat s.registry.size),
    ("empty", .bool (s.registry.size = 0)), ("conn_len", .ofNat (s.registry.sizeOf conn))])

def transcript : Json → Option Json := Console.transcript {} step

end Parley.Console.InFlight
