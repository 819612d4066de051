import Parley.Console.Script
import Parley.Dispatch.Call
import Parley.Route.Table
import Parley.Server.Builtin

namespace Parley.Console.Route

open Parley.Route (Condition Mapping Table TieBreak)

/-- Add a route where a command says: at one method, at several, also within a scope, or at any. -/
def register? {α : Type} (t : Table α) (c : Json) (a : α) : Option (Table α) :=
  match c.stringAt? "route", c.stringsAt? "scope", c.stringsAt? "methods" with
  | some m, _, _ => some (t.register (.ofMethod m) a)
  | none, some s, ms => some (t.registerScoped (.ofMethods s) (.ofMethods (ms.getD [])) a)
  | none, none, some ms => some (t.register (.ofMethods ms) a)
  | none, none, none => some (t.register .any a)

def tieBreak? (v : Json) : Option TieBreak :=
  match v.stringAt? "tie_break" with
  | some "first" => some .firstRegistered
  | some "reject" | none => some .reject
  | some _ => none

def tieBreakName : TieBreak → String
  | .reject => "reject"
  | .firstRegistered => "first"

def fault : Parley.Route.Error → Json
  | e@(.notFound m) => .ofMembers [("error", .str "NoHandlerFound"), ("method", .str m),
      ("message", .str e.message)]
  | e@(.ambiguous m cs) => .ofMembers [("error", .str "Ambiguous"), ("method", .str m),
      ("message", .str e.message), ("candidates", .ofStrings cs)]

def addHandler (t : Table Handler) (c : Json) : Option (Table Handler) :=
  if c.flagAt "builtin" then some (Server.registerBuiltin t)
  else do register? t c (← (c.get? "run").bind Script.ofJson?).handler

def handlers? (t : Table Handler) (v : Json) (name : String) : Option (Table Handler) :=
  ((v.itemsAt? name).getD []).foldlM addHandler t

def verb (t : Table String) (c : Json) : Option (Table String × Json) := do
  match ← c.stringAt? "do" with
  | "register" => do
    let t ← register? t c (← c.stringAt? "label")
    some (t, .obj [("len", .ofNat t.size)])
  | "resolve" => do
    match t.resolve (← c.stringAt? "method") with
    | .ok label => some (t, .obj [("winner", .str label)])
    | .error e => some (t, fault e)
  | "has" => do some (t, .obj [("has", .bool (t.hasMethod (← c.stringAt? "method")))])
  | "methods" => some (t, .ofMembers [("methods", .ofStrings t.methods), ("len", .ofNat t.size),
      ("empty", .bool (t.size = 0))])
  | "policy" => some (t, .obj [("policy", .str (tieBreakName t.tieBreak))])
  | _ => none

def transcript (v : Json) : Option Json := do
  Console.transcript ({ tieBreak := ← tieBreak? v } : Table String) verb v

end Parley.Console.Route

namespace Parley.Dispatch

structure Detached where
  connection : ConnectionId
  hub : Hub
  peer : Peer Actor := .detached
  session : Session.Handle

namespace Detached

def ofConnection (c : ConnectionId) : Detached :=
  let (store, session) := ({ maxIdle := 0 } : Session.Store).create c.session 0
  { connection := c, hub := { sessions := { store } }, session }

/-- The handler goes on until it is done. A handler that waits for what never comes, or goes on for
more than `fuel` steps, has no outcome. -/
def perform : Nat → Detached → Activity → Detached × Option (Except HandlerError Json)
  | 0, d, _ => (d, none)
  | fuel + 1, d, activity =>
    match activity.step d.hub d.peer 0 (Hub.callToken d.connection 0) d.session with
    | (hub, peer, .moved next) => perform fuel { d with hub, peer } next
    | (hub, peer, .ended outcome) => ({ d with hub, peer }, some outcome)
    | (hub, peer, .panicked text) =>
      ({ d with hub, peer }, some (.error (Activity.panicError text)))
    | (_, _, .waiting) =>
      match activity.alarm d.hub with
      | some t => perform fuel { d with hub := { d.hub with now := max d.hub.now t } } activity
      | none => (d, none)

def call (fuel : Nat) (d : Detached) (handler : Handler) (method : String)
    (params : Option Json) : Detached × Option (Except HandlerError Json) :=
  let context : Context := { connection := d.connection, requestId := none, method }
  perform fuel d (.running (handler context params))

end Detached

end Parley.Dispatch

namespace Parley.Console.Handler

open Parley.Dispatch (Detached)

/-- A failure that has no text of its own shows none. -/
def outcome : Except HandlerError Json → Json
  | .ok v => .obj [("ok", v)]
  | .error e =>
    let shown := match e with
      | .invalidParams none => []
      | e => [("message", Json.str e.message)]
    .ofMembers ([("error", .str e.kind), ("wire", e.body.value)] ++ shown)

def start : Detached := .ofConnection ⟨"<conn>"⟩

def call (d : Detached) (handler : Parley.Handler) (method : String) (c : Json) :
    Option (Detached × Json) :=
  match d.call turns handler method (c.get? "params") with
  | (d, some r) => some (d, outcome r)
  | (_, none) => none

def transcript (v : Json) : Option Json := do
  let handler := (← (v.get? "script").bind Script.ofJson?).handler
  let method := (v.stringAt? "method").getD "m"
  let (d, shown) ← run start (call · handler method) (← v.itemsAt? "calls")
  some (.ofMembers [("calls", .arr shown),
    ("log", .ofStrings (d.hub.journal.mergeSort fun a b => a ≤ b)),
    ("pending_closed", .bool d.peer.pending.closed)])

def routed (routes : Parley.Route.Table Parley.Handler) (d : Detached) (c : Json) :
    Option (Detached × Json) := do
  let method ← c.stringAt? "method"
  match routes.resolve method with
  | .ok handler => call d handler method c
  | .error e => some (d, Route.fault e)

def builtin (v : Json) : Option Json := do
  let routes := Server.registerBuiltin {}
  let (_, shown) ← run start (routed routes) (← v.itemsAt? "calls")
  some (.ofMembers [("methods", .ofStrings routes.methods), ("calls", .arr shown)])

end Parley.Console.Handler
