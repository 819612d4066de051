import Parley.Console.Peer
import Parley.Console.Session
import Parley.Handler.Script

namespace Parley.Console

def handlerError? (c : Json) : Option HandlerError := do
  let message? := c.stringAt? "message"
  match ← c.stringAt? "kind" with
  | "invalid_params" => do some (.invalidParams (← message?))
  | "internal" => do some (.internal (← message?))
  | "cancelled" => some .cancelled
  | "custom" => (body? c).map .custom
  | "session_store" => do some (.ofSession (.store (← message?)))
  | "session_expired" => do some (.ofSession (.expired (← message?)))
  | "json" => some (.invalidParams none)
  | _ => none

namespace Script

def typed? (name : String) : Option TypedStep :=
  match name with
  | "unit" => some .unit
  | "greet" => some .greet
  | "opt_i64" => some .optionalInteger
  | "sum_u32" => some .sum
  | "pair" => some .pair
  | "map" => some .names
  | "custom" => some .custom
  | "unserializable" => some .unserializable
  | _ => none

def named? (c : Json) (name : String) : Option ScriptStep :=
  match name with
  | "echo" => some .echo
  | "value" => some (.value (.ofOption (c.get? "value")))
  | "fail" => ((c.get? "error").bind handlerError?).map .fail
  | "panic" => some (.panic (c.stringAt? "message"))
  | "panic_value" => some (.panic none)
  | "sleep" => (c.natAt? "ms").map .sleep
  | "wait" => (c.stringAt? "gate").map .wait
  | "log" => (c.stringAt? "line").map .log
  | "log_params" => some .logParams
  | "info" => some .info
  | "methods" => some .methods
  | "session" => do some (.session (← (← c.itemsAt? "ops").mapM Session.act?))
  | "count" => some .count
  | "call" => (Errand.request? c).map .call
  | "call_or_fail" => (Errand.request? c).map .callOrFail
  | "notify" => do some (.notify (← c.stringAt? "method") (Errand.params c))
  | "cancel_peer" => (idAt? c "id").map .cancelPeer
  | _ => none

def step? (c : Json) : Option ScriptStep :=
  match c.stringAt? "typed" with
  | some name => (typed? name).map .typed
  | none => (c.stringAt? "h").bind (named? c)

/-- Up to `n` steps that follow each other. -/
def chain : Nat → Json → List Json
  | 0, _ => []
  | n + 1, c => c :: (((c.get? "then").map (chain n)).getD [])

def ofJson? (c : Json) : Option Script := do
  let first :: rest ← (chain Json.maxDepth c).mapM step? | none
  some { first, rest }

end Script

end Parley.Console
