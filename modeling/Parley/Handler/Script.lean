import Parley.Handler.Program
import Parley.Peer.Pending
import Parley.Session.Basic

namespace Parley

/-- Handlers of typed parameters. -/
inductive TypedStep
  | unit
  | greet
  | optionalInteger
  | sum
  | pair
  | names
  | custom
  | unserializable
  deriving DecidableEq, Repr

inductive ScriptStep
  | echo
  | value (v : Json)
  | fail (e : HandlerError)
  | panic (text : Option String)
  | sleep (ms : Nat)
  | wait (gate : String)
  | log (line : String)
  | logParams
  | info
  | methods
  | session (acts : List Session.Act)
  | count
  | call (spec : RequestSpec)
  | callOrFail (spec : RequestSpec)
  | notify (method : String) (params : Params)
  | cancelPeer (id : RequestId)
  | typed (step : TypedStep)

structure Script where
  first : ScriptStep
  rest : List ScriptStep := []

namespace TypedStep

def greeting? (v : Json) : Option (String × Nat) := do
  let [some name, times] ← v.fields? ["name", "times"] | none
  let times ← Json.fieldOr none (Json.nullable (Json.below? (span 32))) times
  some (← name.string?, times.getD 1)

def integer? : Json → Option Json
  | .int n => if RequestId.inRange n then some (.int n) else none
  | _ => none

def optionalInteger? : Json → Option Json
  | .null => some .null
  | v => integer? v

def sum? : Json → Option Nat
  | .arr vs => (vs.mapM (Json.below? (span 32))).map (List.foldl (· + ·) 0)
  | _ => none

def pair? : Json → Option Json
  | .arr [n, .str s] => (integer? n).map fun n => .arr [.str s, n]
  | _ => none

def switches? : Json → Option (List (String × Bool))
  | .obj ms => ms.mapM fun (k, v) => v.bool?.map (k, ·)
  | _ => none

def chosen (ms : List (String × Bool)) : Json := .arr ((ms.filter (·.2)).map fun m => .str m.1)

/-- The outcome for some parameters, null if there are none. -/
def outcome (t : TypedStep) (v : Json) : Except HandlerError Json :=
  let result : Option (Except HandlerError Json) := match t with
    | unit => (Handler.noParams v).map fun _ => .ok (.str "pong")
    | greet => (greeting? v).map fun (name, times) =>
      .ok (.obj [("hello", .str name), ("times", .int times)])
    | optionalInteger => (optionalInteger? v).map fun n => .ok (.obj [("n", n)])
    | sum => (sum? v).map fun n => .ok (.int n)
    | pair => (pair? v).map Except.ok
    | names => (switches? v).map fun ms => .ok (chosen ms)
    | custom => (Handler.noParams v).map fun _ => .error (.custom ⟨-32001, "nope", none⟩)
    | unserializable => (Handler.noParams v).map fun _ =>
      .error (.internal "failed to serialize result: key must be a string")
  result.getD (.error (.invalidParams none))

end TypedStep

namespace ScriptStep

def counter (s : Session) : Int :=
  match s.attribute? "n" with
  | some (.int n) => if RequestId.inRange n then n else 0
  | _ => 0

def report (c : Context) (params : Option Json) (cancelled : Bool) (s : Session) : Json :=
  .ofMembers [("method", .str c.method), ("id", .ofOption (c.requestId.map RequestId.toJson)),
    ("notification", .bool c.requestId.isNone), ("cancelled", .bool cancelled),
    ("token_cancelled", .bool cancelled), ("connection", .str c.connection.text),
    ("session", .str s.id.text), ("peer_connection", .str c.connection.text),
    ("params", .ofOption params), ("routes", .int c.routes)]

def sessionReport (acts : List Session.Act) (s : Session) : Json :=
  let t := Session.Act.runAll acts s
  .ofMembers [("r", .arr (Session.Act.results s acts)), ("attributes", .obj t.attributes),
    ("started", .bool t.isStarted), ("expired", .bool t.expired)]

def program (c : Context) (params : Option Json) (k : Json → Program) : ScriptStep → Program
  | echo => k (.ofOption params)
  | value v => k v
  | fail e => .fail e
  | panic text => .panic text
  | sleep ms => .sleep ms "abandoned sleep" (k (.str "slept"))
  | wait gate => .await gate ("abandoned " ++ gate) (k (.str "released"))
  | log line => .log line (k .null)
  | logParams => .log (c.method ++ " " ++ ((params.map Json.text).getD "none")) (k .null)
  | info => .probe fun cancelled => .touch id fun s => k (report c params cancelled s)
  | methods => k (.arr (c.methods.map .str))
  | session acts => .touch (Session.Act.runAll acts) fun s => k (sessionReport acts s)
  | count =>
    .touch (fun s => s.set "n" (.int (counter s + 1))) fun s => k (.int (counter s + 1))
  | call spec => .send (.request spec) fun r => k (ExchangeError.outcome r)
  | callOrFail spec => .send (.request spec) fun
    | .ok v => k v
    | .error e => .fail (.internal e.toJson.text)
  | notify method params => .send (.notify method params) fun r => k (ExchangeError.outcome r)
  | cancelPeer id => .send (.cancel id) fun
    | .ok _ => k (.str "sent")
    | .error e => .fail (.internal e.message)
  | typed t =>
    match t.outcome (.ofOption params) with
    | .ok v => k v
    | .error e => .fail e

end ScriptStep

namespace Script

def steps (c : Context) (params : Option Json) : ScriptStep → List ScriptStep → Program
  | last, [] => last.program c params .done
  | step, next :: rest => step.program c params fun _ => steps c params next rest

def handler (s : Script) : Handler := fun c params => steps c params s.first s.rest

end Script

end Parley
