import Parley.Handler.Program
import Parley.Json.Record
import Parley.Route.Table

namespace Parley.Server

namespace Builtin

def pingMethod : String := "tether/ping"
def methodsMethod : String := "tether/methods"
def sessionMethod : String := "tether/session"

def ping : Handler := Handler.typed Handler.noParams fun _ _ => .done (.str "pong")

def methods : Handler := Handler.typed Handler.noParams fun _ c => .done (.arr (c.methods.map .str))

/-- The attributes to set. They are a member of an object, or the one item of an array, and there
are none if nothing is given. -/
def changes? : Json → Option Json.Members
  | .null => some []
  | v => do
    let [set] ← v.fields? ["set"] | none
    match set with
    | none => some []
    | some (.obj ms) => some ms
    | some _ => none

def change (s : Session) : String × Json → Session
  | (name, .null) => s.remove name
  | (name, v) => s.set name v

def changing (ms : Json.Members) (next : Program) : Program :=
  ms.foldr (fun m p => .touch (change · m) fun _ => p) next

def sessionReport (s : Session) (started : Bool) : Json :=
  .obj [("attributes", .obj s.attributes), ("id", .str s.id.text), ("started", .bool started)]

def reporting : Program :=
  .touch id fun s => .touch id fun s' => .done (sessionReport s s'.isStarted)

def session : Handler := Handler.typed changes? fun ms _ => changing ms reporting

end Builtin

def registerBuiltin (t : Route.Table Handler) : Route.Table Handler :=
  ((t.register (.ofMethod Builtin.pingMethod) Builtin.ping).register
    (.ofMethod Builtin.methodsMethod) Builtin.methods).register
    (.ofMethod Builtin.sessionMethod) Builtin.session

end Parley.Server
