import Parley.Console.Dispatch
import Parley.Console.Files
import Parley.Log.Event
import Parley.Launch
import Parley.Server.Basic
import Parley.Server.Config
import Parley.Server.Health

namespace Parley.Console

namespace Settings

open Parley.Settings (Environment File)

def environment (v : Json) : Environment := fun name =>
  ((v.get? "env").bind (Json.get? · name)).bind Json.string?

def fileOf? (v : Json) (c : CommandLine) : Option File :=
  match c.settings with
  | none => Files.file? (v.get? "home_file")
  | some path => (Files.file? (v.get? "file")).map (Files.find · path)

end Settings

namespace Execution

open Parley.Server (Stdio)

structure View where
  batches : List (List String) := []
  exit : Json
  extra : Nat := 0
  leftover : Nat := 0
  logged : Bool
  jsonLog : Bool := false

def View.toJson (w : View) (detailed : Bool) : Json :=
  let details :=
    if detailed then [("leftover", .ofNat w.leftover), ("json_log", .bool w.jsonLog)] else []
  .ofMembers ([("batches", .arr (w.batches.map Dispatch.sorted)), ("exit", w.exit),
    ("extra", .ofNat w.extra), ("logged", .bool w.logged)] ++ details)

structure Batch where
  bytes : Bytes
  expect : Nat

def batch? (c : Json) : Option Batch := do
  let bytes ← match c.itemsAt? "msgs" with
    | some ms => some (Dispatch.framed (.arr ms))
    | none => bytesAt? c "bytes"
  some ⟨bytes, (c.natAt? "expect").getD 0⟩

def ended (batches : List Batch) (e : Exit) (logged : Bool) : View :=
  { batches := batches.map fun _ => [], exit := .ofNat e.code, logged }

/-- The connection of the standard streams, and the name under which it is shown. -/
def connection : ConnectionId := .fresh 1764000000000 0x123456789abcdef0123

def shownText (text : String) : String :=
  String.ofList (Files.replaced connection.text.toList "<conn>".toList text.length text.toList)

/-- The server with what came in, and the frames that went out besides those that nobody has
waited for yet. -/
def exchange (s : Stdio) (waiting : List String) (f : Stdio → Stdio) :
    Option (Stdio × List String) := do
  let s := (f s).settle turns
  some (s.collected, waiting ++ (← s.written.mapM Bytes.toString?).map shownText)

def runBatches (s : Stdio) (waiting : List String) :
    List Batch → Option (Stdio × List String × List (List String))
  | [] => some (s, waiting, [])
  | b :: bs => do
    let (s, frames) ← exchange s waiting (·.receive b.bytes)
    let (s, rest, later) ← runBatches s (frames.drop b.expect) bs
    some (s, rest, frames.take b.expect :: later)

def stdio (l : Launch) (s : Stdio) (batches : List Batch) : Option View := do
  let (s, waiting, shown) ← runBatches s [] batches
  let (s, extra) ← exchange s waiting Stdio.finish
  let logged := l.logs s.events
  some {
    batches := shown
    exit := .ofNat Exit.success.code
    extra := extra.length
    logged
    jsonLog := logged && l.format = .json }

def listen (l : Launch) (e : Log.Event) (batches : List Batch) : View :=
  let logged := l.logs [.ready, .starting, e]
  { batches := batches.map fun _ => [], exit := .str "killed", logged
    jsonLog := logged && l.format = .json }

def serve (l : Launch) (batches : List Batch) : Option View :=
  match l.listen with
  | .stdio =>
    match Stdio.begin l.config connection with
    | .ok s => stdio l s batches
    | .error _ => some (ended batches .failure true)
  | .tcp a =>
    if Parley.Server.Host.canBind [] a then some (listen l .listening batches)
    else some (ended batches .failure true)
  | .websocket a =>
    if Parley.Server.Host.canBind [] a then
      match Parley.Server.socketPattern l.config.websocketPath with
      | .ok _ => some (listen l .listeningForSockets batches)
      | .error _ => some (ended batches .crashed true)
    else some (ended batches .failure true)

def view (v : Json) (batches : List Batch) : Option View := do
  match CommandLine.read (← v.stringsAt? "args") with
  | .error .help =>
    some { ended batches .success false with leftover := CommandLine.help.utf8ByteSize }
  | .error .misuse => some (ended batches .misuse true)
  | .ok c =>
    match Launch.ofFile c (← Settings.fileOf? v c) (Settings.environment v) with
    | .error e => some (ended batches e.exit true)
    | .ok l => serve l batches

def transcript (v : Json) : Option Json := do
  let batches ← ((v.itemsAt? "batches").getD []).mapM batch?
  some ((← view v batches).toJson (v.get? "batches").isSome)

end Execution

end Parley.Console
