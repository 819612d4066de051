import Parley.Frame.Header
import Parley.Launch
import Parley.Log.Event
import Parley.Server.Basic

namespace Parley.Main

open Server (Stdio)

def variableNames : List String :=
  ["HOME", Launch.filterVariable] ++ Settings.overrides.map fun o => o.name

def environment : IO Settings.Environment := do
  let values ← variableNames.filterMapM fun name => do return (← IO.getEnv name).map (name, ·)
  return fun name => values.lookup name

def readFile (path : String) : IO Settings.File := do
  try
    return .contents (← IO.FS.readBinFile path).toList
  catch
    | .noFileOrDirectory .. => return .missing
    | _ => return .unreadable

/-- Run until a connection is at rest takes fewer steps than this. -/
def steps : Nat := 1000000

def write (s : Stdio) : IO Unit := do
  let out ← IO.getStdout
  out.write ⟨(s.written.flatMap Frame.encode).toArray⟩
  out.flush

partial def serve (s : Stdio) : IO Stdio := do
  write s
  let s := s.collected
  if s.isClosed then return s
  let bytes ← (← IO.getStdin).read 65536
  serve ((if bytes.isEmpty then s.finish else s.receive bytes.toList).settle steps)

def fail (text : String) (e : Exit) : IO Exit := do
  IO.eprintln ("Error: " ++ text)
  return e

def runStdio (l : Launch) : IO Exit := do
  let connection := ConnectionId.fresh (← IO.monoMsNow) (← IO.rand 0 (span 74 - 1))
  match Stdio.begin l.config connection with
  | .error r => fail r.message .failure
  | .ok s =>
    let s ← serve s
    for e in s.events do
      if l.filter.shows e then IO.eprintln (e.line l.format)
    return .success

def run (args : List String) : IO Exit := do
  match CommandLine.read args with
  | .error .help => IO.print CommandLine.help; return .success
  | .error .misuse => IO.eprint CommandLine.help; return .misuse
  | .ok c =>
    let env ← environment
    match Launch.ofFile c (← readFile (Launch.settingsPath c env)) env with
    | .error e => fail e.message e.exit
    | .ok l =>
      match l.listen with
      | .stdio => runStdio l
      | .tcp a | .websocket a => fail ("cannot listen on " ++ a.display) .failure

end Parley.Main

def main (args : List String) : IO UInt32 := do
  return UInt32.ofNat (← Parley.Main.run args).code
