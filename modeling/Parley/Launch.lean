import Parley.CommandLine
import Parley.Log.Filter
import Parley.Settings.Load

namespace Parley

inductive Exit
  | success
  | failure
  | misuse
  | crashed
  deriving DecidableEq, Repr

def Exit.code : Exit → Nat
  | success => 0
  | failure => 1
  | misuse => 2
  | crashed => 101

structure Launch where
  config : Server.Config
  filter : Log.Filter
  format : LogFormat
  listen : Listen

namespace Launch

/-- Why the program does nothing, once the command line has been read. -/
inductive Error
  | settings (e : Settings.LoadError)
  | filter (directive : String)
  | torn (x : Text.Cut)
  | address (text : String)
  | overflow
  deriving DecidableEq, Repr

namespace Error

def message : Error → String
  | settings .io => "failed to read settings"
  | settings .json => "failed to parse settings"
  | settings (.invalid f) => f.message
  | filter directive => "invalid log filter " ++ Text.quoted directive
  | torn x => x.message
  | address text => Server.Config.invalidAddress text
  | overflow => "a queue or the number of connections is too large"

def exit : Error → Exit
  | torn _ | overflow => .crashed
  | _ => .failure

end Error

def mostPlaces : Nat := span 61 - 1

def fits (c : Server.Config) : Listen → Bool
  | .stdio => c.maxConnections ≤ mostPlaces && c.dispatch.outboundQueue ≤ mostPlaces
      && c.dispatch.inboundQueue ≤ mostPlaces
  | _ => c.maxConnections ≤ mostPlaces

def filterVariable : String := "RUST_LOG"

def described (text : String) : Except Error (Option Log.Filter) :=
  match Log.Filter.read text with
  | .ok f => .ok (some f)
  | .error .malformed => .ok none
  | .error (.torn x) => .error (.torn x)

def filterFor (env : Settings.Environment) (l : Settings.Logging) : Except Error Log.Filter := do
  if let some text := env filterVariable then
    if let some f ← described text then return f
  match ← described l.directive with
  | some f => return f
  | none => throw (.filter l.directive)

def plan (c : CommandLine) (s : Settings) (env : Settings.Environment) : Except Error Launch := do
  let filter ← filterFor env s.logging
  let config := Server.Config.ofSettings s
  match c.listen config with
  | .error text => throw (.address text)
  | .ok listen =>
    if fits config listen then return { config, filter, format := s.logging.format, listen }
    else throw .overflow

def settingsPath (c : CommandLine) (env : Settings.Environment) : String :=
  c.settings.getD (Settings.defaultPath env)

/-- The launch for a command line, with what stands at the path of the settings file. -/
def ofFile (c : CommandLine) (file : Settings.File) (env : Settings.Environment) :
    Except Error Launch :=
  match Settings.load file env with
  | .error e => .error (.settings e)
  | .ok s => plan c s env

def logs (l : Launch) (events : List Log.Event) : Bool := events.any l.filter.shows

end Launch

end Parley
