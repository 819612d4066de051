import Parley.Json.Basic
import Parley.Json.Printer
import Parley.Json.Term
import Parley.Settings.Json
import Parley.Text.Split

namespace Parley.Settings

abbrev Environment := String → Option String

/-- Integers of some width, with or without a sign. -/
inductive IntKind
  | unsigned (bits : Nat)
  | signed (bits : Nat)
  deriving DecidableEq, Repr

def IntKind.read? (k : IntKind) (cs : List Char) : Option Int :=
  match k with
  | unsigned bits =>
    (Decimal.unsigned? cs).bind fun n => if n < span bits then some (n : Int) else none
  | signed bits =>
    (Decimal.signed? cs).bind fun n =>
      if -(span (bits - 1) : Int) ≤ n ∧ n < span (bits - 1) then some n else none

def bounded? (k : IntKind) (lo hi : Int) (raw : String) : Option Int :=
  (k.read? (Text.trim raw.toList)).bind fun n => if lo ≤ n ∧ n ≤ hi then some n else none

def within? (bits lo hi : Nat) (raw : String) : Option Nat :=
  (bounded? (.unsigned bits) lo hi raw).map Int.toNat

def switchOn : List String := ["true", "1", "yes", "on"]
def switchOff : List String := ["false", "0", "no", "off"]

def switch? (raw : String) : Option Bool :=
  let s := String.ofList (Text.lower (Text.trim raw.toList))
  if s ∈ switchOn then some true else if s ∈ switchOff then some false else none

def nonempty? (raw : String) : Option String := if raw.isEmpty then none else some raw

/-- A variable and what its text does to the settings, if it can be read. -/
structure Override where
  name : String
  set? : String → Settings → Option Settings

def day : Nat := 86400000

def overrides : List Override := [
  ⟨"TETHER_TRANSPORT", fun raw s => (named? Transport.all Transport.name raw).map fun v =>
    { s with server := { s.server with transport := v } }⟩,
  ⟨"TETHER_HOST", fun raw s => (nonempty? raw).map fun v =>
    { s with server := { s.server with host := v } }⟩,
  ⟨"TETHER_PORT", fun raw s => (within? 16 1 65535 raw).map fun v =>
    { s with server := { s.server with port := v } }⟩,
  ⟨"TETHER_WS_PATH", fun raw s => (nonempty? raw).map fun v =>
    { s with server := { s.server with websocketPath := v } }⟩,
  ⟨"TETHER_WS_FRAME_HEADERS", fun raw s => (switch? raw).map fun v =>
    { s with server := { s.server with wsFrameHeaders := v } }⟩,
  ⟨"TETHER_MAX_CONNECTIONS", fun raw s => (within? 64 1 100000 raw).map fun v =>
    { s with server := { s.server with maxConnections := v } }⟩,
  ⟨"TETHER_SHUTDOWN_TIMEOUT_SECS", fun raw s => (within? 64 0 600 raw).map fun v =>
    { s with server := { s.server with shutdownTimeoutSecs := v } }⟩,
  ⟨"TETHER_TIE_BREAK", fun raw s => (named? Route.TieBreak.all Route.TieBreak.name raw).map fun v =>
    { s with rpc := { s.rpc with tieBreak := v } }⟩,
  ⟨"TETHER_HANDLER_TIMEOUT_MS", fun raw s => (within? 64 1 day raw).map fun v =>
    { s with rpc := { s.rpc with handlerTimeoutMs := some v } }⟩,
  ⟨"TETHER_REQUEST_TIMEOUT_MS", fun raw s => (within? 64 1 day raw).map fun v =>
    { s with rpc := { s.rpc with requestTimeoutMs := some v } }⟩,
  ⟨"TETHER_MAX_FRAME_BYTES", fun raw s => (within? 64 1024 1073741824 raw).map fun v =>
    { s with rpc := { s.rpc with maxFrameBytes := v } }⟩,
  ⟨"TETHER_SESSION_MAX_IDLE_SECS", fun raw s => (within? 64 1 604800 raw).map fun v =>
    { s with session := { s.session with maxIdleSecs := v } }⟩,
  ⟨"TETHER_LOG_LEVEL", fun raw s => (named? LogLevel.all LogLevel.name raw).map fun v =>
    { s with logging := { s.logging with level := v } }⟩,
  ⟨"TETHER_LOG_FORMAT", fun raw s => (named? LogFormat.all LogFormat.name raw).map fun v =>
    { s with logging := { s.logging with format := v } }⟩]

def Override.apply (env : Environment) (s : Settings) (o : Override) : Settings :=
  match env o.name with
  | none => s
  | some raw => (o.set? raw s).getD s

def override (env : Environment) (s : Settings) : Settings := overrides.foldl (Override.apply env) s

end Parley.Settings

namespace Parley.Settings

mutual
/-- `upper` laid over `lower`. -/
def overlay (lower upper : Json) : Json :=
  match upper with
  | .obj layer =>
    match lower with
    | .obj base => .obj (overlayMembers base layer)
    | _ => .obj layer
  | v => v

def overlayMembers (base layer : Json.Members) : Json.Members :=
  match layer with
  | [] => base
  | (_, .null) :: rest => overlayMembers base rest
  | (k, v) :: rest =>
    let combined := match base.lookup k with
      | some existing => overlay existing v
      | none => v
    overlayMembers (Json.insert k combined base) rest
end

end Parley.Settings

namespace Parley.Settings

/-- What stands at the path of the settings file. -/
inductive File
  | missing
  | unreadable
  | contents (bytes : Bytes)
  deriving DecidableEq, Repr

inductive LoadError
  | io
  | json
  | invalid (fault : Fault)
  deriving DecidableEq, Repr

def merged : File → Except LoadError Json
  | .missing => .ok (toJson {})
  | .unreadable => .error .io
  | .contents bytes =>
    match Utf8.decode? bytes with
    | none => .error .io
    | some cs =>
      match (Json.Term.read? (cs.map .char)).bind (Json.Term.toJson? Json.maxDepth) with
      | none => .error .json
      | some v => .ok (overlay (toJson {}) v)

def check (s : Settings) : Except LoadError Settings :=
  match s.fault? with
  | some f => .error (.invalid f)
  | none => .ok s

def load (file : File) (env : Environment) : Except LoadError Settings := do
  match ofJson? (← merged file) with
  | none => .error .json
  | some s => check (override env s)

def toFile (s : Settings) : File := .contents (Utf8.encode s.written.chars)

def joined (directory name : String) : String :=
  if directory.isEmpty then name
  else if directory.toList.getLast? = some '/' then directory ++ name
  else directory ++ "/" ++ name

def defaultPath (env : Environment) : String :=
  joined (joined ((env "HOME").getD "/tmp") ".tether") "settings.json"

end Parley.Settings
