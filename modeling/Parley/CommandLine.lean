import Parley.Server.Config

namespace Parley

def CommandLine.help : String :=
  "Bidirectional JSON-RPC endpoint\n\nUsage: tether [OPTIONS]\n\nOptions:\n"
    ++ "      --stdio             Serve on process stdin/stdout\n"
    ++ "      --tcp <ADDR>        Listen for framed TCP connections on this address\n"
    ++ "      --websocket <ADDR>  Listen for WebSocket connections on this address\n"
    ++ "      --settings <PATH>   Settings file (defaults to `~/.tether/settings.json`)\n"
    ++ "  -h, --help              Print help\n"

structure CommandLine where
  stdio : Bool := false
  tcp : Option Address := none
  websocket : Option Address := none
  settings : Option String := none
  deriving DecidableEq, Repr, Inhabited

namespace CommandLine

inductive Stop
  | help
  | misuse
  deriving DecidableEq, Repr

inductive Valued
  | tcp
  | websocket
  | settings
  deriving DecidableEq, Repr

def Valued.flag : Valued → String
  | tcp => "--tcp"
  | websocket => "--websocket"
  | settings => "--settings"

def Valued.all : List Valued := [tcp, websocket, settings]

def Valued.ofFlag? (flag : String) : Option Valued := all.find? fun v => v.flag = flag

/-- What has been read, the option that still lacks its value, and whether options have ended. -/
structure Progress where
  line : CommandLine := {}
  lacking : Option Valued := none
  ended : Bool := false

def once {α : Type} (old new : Option α) : Except Stop (Option α) :=
  match old, new with
  | none, some a => .ok (some a)
  | _, _ => .error .misuse

def setValue (c : CommandLine) (v : Valued) (text : String) : Except Stop CommandLine :=
  match v with
  | .tcp => do return { c with tcp := ← once c.tcp (Address.read? text) }
  | .websocket => do return { c with websocket := ← once c.websocket (Address.read? text) }
  | .settings => do
    return { c with settings := ← once c.settings (if text.isEmpty then none else some text) }

def looksLikeOption (arg : String) : Bool := arg.toList.head? = some '-' && arg ≠ "-"

def setFlag (c : CommandLine) (arg : String) : Except Stop CommandLine :=
  if arg = "--help" ∨ ['-', 'h'].isPrefixOf arg.toList then .error .help
  else if arg = "--stdio" ∧ !c.stdio then .ok { c with stdio := true }
  else .error .misuse

def step (p : Progress) (arg : String) : Except Stop Progress :=
  match p.lacking with
  | some v =>
    if looksLikeOption arg then .error .misuse
    else do return { p with line := ← p.line.setValue v arg, lacking := none }
  | none =>
    if p.ended then .error .misuse
    else if arg = "--" then .ok { p with ended := true }
    else
      match Valued.ofFlag? arg with
      | some v => .ok { p with lacking := some v }
      | none =>
        match Text.cut ['='] arg.toList with
        | some (flag, value) =>
          match Valued.ofFlag? (String.ofList flag) with
          | some v => do return { p with line := ← p.line.setValue v (String.ofList value) }
          | none => do return { p with line := ← p.line.setFlag arg }
        | none => do return { p with line := ← p.line.setFlag arg }

def transports (c : CommandLine) : Nat :=
  (if c.stdio then 1 else 0) + (if c.tcp.isSome then 1 else 0) + if c.websocket.isSome then 1 else 0

def read (args : List String) : Except Stop CommandLine := do
  let p ← args.foldlM step {}
  if p.lacking.isNone ∧ p.line.transports ≤ 1 then return p.line else throw .misuse

end CommandLine

inductive Listen
  | stdio
  | tcp (address : Address)
  | websocket (address : Address)
  deriving DecidableEq, Repr

namespace CommandLine

/-- The transport that the command line asks for, or else the configured one; an address that
cannot be read is given back as it stands. -/
def listen (c : CommandLine) (config : Server.Config) : Except String Listen :=
  if c.stdio then .ok .stdio
  else
    match c.tcp, c.websocket with
    | some a, _ => .ok (.tcp a)
    | none, some a => .ok (.websocket a)
    | none, none =>
      match config.transport, config.listenAddress? with
      | .stdio, _ => .ok .stdio
      | .tcp, some a => .ok (.tcp a)
      | .websocket, some a => .ok (.websocket a)
      | _, none => .error config.listenText

end CommandLine

end Parley
