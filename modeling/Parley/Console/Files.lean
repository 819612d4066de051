import Parley.Console.Basic
import Parley.Frame.Header
import Parley.Identifier
import Parley.Settings.Load
import Parley.Text.Split

namespace Parley.Console.Files

open Parley.Settings (File)

abbrev Location := List String

def file? : Option Json → Option File
  | none | some .null => some .missing
  | some (.bool _) => some .unreadable
  | some v => (bytes? v).map .contents

def settingsName : List Char := "@SETTINGS".toList

def settingsLocation : Location := ["settings.json", "given", "tmp"]

def workingDirectory : Location := ["work", "home"]

def directories : List Location :=
  [[], workingDirectory, settingsLocation.tail] ++
    ["bin", "dev", "etc", "home", "lib", "mnt", "opt", "proc", "root", "run", "sbin", "srv", "sys",
      "tmp", "usr", "var"].map ([·])

def fileAt (settings : File) (l : Location) : File :=
  if l = settingsLocation then settings
  else if l ∈ directories then .unreadable
  else if l = ["null", "dev"] then .contents []
  else .missing

def replaced (old new : List Char) : Nat → List Char → List Char
  | 0, cs => cs
  | n + 1, cs =>
    match Text.cut old cs with
    | none => cs
    | some (before, after) => before ++ new ++ replaced old new n after

/-- The names between the slashes of a path. -/
def names (cs : List Char) : List String :=
  cs.foldr (fun c ns =>
    match ns with
    | [] => []
    | n :: ns => if c = '/' then "" :: n :: ns else (String.singleton c ++ n) :: ns) [""]

def enter? (settings : File) (l : Location) (name : String) : Option Location :=
  if fileAt settings l ≠ .unreadable then none
  else if name = "" ∨ name = "." then some l
  else if name = ".." then some l.tail
  else some (name :: l)

def find (settings : File) (path : String) : File :=
  let there := '/' :: List.intercalate ['/'] (settingsLocation.reverse.map String.toList)
  let cs := replaced settingsName there path.length path.toList
  let start := if cs.head? = some '/' then [] else workingDirectory
  match (names cs).foldlM (enter? settings) start with
  | some l => fileAt settings l
  | none => .missing

end Parley.Console.Files

namespace Parley.Console.Socket

open Frame.WebSocket (Packet Failure)

/-- Bytes as they are shown: a text if they are one, or else hexadecimal digits. -/
def ofBytes (bs : Bytes) : Json :=
  match bs.toString? with
  | some s => .str s
  | none => .obj [("hex", .str (String.ofList (bs.flatMap fun b => Identifier.hex 2 b.toNat)))]

def frameKind : Frame.Error → String
  | .io _ => "Io"
  | .missingLength => "MissingContentLength"
  | .invalidLength _ => "InvalidContentLength"
  | .headerTooLong _ => "HeaderTooLong"
  | .tooLarge _ _ => "FrameTooLarge"
  | .malformed _ => "MalformedHeader"

def failure (f : Failure) : Json :=
  let message := (f.message?.map fun m => ("message", Json.str m)).toList
  match f with
  | .io => fault "Io"
  | .closed => .ofMembers (("error", .str "Closed") :: message)
  | .framing e => .ofMembers ([("error", .str "Framing"), ("kind", .str (frameKind e))] ++ message)

def packet? : Json → Option Packet
  | .obj [(name, v)] =>
    match name with
    | "text" => ((bytes? v).bind Bytes.toString?).map .text
    | "binary" => (bytes? v).map .binary
    | "ping" => some .ping
    | "pong" => some .pong
    | "close" => some .close
    | "error" => some .failed
    | _ => none
  | _ => none

def body? : Json → Option (Option Bytes)
  | .null => some none
  | v => (bytes? v).map some

def received : Except Failure Bytes → Json
  | .ok body => .obj [("frame", ofBytes body)]
  | .error f => failure f

def sent : Except Failure String → Json
  | .ok s => .obj [("text", .str s)]
  | .error f => failure f

def transcript (v : Json) : Option Json := do
  let packets ← (← v.itemsAt? "inbound").mapM packet?
  let bodies ← (← v.itemsAt? "outbound").mapM body?
  let out := Frame.WebSocket.send (v.flagAt "frame_headers") false bodies
  some (.ofMembers [("inbound", .arr ((Frame.WebSocket.receive packets).map received)),
    ("outbound", .arr (out.map sent)), ("fresh_id", .bool true)])

end Parley.Console.Socket
