import Parley.Json.Record
import Parley.Settings.Basic

namespace Parley

open Json

/-- The value that a name stands for. -/
def named? {α : Type} (all : List α) (name : α → String) (s : String) : Option α :=
  all.find? fun a => name a = s

namespace Transport
def ofJson? (v : Json) : Option Transport := (choice? v).bind (named? all name)
end Transport

namespace LogLevel
def ofJson? (v : Json) : Option LogLevel := (choice? v).bind (named? all name)
end LogLevel

namespace LogFormat
def ofJson? (v : Json) : Option LogFormat := (choice? v).bind (named? all name)
end LogFormat

namespace Route.TieBreak
def ofJson? (v : Json) : Option TieBreak := (choice? v).bind (named? all name)
end Route.TieBreak

namespace Settings

def word? : Json → Option Nat := below? (span 64)
def port? : Json → Option Nat := below? (span 16)

def Server.names : List String :=
  ["transport", "host", "port", "websocketPath", "wsFrameHeaders", "maxConnections",
    "shutdownTimeoutSecs"]

def Server.ofJson? (v : Json) : Option Server := do
  let d : Server := {}
  let [transport, host, port, path, headers, connections, timeout] ← v.fields? names | none
  some {
    transport := ← fieldOr d.transport Transport.ofJson? transport
    host := ← fieldOr d.host string? host
    port := ← fieldOr d.port port? port
    websocketPath := ← fieldOr d.websocketPath string? path
    wsFrameHeaders := ← fieldOr d.wsFrameHeaders bool? headers
    maxConnections := ← fieldOr d.maxConnections word? connections
    shutdownTimeoutSecs := ← fieldOr d.shutdownTimeoutSecs word? timeout }

def Server.members (s : Server) : Members := [
  ("transport", .str s.transport.name), ("host", .str s.host), ("port", .int s.port),
  ("websocketPath", .str s.websocketPath), ("wsFrameHeaders", .bool s.wsFrameHeaders),
  ("maxConnections", .int s.maxConnections), ("shutdownTimeoutSecs", .int s.shutdownTimeoutSecs)]

def Server.toJson (s : Server) : Json := ofMembers s.members

def Rpc.names : List String :=
  ["tieBreak", "handlerTimeoutMs", "requestTimeoutMs", "outboundQueue", "inboundQueue",
    "maxFrameBytes", "maxHeaderBytes"]

def Rpc.ofJson? (v : Json) : Option Rpc := do
  let d : Rpc := {}
  let [tieBreak, handler, request, outbound, inbound, frame, header] ← v.fields? names | none
  some {
    tieBreak := ← fieldOr d.tieBreak Route.TieBreak.ofJson? tieBreak
    handlerTimeoutMs := ← fieldOr d.handlerTimeoutMs (nullable word?) handler
    requestTimeoutMs := ← fieldOr d.requestTimeoutMs (nullable word?) request
    outboundQueue := ← fieldOr d.outboundQueue word? outbound
    inboundQueue := ← fieldOr d.inboundQueue word? inbound
    maxFrameBytes := ← fieldOr d.maxFrameBytes word? frame
    maxHeaderBytes := ← fieldOr d.maxHeaderBytes word? header }

def Rpc.members (s : Rpc) : Members :=
  ("tieBreak", .str s.tieBreak.name)
    :: (s.handlerTimeoutMs.map fun n => ("handlerTimeoutMs", .int n)).toList
  ++ (s.requestTimeoutMs.map fun n => ("requestTimeoutMs", .int n)).toList
  ++ [("outboundQueue", .int s.outboundQueue), ("inboundQueue", .int s.inboundQueue),
    ("maxFrameBytes", .int s.maxFrameBytes), ("maxHeaderBytes", .int s.maxHeaderBytes)]

def Rpc.toJson (s : Rpc) : Json := ofMembers s.members

def Session.ofJson? (v : Json) : Option Session := do
  let d : Session := {}
  let [idle] ← v.fields? ["maxIdleSecs"] | none
  some { maxIdleSecs := ← fieldOr d.maxIdleSecs word? idle }

def Session.members (s : Session) : Members := [("maxIdleSecs", .int s.maxIdleSecs)]

def Session.toJson (s : Session) : Json := ofMembers s.members

/-- The levels of modules, by name. -/
def modules? : Json → Option (List (String × LogLevel))
  | .obj ms => ms.mapM fun (k, v) => (LogLevel.ofJson? v).map (k, ·)
  | _ => none

def Logging.ofJson? (v : Json) : Option Logging := do
  let d : Logging := {}
  let [level, format, modules] ← v.fields? ["level", "format", "modules"] | none
  some {
    level := ← fieldOr d.level LogLevel.ofJson? level
    format := ← fieldOr d.format LogFormat.ofJson? format
    modules := ← fieldOr d.modules modules? modules }

def Logging.members (s : Logging) : Members := [
  ("level", .str s.level.name), ("format", .str s.format.name),
  ("modules", ofMembers (s.modules.map fun m => (m.1, .str m.2.name)))]

def Logging.toJson (s : Logging) : Json := ofMembers s.members

def ofJson? (v : Json) : Option Settings := do
  let [server, rpc, session, logging] ← v.fields? ["server", "rpc", "session", "logging"] | none
  some {
    server := ← fieldOr {} Server.ofJson? server
    rpc := ← fieldOr {} Rpc.ofJson? rpc
    session := ← fieldOr {} Session.ofJson? session
    logging := ← fieldOr {} Logging.ofJson? logging }

def toJson (s : Settings) : Json := ofMembers [
  ("server", s.server.toJson), ("rpc", s.rpc.toJson), ("session", s.session.toJson),
  ("logging", s.logging.toJson)]

/-- As `toJson`, but every member stands where its field does. -/
def written (s : Settings) : Json := .obj [
  ("server", .obj s.server.members), ("rpc", .obj s.rpc.members),
  ("session", .obj s.session.members), ("logging", .obj s.logging.members)]

end Settings

end Parley
