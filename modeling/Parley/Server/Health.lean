import Parley.Json.Record
import Parley.Server.Basic
import Parley.Server.PathPattern
import Parley.Text.Split

namespace Parley.Server

structure Health where
  draining : Bool
  connections : Nat
  maxConnections : Nat
  inflightRequests : Nat
  deriving DecidableEq, Repr

def Health.status (h : Health) : String := if h.draining then "draining" else "ok"

def Health.toJson (h : Health) : Json := .ofMembers [("status", .str h.status),
  ("connections", .ofNat h.connections), ("max_connections", .ofNat h.maxConnections),
  ("inflight_requests", .ofNat h.inflightRequests)]

def health (s : Server) : Health where
  draining := s.draining
  connections := s.attached.length
  maxConnections := s.limit
  inflightRequests := s.dispatcher.hub.inflight.size

inductive Page
  | health (h : Health)
  | empty
  | upgradeNeeded
  | wrongMethod
  | notFound
  deriving DecidableEq, Repr

def Page.status : Page → Nat
  | health _ | empty => 200
  | upgradeNeeded => 400
  | wrongMethod => 405
  | notFound => 404

def healthPath : String := "/health"

def socketPattern (path : String) : Except PathPattern.Fault PathPattern := do
  let p ← PathPattern.read path
  if path = healthPath then throw .taken else return p

def isSchemeChar (c : Char) : Bool := c.isAlphanum || c = '+' || c = '-' || c = '.'

/-- The path of a target, without what follows it. A target may also be a path behind a scheme and
an authority, and then a path that is left out is the root. -/
def pathOf (target : String) : String :=
  let path (cs : List Char) : List Char := cs.takeWhile fun c => c ≠ '?' && c ≠ '#'
  String.ofList <|
    match Text.cut "://".toList target.toList with
    | some (scheme, cs) =>
      if !scheme.isEmpty && scheme.all isSchemeChar then
        match path (cs.dropWhile fun c => c ≠ '/' && c ≠ '?' && c ≠ '#') with
        | [] => ['/']
        | cs => cs
      else path target.toList
    | none => path target.toList

def page (s : Server) (method target : String) : Except PathPattern.Fault Page := do
  let pattern ← socketPattern s.socketPath
  let path := pathOf target
  if path = healthPath then
    if method = "GET" then return .health s.health
    else if method = "HEAD" then return .empty
    else return .wrongMethod
  else if pattern.admits path.toList then
    if method = "GET" then return .upgradeNeeded else return .wrongMethod
  else return .notFound

end Parley.Server
