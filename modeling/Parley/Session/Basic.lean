import Parley.Identifier
import Parley.Json.Basic

namespace Parley

inductive SessionError
  | store (text : String)
  | expired (id : String)
  deriving DecidableEq, Repr, Inhabited

def SessionError.message : SessionError → String
  | store text => "session store failure: " ++ text
  | expired id => "session " ++ id ++ " has expired"

end Parley

namespace Parley

structure Session where
  id : SessionId
  attributes : Json.Members := []
  started : Bool := false
  expired : Bool := false
  lastAccessed : Nat := 0
  deriving Repr, Inhabited, DecidableEq

namespace Session

def attribute? (s : Session) (name : String) : Option Json := s.attributes.lookup name

def set (s : Session) (name : String) (v : Json) : Session :=
  { s with attributes := Json.insert name v s.attributes }

def remove (s : Session) (name : String) : Session :=
  { s with attributes := Json.erase name s.attributes }

def start (s : Session) : Session := { s with started := true }

def isStarted (s : Session) : Bool := s.started || !s.attributes.isEmpty

def invalidate (s : Session) : Session := { s with expired := true }

def touch (s : Session) (now : Nat) : Session := { s with lastAccessed := now }

/-- Nobody has asked for the session for longer than `maxIdle`. -/
def isIdle (s : Session) (maxIdle now : Nat) : Bool := maxIdle < now - s.lastAccessed

end Session

end Parley

namespace Parley.Session

inductive Act
  | set (name : String) (v : Json)
  | get (name : String)
  | remove (name : String)
  | start
  | invalidate
  | look
  deriving DecidableEq, Repr

namespace Act

/-- What was there before is what a change returns. -/
def result (s : Session) : Act → Json
  | set name _ | remove name => .ofOption (s.attribute? name)
  | get name => .obj [("value", .ofOption (s.attribute? name))]
  | _ => .null

def run (s : Session) : Act → Session
  | set name v => s.set name v
  | remove name => s.remove name
  | start => s.start
  | invalidate => s.invalidate
  | get _ | look => s

def results (s : Session) : List Act → List Json
  | [] => []
  | a :: as => a.result s :: results (a.run s) as

def runAll (acts : List Act) (s : Session) : Session := acts.foldl run s

end Act

end Parley.Session
