import Parley.Session.Basic

namespace Parley.Session

structure Handle where
  id : SessionId
  serial : Nat
  deriving DecidableEq, Repr, Inhabited

structure Store where
  maxIdle : Nat
  sessions : List (Handle × Session) := []
  stored : List Handle := []
  deriving Repr, Inhabited

namespace Store

def get? (s : Store) (a : Handle) : Option Session := s.sessions.lookup a

def modify (s : Store) (a : Handle) (f : Session → Session) : Store :=
  { s with sessions := s.sessions.map fun e => if e.1 = a then (a, f e.2) else e }

def find? (s : Store) (id : SessionId) : Option Handle := s.stored.find? fun a => a.id = id

def size (s : Store) : Nat := s.stored.length

def create (s : Store) (id : SessionId) (now : Nat) : Store × Handle :=
  let a : Handle := ⟨id, (s.sessions.filter fun e => e.1.id = id).length⟩
  ({ s with sessions := s.sessions ++ [(a, { id, lastAccessed := now })] }, a)

def discard (s : Store) (id : SessionId) : Store :=
  { s with stored := s.stored.filter fun a => a.id ≠ id }

def isFresh (s : Store) (now : Nat) (a : Handle) : Bool :=
  match s.get? a with
  | some x => !x.expired && !x.isIdle s.maxIdle now
  | none => false

/-- The stored session of an id. One that may not be used any more is expired and discarded. -/
def retrieve (s : Store) (id : SessionId) (now : Nat) : Store × Option Handle :=
  match s.find? id with
  | none => (s, none)
  | some a =>
    if s.isFresh now a then (s.modify a (·.touch now), some a)
    else ((s.modify a Session.invalidate).discard id, none)

def isExpired (s : Store) (a : Handle) : Bool := ((s.get? a).map (·.expired)).getD true

def save (s : Store) (a : Handle) (now : Nat) : Store × Except SessionError Unit :=
  if s.isExpired a then (s, .error (.expired a.id.text))
  else
    let t := s.modify a (·.touch now)
    ({ t.discard a.id with stored := (t.discard a.id).stored ++ [a] }, .ok ())

def remove (s : Store) (id : SessionId) : Store :=
  match s.find? id with
  | none => s
  | some a => (s.modify a Session.invalidate).discard id

/-- Discard and expire all sessions that may not be used any more, and count them. -/
def evict (s : Store) (now : Nat) : Store × Nat :=
  let stale := s.stored.filter fun a => !s.isFresh now a
  let t := stale.foldl (fun t a => t.modify a Session.invalidate) s
  ({ t with stored := s.stored.filter fun a => s.isFresh now a }, stale.length)

end Store

end Parley.Session
