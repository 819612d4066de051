import Parley.Identifier
import Parley.Message.Basic

namespace Parley.Flow

structure Token (κ : Type) where
  name : κ
  ancestors : List κ := []
  deriving DecidableEq, Repr, Inhabited

namespace Token

variable {κ : Type}

/-- A token that is cancelled with `parent`. -/
def child (parent : Token κ) (name : κ) : Token κ := ⟨name, parent.name :: parent.ancestors⟩

variable [DecidableEq κ]

def isCancelled (t : Token κ) (fired : List κ) : Bool :=
  t.name ∈ fired || t.ancestors.any (· ∈ fired)

end Token

end Parley.Flow

namespace Parley

open Parley.Flow (Token)

/-- What the one who executes a request holds. The serial number tells it from all other requests
of the connection, also from those that had the same id. -/
structure Ticket (κ : Type) where
  connection : ConnectionId
  id : RequestId
  serial : Nat
  token : Token κ
  deriving DecidableEq, Repr

/-- The requests in flight, the connections of all tickets issued so far, the tickets that have
been claimed, and the tokens that have been fired. -/
structure InFlight (κ : Type) where
  entries : List (Ticket κ) := []
  issued : List ConnectionId := []
  claimed : List (ConnectionId × Nat) := []
  fired : List κ := []
  deriving Repr, Inhabited

namespace InFlight

variable {κ : Type}

def lookup (r : InFlight κ) (c : ConnectionId) (id : RequestId) : Option (Ticket κ) :=
  r.entries.find? fun t => t.connection = c ∧ t.id = id

def contains (r : InFlight κ) (c : ConnectionId) (id : RequestId) : Bool := (r.lookup c id).isSome

def ofConnection (r : InFlight κ) (c : ConnectionId) : List (Ticket κ) :=
  r.entries.filter fun t => t.connection = c

def size (r : InFlight κ) : Nat := r.entries.length

def sizeOf (r : InFlight κ) (c : ConnectionId) : Nat := (r.ofConnection c).length

def begin? (r : InFlight κ) (c : ConnectionId) (id : RequestId) (token : Token κ) :
    Option (InFlight κ × Ticket κ) :=
  if r.contains c id then none
  else
    let t : Ticket κ := ⟨c, id, r.issued.count c, token⟩
    some ({ r with entries := r.entries ++ [t], issued := r.issued ++ [c] }, t)

def erase (r : InFlight κ) (c : ConnectionId) (id : RequestId) : InFlight κ :=
  { r with entries := r.entries.filter fun t => !(t.connection = c ∧ t.id = id) }

def remove (r : InFlight κ) (c : ConnectionId) (id : RequestId) : InFlight κ × Bool :=
  (r.erase c id, r.contains c id)

def isClaimed (r : InFlight κ) (t : Ticket κ) : Bool := (t.connection, t.serial) ∈ r.claimed

def claim (r : InFlight κ) (t : Ticket κ) : InFlight κ × Bool :=
  if r.isClaimed t then (r, false)
  else ({ r with claimed := r.claimed ++ [(t.connection, t.serial)] }, true)

def fire (r : InFlight κ) (name : κ) : InFlight κ := { r with fired := r.fired ++ [name] }

def cancel (r : InFlight κ) (c : ConnectionId) (id : RequestId) : InFlight κ × Bool :=
  match r.lookup c id with
  | none => (r, false)
  | some t =>
    match (r.erase c id).claim t with
    | (s, true) => (s.fire t.token.name, true)
    | (s, false) => (s, false)

def release (r : InFlight κ) (t : Ticket κ) : InFlight κ × Bool :=
  match r.lookup t.connection t.id with
  | some u => if u.serial = t.serial then (r.erase t.connection t.id, true) else (r, false)
  | none => (r, false)

def withdraw (r : InFlight κ) (c : ConnectionId) : InFlight κ × List (Ticket κ) :=
  ({ r with entries := r.entries.filter fun t => t.connection ≠ c }, r.ofConnection c)

def seize (r : InFlight κ) (t : Ticket κ) : InFlight κ :=
  { r with claimed := r.claimed ++ [(t.connection, t.serial)] }

def cancelConnection (r : InFlight κ) (c : ConnectionId) : InFlight κ × Nat :=
  let (r, ts) := r.withdraw c
  (ts.foldl (fun r t => (r.seize t).fire t.token.name) r, ts.length)

variable [DecidableEq κ]

def isCancelled (r : InFlight κ) (t : Token κ) : Bool := t.isCancelled r.fired

end InFlight

end Parley
