import Parley.Flow.Commit
import Parley.Session.Basic
import Parley.Session.Store

namespace Parley.Session

inductive Operation
  | retrieve
  | create
  | save
  | remove
  deriving DecidableEq, Repr

def Operation.name : Operation → String
  | retrieve => "retrieve"
  | create => "create"
  | save => "save"
  | remove => "remove"

structure Manager (χ : Type) where
  store : Store
  shared : List Handle := []
  holds : List (χ × Handle) := []
  failing : List Operation := []
  refusal : Operation → SessionError := fun o => .store (o.name ++ " failed")
  deriving Inhabited

namespace Manager

variable {χ : Type}

def isHeld (m : Manager χ) (a : Handle) : Bool :=
  a ∈ m.store.stored || m.holds.any fun h => h.2 = a

def live (m : Manager χ) : Nat := (m.shared.filter m.isHeld).length

def register (m : Manager χ) (a : Handle) : Manager χ :=
  { m with shared := m.shared.filter (fun b => b.id ≠ a.id) ++ [a] }

def share (m : Manager χ) (candidate : Handle) : Manager χ × Handle :=
  match m.shared.find? fun a => a.id = candidate.id with
  | some a =>
    if m.isHeld a && !m.store.isExpired a then (m, a) else (m.register candidate, candidate)
  | none => (m.register candidate, candidate)

def prune (m : Manager χ) : Manager χ := { m with shared := m.shared.filter m.isHeld }

def retrieveFirst (m : Manager χ) (now : Nat) : List SessionId → Manager χ × Option Handle
  | [] => (m, none)
  | id :: ids =>
    match m.store.retrieve id now with
    | (store, some a) => ({ m with store }, some a)
    | (store, none) => retrieveFirst { m with store } now ids

/-- The session for a call, from the ids that it may have. A new one gets the first of them, or
`spare` where there is none. -/
def resolve (m : Manager χ) (ids : List SessionId) (spare : SessionId) (now : Nat) :
    Manager χ × Except SessionError Handle :=
  if .retrieve ∈ m.failing ∧ !ids.isEmpty then (m, .error (m.refusal .retrieve))
  else
    match m.retrieveFirst now ids with
    | (m, some a) =>
      let (m, a) := m.share a
      (m, .ok a)
    | (m, none) =>
      let m := m.prune
      if .create ∈ m.failing then (m, .error (m.refusal .create))
      else
        let (store, a) := m.store.create (ids.headD spare) now
        let (m, a) := { m with store }.share a
        (m, .ok a)

def hold (m : Manager χ) (who : χ) (a : Handle) : Manager χ :=
  { m with holds := m.holds ++ [(who, a)] }

/-- A holder lets go of all that it holds. -/
def release [DecidableEq χ] (m : Manager χ) (who : χ) : Manager χ :=
  { m with holds := m.holds.filter fun h => h.1 ≠ who }

def isActive (s : Session) : Bool := s.isStarted && !s.expired

def save (m : Manager χ) (a : Handle) (now : Nat) : Manager χ × Except SessionError Unit :=
  if .save ∈ m.failing then (m, .error (m.refusal .save))
  else
    let (store, answer) := m.store.save a now
    ({ m with store }, answer)

def saveIfActive (m : Manager χ) (a : Handle) (now : Nat) :
    Manager χ × Except SessionError Unit :=
  if (m.store.get? a).any isActive then m.save a now else (m, .ok ())

def saveAll (m : Manager χ) (now : Nat) : List Handle → Manager χ × Except SessionError Unit
  | [] => (m, .ok ())
  | a :: as =>
    match m.saveIfActive a now with
    | (m, .ok ()) => saveAll m now as
    | stopped => stopped

def edit (m : Manager χ) (a : Handle) (f : Session → Session) : Manager χ :=
  { m with store := m.store.modify a f }

end Manager

end Parley.Session

namespace Parley.Session

inductive Holder (κ : Type)
  | user (name : κ)
  | call (name : κ)
  deriving DecidableEq, Repr

structure Floor (κ : Type) where
  manager : Manager (Holder κ)
  commits : κ → Flow.Commit Handle := fun _ => {}

namespace Floor

variable {κ : Type} [DecidableEq κ]

def setCommit (s : Floor κ) (call : κ) (c : Flow.Commit Handle) : Floor κ :=
  { s with commits := fun k => if k = call then c else s.commits k }

def held? (s : Floor κ) (user : κ) : Option Handle := s.manager.holds.lookup (.user user)

/-- Resolve the session of a call. The user gets it in place of what he had, and the call is to save
it unless it has begun to commit. -/
def resolve (s : Floor κ) (call user : κ) (ids : List SessionId) (spare : SessionId) (now : Nat) :
    Floor κ × Except SessionError Handle :=
  match s.manager.resolve ids spare now with
  | (manager, .error e) => ({ s with manager }, .error e)
  | (manager, .ok a) =>
    let (commit, scheduled) := (s.commits call).add a
    let manager := (manager.release (.user user)).hold (.user user) a
    let manager := if scheduled then manager.hold (.call call) a else manager
    (setCommit { s with manager } call commit, .ok a)

def act (s : Floor κ) (user : κ) (a : Act) : Option (Floor κ × Json) := do
  let h ← s.held? user
  let x ← s.manager.store.get? h
  some ({ s with manager := s.manager.edit h a.run }, a.result x)

def commit (s : Floor κ) (call : κ) (now : Nat) : Floor κ × Except SessionError Unit :=
  match (s.commits call).start with
  | (_, false) => (s, .ok ())
  | (c, true) =>
    let (manager, r) := s.manager.saveAll now c.hooks
    (setCommit { s with manager := manager.release (.call call) } call c.finish, r)

def drop (s : Floor κ) (call : κ) : Floor κ :=
  setCommit { s with manager := s.manager.release (.call call) } call {}

def letGo (s : Floor κ) (user : κ) : Floor κ :=
  { s with manager := s.manager.release (.user user) }

end Floor

end Parley.Session
