import Parley.Console.Flow
import Parley.Session.Basic
import Parley.Session.Manager

namespace Parley

def Session.toJson (s : Session) : Json := .ofMembers [("id", .str s.id.text),
  ("attributes", .obj s.attributes), ("started", .bool s.isStarted), ("expired", .bool s.expired)]

open Session (Manager Handle)

namespace Console

namespace Session

def act? (c : Json) : Option Parley.Session.Act := do
  match ← c.stringAt? "do" with
  | "set" => do some (.set (← c.stringAt? "key") (← c.get? "value"))
  | "get" => do some (.get (← c.stringAt? "key"))
  | "remove" => do some (.remove (← c.stringAt? "key"))
  | "start" => some .start
  | "invalidate" => some .invalidate
  | "show" => some .look
  | _ => none

def verb (s : Session) (c : Json) : Option (Session × Json) :=
  (act? c).map fun a => (a.run s, a.result s)

def shown (s : Session) (r : Json) : Json := .ofMembers [("r", r), ("state", s.toJson)]

def transcript (v : Json) : Option Json := do
  let fresh : Session := { id := ⟨← v.stringAt? "id"⟩ }
  let (_, after) ← run fresh
    (fun s c => (verb s c).map fun (s, r) => (s, shown s r)) (← v.itemsAt? "steps")
  some (.obj [("steps", .arr (shown fresh (.bool true) :: after))])

end Session

/-- The limit on idleness, in the unit of moments. -/
def maxIdle (v : Json) : Nat := (v.natAt? "max_idle_ms").getD 1800000 * 1000000

def operation? (v : Json) : Option Session.Operation := do
  match ← v.string? with
  | "retrieve" => some .retrieve
  | "create" => some .create
  | "save" => some .save
  | "remove" => some .remove
  | _ => none

def manager (χ : Type) (v : Json) : Manager χ :=
  { store := { maxIdle := maxIdle v }
    failing := ((v.itemsAt? "fail").getD []).filterMap operation? }

namespace Store

open Commit (unitResult)

structure State where
  store : Session.Store
  held : Names Handle := []
  now : Nat := 0

def sessionAt (s : Session.Store) (a : Option Handle) : Json :=
  .ofOption ((a.bind s.get?).map Session.toJson)

def verb (s : State) (c : Json) (name : String) : Option (State × Json) := do
  let held := s.held.get? name
  let id? := (c.stringAt? "id").map SessionId.mk
  match ← c.stringAt? "do" with
  | "create" => do
    let (store, a) := s.store.create (← id?) s.now
    some ({ s with store, held := (name, a) :: s.held }, sessionAt store (some a))
  | "retrieve" => do
    let (store, a) := s.store.retrieve (← id?) s.now
    some ({ s with store, held := (a.map (name, ·)).toList ++ s.held }, sessionAt store a)
  | "save" => do
    let (store, r) := s.store.save (← held) s.now
    some ({ s with store }, unitResult r)
  | "delete" => do some ({ s with store := s.store.remove (← id?) }, .str "ok")
  | "evict" =>
    let (store, n) := s.store.evict s.now
    some ({ s with store }, .ofNat n)
  | "same" => do some (s, .bool (held = s.held.get? (← c.stringAt? "other")))
  | _ => do
    let a ← held
    let (x, r) ← Session.verb (← s.store.get? a) c
    some ({ s with store := s.store.modify a fun _ => x }, r)

def step (s : State) (c : Json) : Option (State × Json) := do
  let name := (c.stringAt? "as").getD "s"
  let (s, r) ← verb { s with now := s.now + 1 } c name
  some (s, .ofMembers [("r", r), ("state", sessionAt s.store (s.held.get? name)),
    ("len", .ofNat s.store.size), ("empty", .bool (s.store.size = 0))])

def transcript (v : Json) : Option Json :=
  Console.transcript { store := { maxIdle := maxIdle v } } step v

end Store

namespace Manager

open Parley.Session (Floor Holder)
open Commit (storeFault unitResult stateName)

structure State where
  floor : Floor String
  ids : Json
  calls : Names String := []
  now : Nat := 0

def State.setManager (s : State) (manager : Manager (Holder String)) : State :=
  { s with floor := { s.floor with manager } }

def State.idsOf (s : State) (connection : String) : List SessionId :=
  match s.ids.stringsAt? connection with
  | some ids => ids.map SessionId.mk
  | none => [⟨connection⟩]

/-- An id for a session that has no other. -/
def spare : SessionId := ⟨"<fresh>"⟩

/-- Resolve the session of a call, to be held under a name. -/
def State.resolve (s : State) (name ex connection : String) : State × Json :=
  match s.floor.resolve ex name (s.idsOf connection) spare s.now with
  | (floor, .error e) => ({ s with floor }, storeFault e)
  | (floor, .ok a) => ({ s with floor }, Store.sessionAt floor.manager.store (some a))

def State.commit (s : State) (ex : String) : State × Json :=
  let (floor, r) := s.floor.commit ex s.now
  ({ s with floor }, unitResult r)

def State.put (s : State) (id : SessionId) : State × Json :=
  let m := s.floor.manager
  if .create ∈ m.failing then (s, storeFault (m.refusal .create))
  else
    let (store, a) := m.store.create id s.now
    let m := { m with store := store.modify a (·.set "origin" (.str "store")) }
    let (manager, r) := m.saveIfActive a s.now
    (s.setManager manager, unitResult r)

def verb (s : State) (c : Json) (ex : String) : Option (State × Json) := do
  let name := (c.stringAt? "as").getD "s"
  let held := s.floor.held? name
  let m := s.floor.manager
  match ← c.stringAt? "do" with
  | "exchange" => do
    let connection ← c.stringAt? "conn"
    some ({ s with floor := s.floor.drop ex, calls := (ex, connection) :: s.calls.forget ex },
      .ofMembers [("conn", .str connection), ("id", .ofOption ((idAt? c "id").map RequestId.toJson)),
        ("method", .str ((c.stringAt? "method").getD "m"))])
  | "resolve" => do some (s.resolve name ex (← s.calls.get? ex))
  | "commit" => do
    let _ ← s.calls.get? ex
    some (s.commit ex)
  | "drop_exchange" =>
    some ({ s with floor := s.floor.drop ex, calls := s.calls.forget ex }, .bool true)
  | "drop_session" => some ({ s with floor := s.floor.letGo name }, .bool true)
  | "save_if_active" => do
    let (manager, r) := m.saveIfActive (← held) s.now
    some (s.setManager manager, unitResult r)
  | "store_delete" => do
    if .remove ∈ m.failing then some (s, storeFault (m.refusal .remove))
    else
      let store := m.store.remove ⟨← c.stringAt? "id"⟩
      some (s.setManager { m with store }, .str "ok")
  | "store_put" => do some (s.put ⟨← c.stringAt? "id"⟩)
  | "same" => do some (s, .bool (held = s.floor.held? (← c.stringAt? "other")))
  | _ => do
    let (floor, r) ← s.floor.act name (← Session.act? c)
    some ({ s with floor }, r)

def step (s : State) (c : Json) : Option (State × Json) := do
  let ex := (c.stringAt? "ex").getD "x"
  let (s, r) ← verb { s with now := s.now + 1 } c ex
  let state := (s.calls.get? ex).map fun _ => .str (stateName (s.floor.commits ex).state)
  let m := s.floor.manager
  some (s, .ofMembers [("r", r), ("stored", .ofNat m.store.size), ("live", .ofNat m.live),
    ("commit", .ofOption state)])

def transcript (v : Json) : Option Json :=
  Console.transcript
    { floor := { manager := manager (Holder String) v }, ids := (v.get? "ids").getD (.obj []) } step v

end Manager

end Console

end Parley
