import Parley.Dispatch.Dispatcher

namespace Parley

open Dispatch

inductive Side
  | near
  | far
  deriving DecidableEq, Repr

namespace Side

def other : Side → Side
  | near => far
  | far => near

end Side

/-- A cable joins a connection of the near dispatcher with one of the far dispatcher. -/
structure Cable where
  near : ConnectionId
  far : ConnectionId
  deriving DecidableEq, Repr

def Cable.side (k : Cable) : Side → ConnectionId
  | .near => k.near
  | .far => k.far

abbrev Network.Task := Side × Dispatcher.Task

structure Network where
  near : Dispatcher
  far : Dispatcher
  cables : List Cable := []
  roster : List (Network.Task × Nat) := []

namespace Network

def side (n : Network) : Side → Dispatcher
  | .near => n.near
  | .far => n.far

def put (n : Network) (d : Dispatcher) : Side → Network
  | .near => { n with near := d }
  | .far => { n with far := d }

def modify (n : Network) (s : Side) (f : Dispatcher → Dispatcher) : Network :=
  n.put (f (n.side s)) s

def across? (n : Network) (s : Side) (c : ConnectionId) : Option ConnectionId :=
  (n.cables.find? fun k => k.side s = c).map (Cable.side · s.other)

def join (n : Network) (k : Cable) : Network where
  near := n.near.attach k.near
  far := n.far.attach k.far
  cables := n.cables ++ [k]

/-- What comes through to the far end of a connection. Once its writer is done nothing more will
come, and once its reader is done too it cannot be written to. -/
def conveyed (l other : Link) : Link :=
  let other := if l.written.isEmpty then other else other.receive (l.written.flatMap Frame.encode)
  let other := if l.writerDone then other.farStops else other
  if l.writerDone ∧ l.reader = .done then { other with farOpen := false } else other

def carry (n : Network) (s : Side) (c : ConnectionId) : Network :=
  match n.across? s c, (n.side s).link? c with
  | some c', some l =>
    (n.modify s.other fun d => d.modify c' (conveyed l)).modify s fun d =>
      d.put { l with written := [] }
  | _, _ => n

/-- One step of a task, if there is one to take. -/
def step (n : Network) (t : Task) : Option Network := do
  let d ← (n.side t.1).step t.2
  some ((n.put d t.1).carry t.1 t.2.1)

def acrossReader (n : Network) : Task → List Task
  | (s, c, .writer) | (s, c, .reader) =>
    (n.across? s c).toList.map fun c' => (s.other, c', .reader)
  | _ => []

def crew : Flow.Crew Network Task where
  tasks n :=
    n.near.tasks.map (fun t => (.near, t)) ++ n.far.tasks.map fun t => (.far, t)
  step := step
  cost n t := Dispatcher.crew.cost (n.side t.1) t.2
  alarms n t := Dispatcher.crew.alarms (n.side t.1) t.2
  woken n n' t :=
    (Dispatcher.crew.woken (n.side t.1) (n'.side t.1) t.2).map (fun u => (t.1, u))
      ++ n'.acrossReader t
  rest n :=
    { n with near := Dispatcher.crew.rest n.near, far := Dispatcher.crew.rest n.far }
  rested n :=
    (Dispatcher.crew.rested n.near).map (fun t => (.near, t))
      ++ (Dispatcher.crew.rested n.far).map fun t => (.far, t)

def settle (fuel : Nat) (n : Network) : Network :=
  let (roster, n) := crew.settleFrom fuel n.roster n
  { n with roster }

def openGate (n : Network) (gate : String) : Network :=
  { n with near := n.near.openGate gate, far := n.far.openGate gate }

def advance (n : Network) (ms : Nat) : Network :=
  { n with near := n.near.advance ms, far := n.far.advance ms }

def send (n : Network) (s : Side) (c : ConnectionId) (errand : Errand) : Option (Network × Nat) :=
  ((n.side s).send c errand).map fun (d, number) => (n.put d s, number)

def journal (n : Network) : List String := n.near.hub.journal ++ n.far.hub.journal

def outcomes (n : Network) : List (Task × Except ExchangeError Json) :=
  n.near.outcomes.map (fun o => ((.near, o.1), o.2))
    ++ n.far.outcomes.map fun o => ((.far, o.1), o.2)

def reported (n : Network) : Network :=
  { n with near := n.near.reported, far := n.far.reported }

end Network

end Parley
