import Parley.Dispatch.Link
import Parley.Flow.Schedule

namespace Parley

open Dispatch

structure Dispatcher where
  service : Service
  hub : Hub
  links : List Link := []

namespace Dispatcher

abbrev Task := ConnectionId × Actor

def serving (service : Service) (sessions : Session.Manager CallName) : Dispatcher :=
  { service, hub := { sessions } }

def ofService (service : Service) (maxIdle : Nat) : Dispatcher :=
  serving service { store := { maxIdle } }

def link? (d : Dispatcher) (c : ConnectionId) : Option Link := d.links.find? fun l => l.id = c

def put (d : Dispatcher) (l : Link) : Dispatcher :=
  { d with links := d.links.map fun m => if m.id = l.id then l else m }

def modify (d : Dispatcher) (c : ConnectionId) (f : Link → Link) : Dispatcher :=
  { d with links := d.links.map fun l => if l.id = c then f l else l }

def attach (d : Dispatcher) (c : ConnectionId) : Dispatcher :=
  { d with hub := d.hub.log .attached, links := d.links ++ [.attach d.service c] }

def close (d : Dispatcher) (c : ConnectionId) : Dispatcher :=
  { d with hub := d.hub.fire c .connection }

def isClosed (d : Dispatcher) (c : ConnectionId) : Bool := (d.link? c).any Link.isClosed

def openGate (d : Dispatcher) (gate : String) : Dispatcher :=
  { d with hub := { d.hub with gates := gate :: d.hub.gates } }

def advance (d : Dispatcher) (ms : Nat) : Dispatcher :=
  { d with hub := { d.hub with now := d.hub.now + ms } }

def send (d : Dispatcher) (c : ConnectionId) (errand : Errand) : Option (Dispatcher × Nat) :=
  (d.link? c).map fun l =>
    let (l, n) := l.send errand
    (d.put l, n)

/-- One step of a task, if there is one to take. -/
def step (d : Dispatcher) (t : Task) : Option Dispatcher := do
  let (hub, l) ← (← d.link? t.1).step d.service d.hub t.2
  some { d.put l with hub }

def tasks (d : Dispatcher) : List Task := d.links.flatMap fun l => l.actors.map (l.id, ·)

def crew : Flow.Crew Dispatcher Task where
  tasks := tasks
  step := step
  cost d t := ((d.link? t.1).map fun l => l.cost t.2).getD 0
  alarms d t := ((d.link? t.1).map fun l => l.alarms d.hub t.2).getD []
  woken d d' t :=
    match d.link? t.1, d'.link? t.1 with
    | some l, some l' => (l.woken d.hub d'.hub l' t.2).map (t.1, ·)
    | _, _ => []
  rest d := { d with links := d.links.map Link.refill }
  rested d := d.links.map fun l => (l.id, .reader)

def settle (fuel : Nat) (d : Dispatcher) : Dispatcher := crew.settle fuel d

/-- The outcomes of errands of our own, with the connections and numbers that they are known by. -/
def outcomes (d : Dispatcher) : List (Task × Except ExchangeError Json) :=
  d.links.flatMap fun l => l.desk.outcomes.map fun o => ((l.id, o.1), o.2)

def reported (d : Dispatcher) : Dispatcher :=
  { d with
    hub := { d.hub with journal := [] }
    links := d.links.map fun l => { l with desk := { l.desk with outcomes := [] } } }

end Dispatcher

end Parley
