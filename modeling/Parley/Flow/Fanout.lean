import Parley.Flow.Channel
import Parley.Flow.Schedule

namespace Parley.Flow

structure Subscriber (α : Type) where
  id : Nat
  accepts : α → Bool
  queue : Channel Nat α
  registered : Bool := true

structure Publication (α : Type) where
  id : Nat
  item : α
  audience : List Nat
  ahead : List Nat
  delivered : Nat := 0
  gone : List Nat := []

structure Fanout (α : Type) where
  subscribers : List (Subscriber α) := []
  publications : List (Publication α) := []
  published : Nat := 0
  deriving Inhabited

namespace Fanout

variable {α : Type}

inductive Received (α : Type)
  | item (a : α)
  | empty
  | closed
  deriving Repr, DecidableEq

def subscribe (f : Fanout α) (capacity : Nat) (accepts : α → Bool) : Fanout α × Nat :=
  let id := f.subscribers.length
  ({ f with subscribers := f.subscribers ++ [⟨id, accepts, .ofCapacity capacity, true⟩] }, id)

def subscriber? (f : Fanout α) (id : Nat) : Option (Subscriber α) := f.subscribers[id]?

def update (f : Fanout α) (id : Nat) (g : Subscriber α → Subscriber α) : Fanout α :=
  { f with subscribers := f.subscribers.modify id g }

def registered (f : Fanout α) : List (Subscriber α) := f.subscribers.filter (·.registered)

def close (f : Fanout α) : Fanout α :=
  { f with subscribers := f.subscribers.map fun s => { s with registered := false } }

def unsubscribe (f : Fanout α) (id : Nat) : Fanout α :=
  f.update id fun s => { s with queue := s.queue.drop }

def publish (f : Fanout α) (item : α) : Fanout α × Nat :=
  let audience := f.registered.map (·.id)
  ({ f with
      publications := f.publications ++ [⟨f.published, item, audience, audience, 0, []⟩]
      published := f.published + 1 }, f.published)

def publication? (f : Fanout α) (id : Nat) : Option (Publication α) :=
  f.publications.find? fun p => p.id = id

def abandon (f : Fanout α) (id : Nat) : Fanout α :=
  { f with
    publications := f.publications.filter fun p => p.id ≠ id
    subscribers := f.subscribers.map fun s => { s with queue := s.queue.leave id } }

def replace (f : Fanout α) (p : Publication α) : Fanout α :=
  { f with publications := f.publications.map fun q => if q.id = p.id then p else q }

/-- What one step of a publication came to. To get in line is a step. -/
inductive Progress
  | moved
  | waiting
  | finished (delivered : Nat)
  deriving DecidableEq, Repr

def finish (f : Fanout α) (p : Publication α) : Fanout α :=
  { f with
    publications := f.publications.filter fun q => q.id ≠ p.id
    subscribers := f.subscribers.map fun s =>
      if s.id ∈ p.gone then { s with registered := false } else s }

def advance (f : Fanout α) (p : Publication α) : Fanout α × Progress :=
  match p.ahead with
  | [] => (f.finish p, .finished p.delivered)
  | id :: ahead =>
    match f.subscriber? id with
    | none => (f.replace { p with ahead }, .moved)
    | some s =>
      if s.accepts p.item then
        let (queue, answer) := s.queue.offer p.id p.item
        let g := f.update id fun s => { s with queue }
        match answer with
        | .accepted => (g.replace { p with ahead, delivered := p.delivered + 1 }, .moved)
        | .refused => (g.replace { p with ahead, gone := p.gone ++ [id] }, .moved)
        | .waiting => (g, if p.id ∈ s.queue.line then .waiting else .moved)
      else (f.replace { p with ahead }, .moved)

def step? (f : Fanout α) (id : Nat) : Option (Fanout α × Progress) := do
  let p ← f.publication? id
  match f.advance p with
  | (_, .waiting) => none
  | moved => some moved

def isDelivering (f : Fanout α) (id : Nat) : Bool :=
  (f.publication? id).any fun p =>
    (p.ahead.head?.bind f.subscriber?).any fun s => s.accepts p.item

/-- The publications: those that wait, in the order of the lines that they stand in, and then
those that stand in no line. -/
def publishing (f : Fanout α) : List Nat :=
  let lines := f.subscribers.flatMap fun s => s.queue.line
  lines ++ (f.publications.map (·.id)).filter fun id => id ∉ lines

def crew : Crew (Fanout α × List (Nat × Nat)) Nat where
  tasks s := s.1.publishing
  step s id := (s.1.step? id).map fun
    | (f, .finished n) => (f, s.2 ++ [(id, n)])
    | (f, _) => (f, s.2)
  cost s id := if s.1.isDelivering id then 1 else 0

def settle (fuel : Nat) (f : Fanout α) : Fanout α × List (Nat × Nat) := crew.settle fuel (f, [])

/-- A queue that is empty ends once nobody can put anything into it. -/
def receive (f : Fanout α) (id : Nat) : Fanout α × Received α :=
  match f.subscriber? id with
  | none => (f, .closed)
  | some s =>
    match s.queue.next? with
    | some a => (f.update id fun s => { s with queue := s.queue.take }, .item a)
    | none =>
      if s.registered || f.publications.any fun p => id ∈ p.audience then (f, .empty)
      else (f, .closed)

end Fanout

end Parley.Flow
