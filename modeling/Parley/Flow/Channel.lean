namespace Parley.Flow

structure Channel (κ α : Type) where
  capacity : Nat
  queue : List α := []
  taken : List α := []
  line : List κ := []
  shut : Bool := false
  deriving Repr, Inhabited

inductive Channel.Answer
  | accepted
  | waiting
  | refused
  deriving DecidableEq, Repr

namespace Channel

variable {κ α : Type}

def ofCapacity (n : Nat) : Channel κ α := { capacity := max n 1 }

def items (c : Channel κ α) : List α := c.taken.reverse ++ c.queue

def room (c : Channel κ α) : Nat := c.capacity - c.queue.length

def next? (c : Channel κ α) : Option α := c.queue.head?

def take (c : Channel κ α) : Channel κ α :=
  match c.queue with
  | [] => c
  | a :: queue => { c with queue, taken := a :: c.taken }

def close (c : Channel κ α) : Channel κ α := { c with shut := true }

def drop (c : Channel κ α) : Channel κ α := { c.close with queue := [] }

def called (c : Channel κ α) : List κ := if c.shut then c.line else c.line.take c.room

variable [DecidableEq κ]

/-- The place in line of a sender, the first one behind the line if it has none. -/
def place (c : Channel κ α) (who : κ) : Nat := c.line.idxOf who

def leave (c : Channel κ α) (who : κ) : Channel κ α := { c with line := c.line.erase who }

def offer (c : Channel κ α) (who : κ) (a : α) : Channel κ α × Answer :=
  if c.shut then (c.leave who, .refused)
  else if c.place who < c.room then
    ({ c.leave who with queue := c.queue ++ [a] }, .accepted)
  else if who ∈ c.line then (c, .waiting)
  else ({ c with line := c.line ++ [who] }, .waiting)

end Channel

end Parley.Flow

namespace Parley.Flow

structure Outbox (κ α : Type) where
  channel : Channel κ α
  waiting : List (κ × α) := []

namespace Outbox

variable {κ α : Type} [DecidableEq κ]

/-- A sender comes with an item, or tries again. What became of the item, unless it waits. -/
def offer (b : Outbox κ α) (who : κ) (a : α) : Outbox κ α × Option Bool :=
  let (channel, answer) := b.channel.offer who a
  let waiting := b.waiting.filter fun w => w.1 ≠ who
  match answer with
  | .accepted => (⟨channel, waiting⟩, some true)
  | .refused => (⟨channel, waiting⟩, some false)
  | .waiting => (⟨channel, waiting ++ [(who, a)]⟩, none)

def settle (b : Outbox κ α) : Outbox κ α × List (κ × Bool) :=
  b.waiting.foldl (fun (b, done) w =>
    match b.offer w.1 w.2 with
    | (b, some r) => (b, done ++ [(w.1, r)])
    | (b, none) => (b, done)) (b, [])

end Outbox

end Parley.Flow
