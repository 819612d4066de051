namespace Parley.Flow

inductive Commit.State
  | new
  | committing
  | committed
  deriving DecidableEq, Repr, Inhabited

structure Commit (η : Type) where
  state : Commit.State := .new
  hooks : List η := []
  ran : Nat := 0
  deriving Repr, Inhabited

namespace Commit

variable {η : Type}

def add (c : Commit η) (hook : η) : Commit η × Bool :=
  if c.state = .new then ({ c with hooks := c.hooks ++ [hook] }, true) else (c, false)

def start (c : Commit η) : Commit η × Bool :=
  if c.state = .new then ({ c with state := .committing }, true) else (c, false)

def remaining (c : Commit η) : List η := c.hooks.drop c.ran

def finish (c : Commit η) : Commit η := { c with state := .committed }

/-- The hook that was next has been run. -/
def passed (c : Commit η) (failed : Bool) : Commit η :=
  let c := { c with ran := c.ran + 1 }
  if failed || c.remaining.isEmpty then c.finish else c

def proceed (ready fails : η → Bool) : Nat → Commit η → Commit η × List η
  | 0, c => (c, [])
  | n + 1, c =>
    match c.remaining with
    | [] => (c.finish, [])
    | h :: _ =>
      if ready h then
        let c := c.passed (fails h)
        if c.state = .committed then (c, [h])
        else
          let (c, hs) := proceed ready fails n c
          (c, h :: hs)
      else (c, [])

end Commit

end Parley.Flow
