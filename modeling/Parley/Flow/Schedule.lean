namespace Parley.Flow

structure Crew (σ τ : Type) where
  tasks : σ → List τ
  step : σ → τ → Option σ
  cost : σ → τ → Nat := fun _ _ => 1
  woken : σ → σ → τ → List τ := fun _ s _ => tasks s
  alarms : σ → τ → List (Option Nat) := fun _ _ => []
  rest : σ → σ := id
  rested : σ → List τ := fun _ => []

structure Schedule (τ : Type) where
  line : List τ := []
  aside : List τ := []
  turns : Nat := 0
  roster : List (τ × Nat) := []

namespace Schedule

variable {σ τ : Type} [DecidableEq τ]

def turnLength : Nat := 128

def round : Nat := 61

def holds (sch : Schedule τ) (t : τ) : Bool := t ∈ sch.line || t ∈ sch.aside

def join (sch : Schedule τ) (ts : List τ) : Schedule τ :=
  ts.foldl (fun sch t => if sch.holds t then sch else { sch with line := sch.line ++ [t] }) sch

def next? (sch : Schedule τ) : Option (τ × Schedule τ) :=
  match sch.line with
  | [] => none
  | t :: line =>
    if sch.turns < round then some (t, { sch with line, turns := sch.turns + 1 }) else none

def afterRest (sch : Schedule τ) : Schedule τ :=
  { sch with line := sch.line ++ sch.aside, aside := [], turns := 0 }

def enlist (sch : Schedule τ) (t : τ) (alarms : Nat) : Schedule τ :=
  let kept := sch.roster.filter fun e => e.1 ≠ t || (e.2 ≠ 0 && e.2 < alarms)
  let set := (List.range alarms).filter fun i => (t, i) ∉ kept
  { sch with roster := kept ++ set.map (t, ·) }

end Schedule

namespace Crew

variable {σ τ : Type} [DecidableEq τ] (k : Crew σ τ)

def isReady (s : σ) (t : τ) : Bool := (k.step s t).isSome

def comers (sch : Schedule τ) (s : σ) (ts : List τ) : List τ :=
  ts.filter fun t => !sch.holds t && k.isReady s t

/-- The tasks without a place that can go on. Those that waited for a moment come in the order of
the moments, and where these are the same in the order in which the alarms were set. -/
def arising (sch : Schedule τ) (s : σ) : List τ :=
  let ready := k.comers sch s (k.tasks s)
  if ready.isEmpty then []
  else
    let alarms := (sch.roster.filter fun e => e.1 ∈ ready).filterMap fun e =>
      ((k.alarms s e.1)[e.2]?.join).map (·, e.1)
    let timed := (alarms.mergeSort fun a b => a.1 ≤ b.1).map (·.2)
    ready.filter (· ∉ timed) ++ timed

/-- A task goes on as long as it can and its turn lasts. Once the turn is used up there is no step
more, not even one that costs nothing. -/
def turn (t : τ) : Nat → Nat → Schedule τ × σ → Schedule τ × σ
  | 0, _, s => s
  | fuel + 1, left, (sch, s) =>
    match k.step s t with
    | none => (sch, s)
    | some s' =>
      let cost := k.cost s t
      if 0 < left ∧ cost ≤ left then
        let woken := k.comers sch s' ((k.woken s s' t).filter (· ≠ t))
        turn t fuel (left - cost) ((sch.join woken).enlist t (k.alarms s' t).length, s')
      else ({ sch with aside := t :: sch.aside }, s)

def run : Nat → Schedule τ × σ → Schedule τ × σ
  | 0, s => s
  | fuel + 1, (sch, s) =>
    match sch.next? with
    | some (t, sch) => run fuel (k.turn t fuel Schedule.turnLength (sch, s))
    | none =>
      let s := k.rest s
      let sch := sch.afterRest
      let sch := sch.join (k.comers sch s (k.rested s))
      let sch := if sch.line.isEmpty then sch.join (k.arising sch s) else sch
      if sch.line.isEmpty then (sch, s) else run fuel (sch, s)

def settleFrom (fuel : Nat) (roster : List (τ × Nat)) (s : σ) : List (τ × Nat) × σ :=
  let (sch, s) := k.run fuel ({ roster }, s)
  (sch.roster, s)

def settle (fuel : Nat) (s : σ) : σ := (k.settleFrom fuel [] s).2

end Crew

end Parley.Flow
