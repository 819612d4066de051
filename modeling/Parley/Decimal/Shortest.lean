import Parley.Decimal.Natural

namespace Parley.Decimal

structure Binary64 where
  bits : UInt64
  deriving DecidableEq, Repr, Inhabited

namespace Binary64

def ofFloat (x : Float) : Binary64 := ⟨x.toBits⟩
def toFloat (x : Binary64) : Float := Float.ofBits x.bits

def isNegative (x : Binary64) : Bool := span 63 ≤ x.bits.toNat
def exponentField (x : Binary64) : Nat := x.bits.toNat / span 52 % span 11
def fractionField (x : Binary64) : Nat := x.bits.toNat % span 52

def significand (x : Binary64) : Nat :=
  if x.exponentField = 0 then x.fractionField else span 52 + x.fractionField

def scale (x : Binary64) : Int := (max 1 x.exponentField : Int) - 1075

def narrowBelow (x : Binary64) : Bool := x.fractionField = 0 && 1 < x.exponentField

def neg (x : Binary64) : Binary64 := ofFloat (-x.toFloat)

def powerOfTen (n : Nat) : Float := Float.ofScientific 1 false n

/-- `f / 10^n`. A power beyond the range of the format is divided out in steps of `10^308`. -/
def shrink (f : Float) (n : Nat) : Float :=
  if n ≤ 308 then f / powerOfTen n
  else if f == 0 then f
  else shrink (f / powerOfTen 308) (n - 308)
termination_by n

def ofScaled? (s : UInt64) : Int → Option Binary64
  | .ofNat n =>
    let f := s.toFloat
    if f == 0 then some (ofFloat f)
    else if 308 < n then none
    else
      let g := f * powerOfTen n
      if g.isInf then none else some (ofFloat g)
  | .negSucc n => some (ofFloat (shrink s.toFloat (n + 1)))

end Binary64

end Parley.Decimal

namespace Parley.Decimal

structure Scaled where
  digits : Nat
  exponent : Int
  deriving DecidableEq, Repr, Inhabited

/-- A positive real between two reals, as integers over one common denominator. -/
structure Interval where
  low : Nat
  value : Nat
  high : Nat
  denominator : Nat
  closed : Bool
  deriving Repr

def Binary64.interval (x : Binary64) : Interval :=
  let up := Nat.pow 2 (x.scale - 2).toNat
  let m := 4 * x.significand
  { low := (m - if x.narrowBelow then 1 else 2) * up
    value := m * up
    high := (m + 2) * up
    denominator := Nat.pow 2 (2 - x.scale).toNat
    closed := x.significand % 2 = 0 }

namespace Interval

def contains (i : Interval) (num : Nat) : Bool :=
  if i.closed then i.low ≤ num && num ≤ i.high else i.low < num && num < i.high

def atGrid (i : Interval) (k : Int) : Interval :=
  let up := Nat.pow 10 (-k).toNat
  { i with
    low := i.low * up
    value := i.value * up
    high := i.high * up
    denominator := i.denominator * Nat.pow 10 k.toNat }

def integer? (i : Interval) : Option Nat :=
  let below := i.value / i.denominator
  let near := i.value - below * i.denominator
  let far := i.denominator - near
  let lower := i.contains (below * i.denominator)
  let upper := i.contains ((below + 1) * i.denominator)
  if lower && (!upper || near < far || (near = far && below % 2 = 0)) then some below
  else if upper then some (below + 1)
  else none

def leading (i : Interval) : Int :=
  if i.denominator ≤ i.value then ((Nat.toDigits 10 (i.value / i.denominator)).length : Int) - 1
  else
    match (List.range 400).find? fun j => i.denominator ≤ i.value * Nat.pow 10 j with
    | some j => -(j : Int)
    | none => -400

end Interval

def dropZeros : Nat → Nat → Int → Scaled
  | fuel + 1, d, k => if d ≠ 0 ∧ d % 10 = 0 then dropZeros fuel (d / 10) (k + 1) else ⟨d, k⟩
  | 0, d, k => ⟨d, k⟩

def shortest (x : Binary64) : Scaled :=
  let i := x.interval
  let e := i.leading
  match (List.range 17).findSome? fun (n : Nat) =>
      let k := e - n
      ((i.atGrid k).integer?).map fun d => dropZeros 20 d k with
  | some s => s
  | none => ⟨0, 0⟩

end Parley.Decimal
