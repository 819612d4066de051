namespace Parley

/-- How many numbers there are of `bits` binary digits, zeros in front included. -/
def span (bits : Nat) : Nat := Nat.pow 2 bits

end Parley

namespace Parley.Decimal

def digit (n : Nat) : Char := Char.ofNat (48 + n % 10)

def digits (n : Nat) : List Char :=
  if n < 10 then [digit n] else digits (n / 10) ++ [digit n]
termination_by n

def digit? (c : Char) : Option Nat :=
  if '0' ≤ c ∧ c ≤ '9' then some (c.toNat - 48) else none

def readFrom? : Nat → List Char → Option Nat
  | n, [] => some n
  | n, c :: cs => (digit? c).bind fun d => readFrom? (n * 10 + d) cs

def read? (cs : List Char) : Option Nat := if cs.isEmpty then none else readFrom? 0 cs

/-- An unsigned number, which may carry a plus sign. -/
def unsigned? : List Char → Option Nat
  | '+' :: cs => read? cs
  | cs => read? cs

def signed? : List Char → Option Int
  | '-' :: cs => (read? cs).map fun n => -(n : Int)
  | cs => (unsigned? cs).map fun n => (n : Int)

def ofNat (n : Nat) : String := String.ofList (digits n)

def integer : Int → List Char
  | .ofNat n => digits n
  | .negSucc n => '-' :: digits (n + 1)

def ofInt (n : Int) : String := String.ofList (integer n)

end Parley.Decimal

namespace Parley.Text

/-- The `width` digits of `n` after the point, without trailing zeros. -/
def fractionDigits (n width : Nat) : List Char :=
  let ds := Decimal.digits n
  let padded := List.replicate (width - ds.length) '0' ++ ds
  (padded.reverse.dropWhile (· = '0')).reverse

def duration (ms : Nat) : String :=
  if ms = 0 then "0ns"
  else if ms < 1000 then Decimal.ofNat ms ++ "ms"
  else
    let fraction := fractionDigits (ms % 1000) 3
    let point := if fraction.isEmpty then [] else '.' :: fraction
    Decimal.ofNat (ms / 1000) ++ String.ofList point ++ "s"

end Parley.Text
