namespace Parley.Text

abbrev Ranges := Array (Nat × Nat)

namespace Ranges

/-- Whether `n` is in one of the ranges with the indices `[lo, hi)`. -/
def covers (t : Ranges) (n lo hi : Nat) : Bool :=
  if lo < hi then
    let mid := (lo + hi) / 2
    let (first, last) := t.getD mid (0, 0)
    if n < first then t.covers n lo mid
    else if last < n then t.covers n (mid + 1) hi
    else true
  else false
termination_by hi - lo

def has (t : Ranges) (n : Nat) : Bool := t.covers n 0 t.size

end Ranges

end Parley.Text
