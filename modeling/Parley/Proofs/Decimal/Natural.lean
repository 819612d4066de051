import Parley.Decimal.Natural
import Mathlib.Algebra.Group.Nat.Defs

namespace Parley.Decimal

variable {c : Char} {n k : Nat}

theorem toNat_digit (n : Nat) : (digit n).toNat = 48 + n % 10 := by
  have h : n % 10 < 10 := Nat.mod_lt _ (by decide)
  rw [digit]
  generalize n % 10 = d at h
  match d with
  | 0 | 1 | 2 | 3 | 4 | 5 | 6 | 7 | 8 | 9 => rfl
  | d + 10 => omega

theorem digit?_of_toNat (h : 48 ≤ c.toNat ∧ c.toNat ≤ 57) : digit? c = some (c.toNat - 48) := by
  have hc : '0' ≤ c ∧ c ≤ '9' := by
    rw [Char.le_def, Char.le_def, UInt32.le_iff_toNat_le, UInt32.le_iff_toNat_le]
    exact h
  rw [digit?, if_pos hc]

theorem digit?_digit (n : Nat) : digit? (digit n) = some (n % 10) := by
  have h := toNat_digit n
  rw [digit?_of_toNat (by omega), h]
  exact congrArg some (by omega)

theorem digits_of_lt (h : n < 10) : digits n = [digit n] := by
  rw [digits, if_pos h]

theorem digits_of_le (h : 10 ≤ n) : digits n = digits (n / 10) ++ [digit n] := by
  rw [digits, if_neg (by omega)]

theorem digits_ne_nil (n : Nat) : digits n ≠ [] := by
  rw [digits]
  split <;> simp

theorem mem_digits (h : c ∈ digits n) : 48 ≤ c.toNat ∧ c.toNat ≤ 57 := by
  induction n using digits.induct with
  | case1 n hn =>
      rw [digits_of_lt hn, List.mem_singleton] at h
      have := toNat_digit n
      rw [h]
      omega
  | case2 n hn ih =>
      rw [digits_of_le (by omega), List.mem_append, List.mem_singleton] at h
      rcases h with h | rfl
      · exact ih h
      · have := toNat_digit n
        omega

theorem digits_of_pos (h : 0 < n) : ∃ c cs, digits n = c :: cs ∧ c ≠ '0' := by
  induction n using digits.induct with
  | case1 n hn =>
      refine ⟨digit n, [], digits_of_lt hn, fun he => ?_⟩
      have hd := toNat_digit n
      rw [he] at hd
      have : '0'.toNat = 48 := rfl
      omega
  | case2 n hn ih =>
      obtain ⟨c, cs, hd, hc⟩ := ih (by omega)
      exact ⟨c, cs ++ [digit n], by rw [digits_of_le (by omega), hd, List.cons_append], hc⟩

/-- A number below a power of ten has no more digits than that has zeros. -/
theorem length_digits (hk : 0 < k) (h : n < 10 ^ k) : (digits n).length ≤ k := by
  induction n using digits.induct generalizing k with
  | case1 n hn =>
      rw [digits_of_lt hn]
      exact hk
  | case2 n hn ih =>
      rw [digits_of_le (by omega), List.length_append, List.length_singleton]
      cases k with
      | zero => omega
      | succ k =>
          have hk' : 0 < k := by
            cases k with
            | zero => simp at h; omega
            | succ k => omega
          have := ih hk' (by rw [Nat.pow_succ] at h; omega)
          omega

theorem readFrom?_append (cs ds : List Char) :
    readFrom? n (cs ++ ds) = (readFrom? n cs).bind fun m => readFrom? m ds := by
  induction cs generalizing n with
  | nil => rfl
  | cons c cs ih =>
      simp only [List.cons_append, readFrom?]
      cases digit? c with
      | none => rfl
      | some d => exact ih

theorem readFrom?_digits (n : Nat) : readFrom? 0 (digits n) = some n := by
  induction n using digits.induct with
  | case1 n hn =>
      rw [digits_of_lt hn]
      simp only [readFrom?, digit?_digit, Option.bind_some]
      exact congrArg some (by omega)
  | case2 n hn ih =>
      rw [digits_of_le (by omega), readFrom?_append, ih]
      simp only [readFrom?, digit?_digit, Option.bind_some]
      exact congrArg some (by omega)

theorem read?_digits (n : Nat) : read? (digits n) = some n := by
  have h : (digits n).isEmpty = false := by
    rw [List.isEmpty_eq_false_iff]
    exact digits_ne_nil n
  rw [read?, h]
  exact readFrom?_digits n

theorem unsigned?_digits (n : Nat) : unsigned? (digits n) = some n := by
  have h := read?_digits n
  unfold unsigned?
  split
  · next cs hc =>
    have := mem_digits (hc ▸ List.mem_cons_self : '+' ∈ digits n)
    simp at this
  · exact h

end Parley.Decimal
