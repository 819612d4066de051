import Parley.Json.Term
import Parley.Proofs.Decimal.Natural

namespace Parley.Json

open Utf8 (Glyph)

/-- What can follow a value: nothing, or what separates it from the next or closes what it is in. -/
def Ends : List Glyph → Prop
  | [] => True
  | .char c :: _ => c = ',' ∨ c = ']' ∨ c = '\x7d'
  | .stray _ :: _ => False

namespace Numeral

def ofNat (negative : Bool) (n : Nat) : Numeral :=
  ⟨negative, (Decimal.digits n).map fun c => c.toNat - 48, [], none⟩

def ofInt : Int → Numeral
  | .ofNat n => ofNat false n
  | .negSucc n => ofNat true (n + 1)

theorem absorb_append {n m : Nat} {as : List Nat} (bs : List Nat) (h : absorb n as = (m, [])) :
    absorb n (as ++ bs) = absorb m bs := by
  induction as generalizing n with
  | nil =>
      cases h
      rfl
  | cons a as ih =>
      rw [absorb] at h
      split at h
      · next hs =>
        rw [List.cons_append, absorb, if_pos hs]
        exact ih h
      · cases h

theorem absorb_digits {n : Nat} (h : n < span 64) :
    absorb 0 ((Decimal.digits n).map fun c => c.toNat - 48) = (n, []) := by
  induction n using Decimal.digits.induct with
  | case1 n hn =>
      have hd := Decimal.toNat_digit n
      have he : 0 * 10 + ((Decimal.digit n).toNat - 48) = n := by omega
      rw [Decimal.digits_of_lt hn, List.map_singleton, absorb, he, if_pos h, absorb]
  | case2 n hn ih =>
      have hd := Decimal.toNat_digit n
      have he : n / 10 * 10 + ((Decimal.digit n).toNat - 48) = n := by omega
      rw [Decimal.digits_of_le (by omega), List.map_append, absorb_append _ (ih (by omega)),
        List.map_singleton, absorb, he, if_pos h, absorb]

theorem isInteger_ofNat {negative : Bool} {n : Nat} (h : n < span 64) :
    (ofNat negative n).isInteger = true := by
  simp [isInteger, ofNat, absorb_digits h]

theorem toJson?_ofInt {n : Int} (hl : -(span 63 : Int) ≤ n) (hu : n < span 64) :
    (ofInt n).toJson? = some (.int n) := by
  cases n with
  | ofNat n =>
      have hn : n < span 64 := by
        simp only [Int.ofNat_eq_natCast] at hu
        omega
      rw [ofInt, toJson?, isInteger_ofNat hn]
      simp [ofNat, absorb_digits hn]
  | negSucc n =>
      have hs : span 63 < span 64 := by decide
      have hn : n + 1 ≤ span 63 := by omega
      have hd := absorb_digits (n := n + 1) (by omega)
      rw [ofInt, toJson?, isInteger_ofNat (by omega)]
      simp [ofNat, hd, hn, Int.negSucc_eq]

theorem absorb_lt {n : Nat} (as : List Nat) (h : n < span 64) : (absorb n as).1 < span 64 := by
  induction as generalizing n with
  | nil => exact h
  | cons a as ih =>
      rw [absorb]
      split
      · next hs => exact ih hs
      · exact h

theorem range_of_toJson? {x : Numeral} {n : Int} (h : x.toJson? = some (.int n)) :
    -(span 63 : Int) ≤ n ∧ n < span 64 := by
  have ha := absorb_lt x.whole (by decide : 0 < span 64)
  simp only [toJson?] at h
  split at h
  · cases h
    omega
  · split at h
    · next hs =>
      cases h
      simp only [Bool.and_eq_true, decide_eq_true_eq] at hs
      omega
    · obtain ⟨_, -, hf⟩ := Option.map_eq_some_iff.1 h
      cases hf

end Numeral

namespace Term

theorem spanDigits_append {cs : List Char} {rest : List Glyph}
    (h : ∀ c ∈ cs, 48 ≤ c.toNat ∧ c.toNat ≤ 57) (hr : spanDigits rest = ([], rest)) :
    spanDigits (cs.map .char ++ rest) = (cs.map fun c => c.toNat - 48, rest) := by
  induction cs with
  | nil => exact hr
  | cons c cs ih =>
      have hc : digitOf? (.char c) = some (c.toNat - 48) :=
        Decimal.digit?_of_toNat (h c List.mem_cons_self)
      have ht := ih fun c hc => h c (List.mem_cons_of_mem _ hc)
      rw [List.map_cons, List.cons_append, spanDigits, hc]
      simp only [ht, List.map_cons]

theorem stop_of_ends {rest : List Glyph} (h : Ends rest) :
    spanDigits rest = ([], rest) ∧ fraction? rest = some ([], rest) ∧
      exponent? rest = some (none, rest) := by
  cases rest with
  | nil => exact ⟨rfl, rfl, rfl⟩
  | cons g gs =>
      cases g with
      | stray b => cases h
      | char c => rcases h with rfl | rfl | rfl <;> exact ⟨rfl, rfl, rfl⟩

/-- A number other than zero is not written with a zero in front, which would stand alone. -/
theorem whole?_digits (n : Nat) {rest : List Glyph} (h : Ends rest) :
    whole? ((Decimal.digits n).map .char ++ rest) =
      some ((Decimal.digits n).map fun c => c.toNat - 48, rest) := by
  rcases Nat.eq_zero_or_pos n with rfl | hn
  · rw [Decimal.digits_of_lt (by decide)]
    rfl
  · obtain ⟨c, cs, hd, hc⟩ := Decimal.digits_of_pos hn
    have hs := spanDigits_append (fun c hc => Decimal.mem_digits (n := n) hc) (stop_of_ends h).1
    rw [hd] at hs ⊢
    unfold whole?
    split
    · next he =>
      cases he
      exact absurd rfl hc
    · rw [digitRun?, hs]
      rfl

theorem numeral?_digits (negative : Bool) (n : Nat) {rest : List Glyph} (h : Ends rest) :
    numeral? negative ((Decimal.digits n).map .char ++ rest) =
      some (.ofNat negative n, rest) := by
  obtain ⟨-, hf, he⟩ := stop_of_ends h
  simp only [numeral?, whole?_digits n h, hf, he, Option.bind_eq_bind, Option.bind_some]
  rfl

end Term

end Parley.Json
