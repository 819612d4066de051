import Parley.Route.Table
import Mathlib.Data.Finset.Card
import Mathlib.Order.WithBot

namespace Parley.Route

namespace Condition

variable {a b c : Condition} {method : String}

/-- The condition is for this method: by its name, or as one for every method. -/
def Covers (c : Condition) (method : String) : Prop := c.names = [] ∨ method ∈ c.names

instance (c : Condition) (method : String) : Decidable (c.Covers method) :=
  inferInstanceAs (Decidable (_ ∨ _))

def breadth (c : Condition) : WithTop Nat :=
  if c.names = [] then ⊤ else .some c.names.toFinset.card

theorem isAny_iff : c.isAny = true ↔ c.names = [] := List.isEmpty_iff

theorem admits_iff : c.admits method = true ↔ c.Covers method := by
  simp [admits, lists, Covers, isAny_iff]

theorem breadth_of_any (h : c.names = []) : c.breadth = ⊤ := if_pos h

theorem breadth_of_names (h : c.names ≠ []) : c.breadth = .some c.names.length := by
  rw [breadth, if_neg h, List.toFinset_card_of_nodup c.nodup]

theorem compare_ne_gt_iff : a.compare b ≠ .gt ↔ a.breadth ≤ b.breadth := by
  rcases a with ⟨_ | ⟨x, xs⟩, ha⟩ <;> rcases b with ⟨_ | ⟨y, ys⟩, hb⟩
  · simp [Condition.compare, isAny]
  · simp [Condition.compare, isAny, breadth_of_any, breadth_of_names]
  · simp [Condition.compare, isAny, breadth_of_any]
  · rw [breadth_of_names (List.cons_ne_nil x xs), breadth_of_names (List.cons_ne_nil y ys)]
    exact Nat.compare_ne_gt.trans WithTop.coe_le_coe.symm

theorem compare_eq_iff : a.compare b = .eq ↔ a.breadth = b.breadth := by
  rcases a with ⟨_ | ⟨x, xs⟩, ha⟩ <;> rcases b with ⟨_ | ⟨y, ys⟩, hb⟩
  · simp [Condition.compare, isAny, breadth_of_any]
  · rw [breadth_of_any rfl, breadth_of_names (List.cons_ne_nil y ys)]
    exact iff_of_false (by simp [Condition.compare, isAny]) WithTop.top_ne_coe
  · rw [breadth_of_names (List.cons_ne_nil x xs), breadth_of_any rfl]
    exact iff_of_false (by simp [Condition.compare, isAny]) WithTop.coe_ne_top
  · rw [breadth_of_names (List.cons_ne_nil x xs), breadth_of_names (List.cons_ne_nil y ys)]
    exact Nat.compare_eq_eq.trans WithTop.coe_inj.symm

end Condition

end Parley.Route
