import Parley.Flow.Channel

namespace Parley.Flow.Channel

variable {κ α : Type} {c : Channel κ α}

@[simp] theorem items_take : c.take.items = c.items := by
  cases h : c.queue with
  | nil => simp [take, h]
  | cons a as => simp [take, items, h]

@[simp] theorem shut_take : c.take.shut = c.shut := by
  cases h : c.queue <;> simp [take, h]

variable [DecidableEq κ]

@[simp] theorem items_leave (who : κ) : (c.leave who).items = c.items := rfl

@[simp] theorem shut_leave (who : κ) : (c.leave who).shut = c.shut := rfl

theorem items_offer (c : Channel κ α) (who : κ) (a : α) : (c.offer who a).1.items =
    if (c.offer who a).2 = .accepted then c.items ++ [a] else c.items := by
  unfold offer
  split
  · simp
  · split
    · simp [items, leave]
    · split <;> simp [items]

@[simp] theorem shut_offer (c : Channel κ α) (who : κ) (a : α) : (c.offer who a).1.shut = c.shut := by
  unfold offer
  split
  · rfl
  · split
    · rfl
    · split <;> rfl

@[simp] theorem taken_offer (c : Channel κ α) (who : κ) (a : α) :
    (c.offer who a).1.taken = c.taken := by
  unfold offer
  split
  · rfl
  · split
    · rfl
    · split <;> rfl

theorem offer_refused (c : Channel κ α) (who : κ) (a : α) :
    (c.offer who a).2 = .refused ↔ c.shut = true := by
  unfold offer
  split
  · next h => simp [h]
  · next h =>
    split
    · simp [h]
    · split <;> simp [h]

theorem queue_offer (c : Channel κ α) (who : κ) (a : α) : (c.offer who a).1.queue =
    if (c.offer who a).2 = .accepted then c.queue ++ [a] else c.queue := by
  unfold offer
  split
  · simp [leave]
  · split
    · simp
    · split <;> simp

@[simp] theorem capacity_offer (c : Channel κ α) (who : κ) (a : α) :
    (c.offer who a).1.capacity = c.capacity := by
  unfold offer
  split
  · rfl
  · split
    · rfl
    · split <;> rfl

theorem room_offer (who : κ) (a : α) (h : c.queue.length ≤ c.capacity) :
    (c.offer who a).1.queue.length ≤ c.capacity := by
  unfold offer
  split
  · exact h
  · split
    · next hp =>
      have : 0 < c.room := Nat.lt_of_le_of_lt (Nat.zero_le _) hp
      rw [room] at this
      simp only [List.length_append, List.length_singleton]
      omega
    · split <;> exact h

/-- An offer shuts nothing and takes nothing away, and adds what is offered if that is accepted. -/
theorem offered {c' : Channel κ α} {answer : Answer} {who : κ} {a : α}
    (ho : c.offer who a = (c', answer)) : c'.shut = c.shut ∧ c'.taken = c.taken ∧
      c'.items = (if answer = .accepted then c.items ++ [a] else c.items) ∧
        (answer = .refused ↔ c.shut = true) := by
  have hs := shut_offer c who a
  have ht := taken_offer c who a
  have hi := items_offer c who a
  have hr := offer_refused c who a
  rw [ho] at hs ht hi hr
  exact ⟨hs, ht, hi, hr⟩

theorem offer_accepted {who : κ} (a : α) (hs : c.shut = false) (hp : c.place who < c.room) :
    (c.offer who a).2 = .accepted := by
  simp [offer, hs, hp]

end Parley.Flow.Channel
