import Parley.Proofs.Flow.Fanout.Send

namespace Parley.Flow.Fanout.Run

variable {α : Type} {s t : Subscriber α} {r : Run α} {p : Publication α} {i : Nat}

def Reaches (r : Run α) (i : Nat) : Event α → Prop
  | .send => (r.fanout.publications.head?.bind fun p => p.ahead.head?) = some i
  | .receive j | .drop j => j = i
  | _ => False

/-- Nothing that happens to another subscriber changes what this one has. -/
theorem step_apart {e : Event α} (hi : r.fanout.subscriber? i = some s) (he : ¬r.Reaches i e) :
    (r.step e).receivedBy i = r.receivedBy i ∧
      ∃ t, (r.step e).fanout.subscriber? i = some t ∧ t.queue = s.queue := by
  cases e with
  | subscribe n accepts =>
      refine ⟨rfl, s, ?_, rfl⟩
      have hlt := lt_of_subscriber? hi
      exact (subscriber?_subscribe ..).trans (by rw [if_neg (by omega), hi])
  | publish a =>
      rw [step]
      split <;> exact ⟨rfl, s, hi, rfl⟩
  | send =>
      rw [step]
      split
      · exact ⟨rfl, s, hi, rfl⟩
      · next p ps hp =>
        split
        · exact ⟨rfl, s, hi, rfl⟩
        · next f pr hst =>
          obtain ⟨k, hk, hq⟩ := r.fanout.advance_subscriber p i
          rw [advance_of_step? hp hst, hi] at hk
          rcases hq s hi with hq | ⟨hhead, -⟩
          · exact ⟨rfl, k s, hk, hq⟩
          · exact absurd (by simp [Reaches, hp, hhead]) he
  | receive j =>
      have hne : j ≠ i := he
      rcases r.step_receive j with hr | ⟨t, a, queue, -, -, hr⟩
      · rw [hr]
        exact ⟨rfl, s, hi, rfl⟩
      · rw [hr]
        refine ⟨?_, s, ?_, rfl⟩
        · rw [receivedBy, receivedBy_append, if_neg hne, List.append_nil, receivedBy]
        · rw [subscriber?_update, if_neg hne, hi]
  | drop j =>
      refine ⟨rfl, s, ?_, rfl⟩
      exact (subscriber?_update ..).trans (by rw [if_neg (show j ≠ i from he), hi])
  | close =>
      refine ⟨rfl, { s with registered := false }, ?_, rfl⟩
      exact (subscriber?_map (f := r.fanout) rfl i).trans (by rw [hi]; rfl)

theorem shut_step {e : Event α} (h : ∀ i s, r.fanout.subscriber? i = some s → s.queue.shut = false)
    (he : ∀ id, e ≠ .drop id) (hi : (r.step e).fanout.subscriber? i = some t) :
    t.queue.shut = false := by
  cases e with
  | subscribe n accepts =>
      have hi : (r.fanout.subscribe n accepts).1.subscriber? i = some t := hi
      rw [subscriber?_subscribe] at hi
      split at hi
      · cases hi
        rfl
      · exact h i t hi
  | publish a =>
      rw [step] at hi
      split at hi <;> exact h i t hi
  | send =>
      rw [step] at hi
      split at hi
      · exact h i t hi
      · next p ps hp =>
        split at hi
        · exact h i t hi
        · next f pr hst =>
          obtain ⟨k, hk, hq⟩ := r.fanout.advance_subscriber p i
          rw [advance_of_step? hp hst] at hk
          obtain ⟨s, hs, rfl⟩ := Option.map_eq_some_iff.1 (hk.symm.trans hi)
          rcases hq s hs with hq | ⟨-, hq⟩
          · rw [hq]
            exact h i s hs
          · rw [hq, Channel.shut_offer]
            exact h i s hs
  | receive id =>
      rcases r.step_receive id with hr | ⟨s, a, queue, -, -, hr⟩
      · exact h i t (hr ▸ hi)
      · rw [hr, subscriber?_update] at hi
        split at hi
        · obtain ⟨s, hs, rfl⟩ := Option.map_eq_some_iff.1 hi
          exact (Channel.shut_take ..).trans (h i s hs)
        · exact h i t hi
  | drop id => exact absurd rfl (he id)
  | close =>
      have hi : r.fanout.close.subscriber? i = some t := hi
      rw [subscriber?_map (f := r.fanout) rfl] at hi
      obtain ⟨s, hs, rfl⟩ := Option.map_eq_some_iff.1 hi
      exact h i s hs

/-- Nothing is lost and nothing comes twice. -/
structure Exact (r : Run α) : Prop where
  /-- What a subscriber has received and has in its queue, while its receiver lives. -/
  given : ∀ i s, r.fanout.subscriber? i = some s → s.queue.shut = false →
    r.receivedBy i ++ s.queue.queue = (r.passed i).filter s.accepts
  /-- Only the last publication may not have come past a subscriber yet. -/
  passed : ∀ i, r.passed i = issued r.issues i ∨ ∃ a, r.passed i ++ [a] = issued r.issues i
  once : (r.issues.map (·.id)).Nodup
  bounded : ∀ i s, r.fanout.subscriber? i = some s →
    ∃ n, r.terms[i]? = some (n, s.accepts) ∧ s.queue.queue.length ≤ max 1 n
  apart : ∀ i s e, r.fanout.subscriber? i = some s → ¬r.Reaches i e →
    (r.step e).receivedBy i = r.receivedBy i ∧
      ∃ t, (r.step e).fanout.subscriber? i = some t ∧ t.queue = s.queue
  counted : r.deliveries.Nodup ∧ ∀ x ∈ r.results, x.2 = r.delivered x.1

theorem Sound.exact (hs : r.Sound) : r.Exact where
  given i s hi hsh := by
    have hk := hs.each i s hi
    rw [hk.received hsh, ← hk.items hsh, Channel.items]
  passed := hs.passed_prefix
  once := hs.nodup
  bounded i s hi := by
    have hk := hs.each i s hi
    obtain ⟨n, hn, hc⟩ := hk.terms
    exact ⟨n, hn, by rw [Nat.max_comm, ← hc]; exact hk.room⟩
  apart _ _ _ := step_apart
  counted := ⟨hs.once, fun x hx => (hs.results x hx).2⟩

end Parley.Flow.Fanout.Run
