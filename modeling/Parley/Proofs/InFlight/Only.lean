import Parley.Proofs.InFlight.Entry

namespace Parley.InFlight

open Parley.Flow (Token)

variable {σ : Type} {r s : InFlight (ConnectionId × σ)} {c d : ConnectionId} {id : RequestId}
  {t : Ticket (ConnectionId × σ)} {x : ConnectionId × σ}

/-- The part of the connection `c`. -/
def only (r : InFlight (ConnectionId × σ)) (c : ConnectionId) : InFlight (ConnectionId × σ) where
  entries := r.entries.filter fun t => t.connection = c
  issued := r.issued.filter fun d => d = c
  claimed := r.claimed.filter fun e => e.1 = c
  fired := r.fired.filter fun x => x.1 = c

theorem lookup_only (id : RequestId) : (r.only c).lookup c id = r.lookup c id := by
  simp only [lookup, only, List.find?_filter]
  congr 1
  funext t
  simp

theorem contains_only (id : RequestId) : (r.only c).contains c id = r.contains c id :=
  congrArg _ (lookup_only id)

theorem count_issued_only : (r.only c).issued.count c = r.issued.count c := by
  simp [only, List.count_filter]

theorem isClaimed_only (ht : t.connection = c) : (r.only c).isClaimed t = r.isClaimed t := by
  simp [isClaimed, only, ht]

theorem isCancelled_only [DecidableEq σ] {token : Token (ConnectionId × σ)} (hn : token.name.1 = c)
    (ha : ∀ x ∈ token.ancestors, x.1 = c) : (r.only c).isCancelled token = r.isCancelled token := by
  rw [Bool.eq_iff_iff, isCancelled_iff, isCancelled_iff]
  simp only [only, List.mem_filter, hn, decide_true, and_true]
  refine or_congr_right (exists_congr fun x => and_congr_right fun hx => ?_)
  simp [ha x hx]

theorem only_erase (d : ConnectionId) (id : RequestId) :
    (r.erase d id).only c = (r.only c).erase d id := by
  simp only [only, erase, List.filter_filter, Bool.and_comm]

theorem only_erase_of_ne (h : d ≠ c) : (r.erase d id).only c = r.only c := by
  simp only [only, erase, List.filter_filter]
  congr 1
  apply List.filter_congr
  intro t _
  by_cases ht : t.connection = c
  · simp [ht, Ne.symm h]
  · simp [ht]

theorem only_fire (x : ConnectionId × σ) :
    (r.fire x).only c = if x.1 = c then (r.only c).fire x else r.only c := by
  by_cases h : x.1 = c <;> simp [only, fire, h]

theorem only_claim (ht : t.connection = c) :
    (r.only c).claim t = ((r.claim t).1.only c, (r.claim t).2) := by
  rw [claim_eq, claim_eq, isClaimed_only ht]
  split
  · rfl
  · simp [only, ht]

theorem claim_congr (h : r.only c = s.only c) (ht : t.connection = c) :
    (r.claim t).1.only c = (s.claim t).1.only c ∧ (r.claim t).2 = (s.claim t).2 :=
  Prod.mk.inj ((only_claim ht).symm.trans (h ▸ only_claim ht))

theorem only_claim_of_ne (ht : t.connection ≠ c) : (r.claim t).1.only c = r.only c := by
  rw [claim_eq]
  split
  · rfl
  · simp [only, ht]

theorem only_release (ht : t.connection = c) :
    (r.only c).release t = ((r.release t).1.only c, (r.release t).2) := by
  subst ht
  rw [release, release, lookup_only]
  cases r.lookup t.connection t.id with
  | none => rfl
  | some u =>
      dsimp only
      split
      · rw [only_erase]
      · rfl

theorem release_congr (h : r.only c = s.only c) (ht : t.connection = c) :
    (r.release t).1.only c = (s.release t).1.only c ∧ (r.release t).2 = (s.release t).2 :=
  Prod.mk.inj ((only_release ht).symm.trans (h ▸ only_release ht))

theorem only_release_of_ne (ht : t.connection ≠ c) : (r.release t).1.only c = r.only c := by
  rcases release_eq (r := r) (t := t) with h | ⟨h, -⟩ <;> rw [h]
  exact only_erase_of_ne ht

theorem only_begin? (id : RequestId) (token : Token (ConnectionId × σ)) :
    (r.only c).begin? c id token = (r.begin? c id token).map fun x => (x.1.only c, x.2) := by
  rw [begin?, begin?, contains_only, count_issued_only]
  split
  · rfl
  · simp [only]

theorem only_begin?_of_ne {token : Token (ConnectionId × σ)} (hd : d ≠ c)
    (h : r.begin? d id token = some (s, t)) : s.only c = r.only c := by
  obtain ⟨-, rfl, rfl⟩ := begin?_eq_some.1 h
  simp [only, hd]

theorem cancel_congr (h : r.only c = s.only c) (id : RequestId) :
    (r.cancel c id).1.only c = (s.cancel c id).1.only c ∧ (r.cancel c id).2 = (s.cancel c id).2 := by
  rw [cancel, cancel, ← lookup_only id, h, lookup_only id]
  cases hl : s.lookup c id with
  | none => exact ⟨h, rfl⟩
  | some t =>
      have ht := (lookup_some hl).2.1
      have he : (r.erase c id).only c = (s.erase c id).only c := by rw [only_erase, h, only_erase]
      obtain ⟨h1, h2⟩ := claim_congr he ht
      dsimp only
      rcases hcr : (r.erase c id).claim t with ⟨r', _ | _⟩ <;>
        rcases hcs : (s.erase c id).claim t with ⟨s', _ | _⟩ <;>
        simp only [hcr, hcs] at h1 h2 <;> cases h2
      · exact ⟨h1, rfl⟩
      · exact ⟨by rw [only_fire, only_fire, h1], rfl⟩

theorem only_cancel_of_ne {b : Bool} (hd : d ≠ c)
    (hn : ∀ t ∈ r.entries, t.connection = d → t.token.name.1 = d) (h : r.cancel d id = (s, b)) :
    s.only c = r.only c := by
  cases b with
  | false =>
      rcases cancel_eq_false h with ⟨-, rfl⟩ | ⟨t, -, -, rfl⟩
      · rfl
      · exact only_erase_of_ne hd
  | true =>
      obtain ⟨t, hl, -, rfl⟩ := cancel_eq_true h
      obtain ⟨hm, rfl, rfl⟩ := lookup_some hl
      rw [only_fire, if_neg (by rwa [hn t hm rfl])]
      have he : (r.erase t.connection t.id).only c = r.only c := only_erase_of_ne hd
      rw [← he]
      simp [only, hd]

theorem ofConnection_congr (h : r.only c = s.only c) : r.ofConnection c = s.ofConnection c :=
  congrArg entries h

theorem withdraw_congr (h : r.only c = s.only c) :
    (r.withdraw c).1.only c = (s.withdraw c).1.only c ∧ (r.withdraw c).2 = (s.withdraw c).2 := by
  refine ⟨?_, ofConnection_congr h⟩
  have hc (u : InFlight (ConnectionId × σ)) :
      (u.withdraw c).1.only c = { u.only c with entries := [] } := by
    simp [withdraw, only, List.filter_filter]
  rw [hc, hc, h]

theorem only_withdraw_of_ne (hd : d ≠ c) : (r.withdraw d).1.only c = r.only c := by
  simp only [withdraw, only, List.filter_filter]
  congr 1
  apply List.filter_congr
  intro t _
  by_cases ht : t.connection = c
  · simp [ht, Ne.symm hd]
  · simp [ht]

theorem only_seize (ht : t.connection = c) : (r.seize t).only c = (r.only c).seize t := by
  simp [seize, only, ht]

theorem only_seize_of_ne (ht : t.connection ≠ c) : (r.seize t).only c = r.only c := by
  simp [seize, only, ht]

theorem seize_congr (h : r.only c = s.only c) (t : Ticket (ConnectionId × σ)) :
    (r.seize t).only c = (s.seize t).only c := by
  by_cases ht : t.connection = c
  · rw [only_seize ht, only_seize ht, h]
  · rw [only_seize_of_ne ht, only_seize_of_ne ht, h]

end Parley.InFlight
