import Parley.InFlight

namespace Parley.InFlight

open Parley.Flow (Token)

variable {κ : Type} {r s : InFlight κ} {c d : ConnectionId} {id id' : RequestId} {t u : Ticket κ}

theorem lookup_some (h : r.lookup c id = some t) :
    t ∈ r.entries ∧ t.connection = c ∧ t.id = id := by
  have hp := List.find?_some h
  exact ⟨List.mem_of_find?_eq_some h, by simpa using hp⟩

theorem lookup_eq_none : r.lookup c id = none ↔ ∀ t ∈ r.entries, ¬(t.connection = c ∧ t.id = id) := by
  simp [lookup, List.find?_eq_none]

/-- No id is in flight twice on a connection. -/
def Keyed (r : InFlight κ) : Prop := ∀ t ∈ r.entries, r.lookup t.connection t.id = some t

theorem Keyed.eq (hk : r.Keyed) (ht : t ∈ r.entries) (hu : u ∈ r.entries)
    (hc : t.connection = u.connection) (hi : t.id = u.id) : t = u := by
  have h := hk t ht
  rw [hc, hi, hk u hu] at h
  exact (Option.some.inj h).symm

@[simp] theorem entries_fire (x : κ) : (r.fire x).entries = r.entries := rfl

@[simp] theorem claimed_fire (x : κ) : (r.fire x).claimed = r.claimed := rfl

@[simp] theorem mem_fired_fire {x y : κ} : y ∈ (r.fire x).fired ↔ y ∈ r.fired ∨ y = x := by
  simp [fire]

@[simp] theorem issued_erase : (r.erase c id).issued = r.issued := rfl

@[simp] theorem claimed_erase : (r.erase c id).claimed = r.claimed := rfl

@[simp] theorem fired_erase : (r.erase c id).fired = r.fired := rfl

@[simp] theorem isClaimed_erase : (r.erase c id).isClaimed t = r.isClaimed t := rfl

theorem mem_entries_erase :
    t ∈ (r.erase c id).entries ↔ t ∈ r.entries ∧ ¬(t.connection = c ∧ t.id = id) := by
  simp only [erase, List.mem_filter, Bool.not_eq_true', decide_eq_false_iff_not]

theorem lookup_erase_of_ne (h : ¬(d = c ∧ id' = id)) :
    (r.erase c id).lookup d id' = r.lookup d id' := by
  rw [lookup, lookup, erase, List.find?_filter]
  congr 1
  funext t
  by_cases ht : t.connection = d ∧ t.id = id'
  · obtain ⟨rfl, rfl⟩ := ht
    simp [h]
  · simp [ht]

theorem Keyed.erase (hk : r.Keyed) : (r.erase c id).Keyed := by
  intro t ht
  obtain ⟨ht, hn⟩ := mem_entries_erase.1 ht
  rw [lookup_erase_of_ne hn, hk t ht]

theorem begin?_eq_some {token : Token κ} :
    r.begin? c id token = some (s, t) ↔
      r.lookup c id = none ∧ t = ⟨c, id, r.issued.count c, token⟩ ∧
        s = { r with entries := r.entries ++ [t], issued := r.issued ++ [c] } := by
  cases h : r.lookup c id with
  | none => simp only [begin?, contains, h]; grind
  | some u => simp [begin?, contains, h]

theorem begin?_eq_none {token : Token κ} :
    r.begin? c id token = none ↔ (r.lookup c id).isSome := by
  cases h : r.lookup c id <;> simp [begin?, contains, h]

theorem lookup_append (hn : r.lookup c id = none) (ht : t.connection = c ∧ t.id = id)
    (l : List ConnectionId) :
    ({ r with entries := r.entries ++ [t], issued := l } : InFlight κ).lookup d id' =
      if d = c ∧ id' = id then some t else r.lookup d id' := by
  obtain ⟨rfl, rfl⟩ := ht
  rw [lookup, List.find?_append]
  change (r.lookup d id').or _ = _
  split
  · next h =>
    obtain ⟨rfl, rfl⟩ := h
    simp [hn]
  · next h =>
    have h' : ¬(t.connection = d ∧ t.id = id') := fun e => h ⟨e.1.symm, e.2.symm⟩
    simp [h']

theorem Keyed.begin? {token : Token κ} (hk : r.Keyed)
    (h : r.begin? c id token = some (s, t)) : s.Keyed := by
  obtain ⟨hn, ht, rfl⟩ := begin?_eq_some.1 h
  have he : t.connection = c ∧ t.id = id := by simp [ht]
  intro u hu
  rw [lookup_append hn he]
  split
  · next hc =>
    rcases List.mem_append.1 hu with hu | hu
    · exact absurd hc (lookup_eq_none.1 hn u hu)
    · rw [List.mem_singleton.1 hu]
  · next hc =>
    rcases List.mem_append.1 hu with hu | hu
    · exact hk u hu
    · rw [List.mem_singleton.1 hu] at hc
      exact absurd he hc

@[simp] theorem isClaimed_iff : r.isClaimed t = true ↔ (t.connection, t.serial) ∈ r.claimed := by
  simp [isClaimed]

/-- The first claim of a ticket succeeds and is remembered, and no other one does anything. -/
theorem claim_eq : r.claim t =
    if r.isClaimed t then (r, false)
    else ({ r with claimed := r.claimed ++ [(t.connection, t.serial)] }, true) := rfl

theorem entries_claim : (r.claim t).1.entries = r.entries := by
  rw [claim_eq]
  split <;> rfl

theorem mem_entries_claim : u ∈ (r.claim t).1.entries ↔ u ∈ r.entries := by
  rw [entries_claim]

theorem issued_claim : (r.claim t).1.issued = r.issued := by
  rw [claim_eq]
  split <;> rfl

theorem Keyed.claim (hk : r.Keyed) : (r.claim t).1.Keyed := by
  rw [claim_eq]
  split <;> exact hk

theorem cancel_eq_true (h : r.cancel c id = (s, true)) :
    ∃ t, r.lookup c id = some t ∧ r.isClaimed t = false ∧
      s = (({ r.erase c id with claimed := r.claimed ++ [(t.connection, t.serial)] } :
        InFlight κ).fire t.token.name) := by
  cases hl : r.lookup c id with
  | none => simp [cancel, hl] at h
  | some t =>
    cases hc : r.isClaimed t with
    | true => simp [cancel, hl, claim_eq, hc] at h
    | false =>
      simp [cancel, hl, claim_eq, hc] at h
      exact ⟨t, rfl, hc, h.symm⟩

/-- One that does not succeed claims nothing and fires nothing. What it finds has been claimed, and
it removes that all the same. -/
theorem cancel_eq_false (h : r.cancel c id = (s, false)) :
    (r.lookup c id = none ∧ s = r) ∨
      ∃ t, r.lookup c id = some t ∧ r.isClaimed t = true ∧ s = r.erase c id := by
  cases hl : r.lookup c id with
  | none => simp [cancel, hl] at h; exact .inl ⟨rfl, h.symm⟩
  | some t =>
    cases hc : r.isClaimed t with
    | true =>
      simp [cancel, hl, claim_eq, hc] at h
      exact .inr ⟨t, rfl, hc, h.symm⟩
    | false => simp [cancel, hl, claim_eq, hc] at h

theorem cancel_snd : (r.cancel c id).2 = (r.lookup c id).any fun t => !r.isClaimed t := by
  cases hl : r.lookup c id with
  | none => simp [cancel, hl]
  | some t => cases hc : r.isClaimed t <;> simp [cancel, hl, claim_eq, hc]

theorem cancel_fst (r : InFlight κ) (c : ConnectionId) (id : RequestId) :
    (r.lookup c id = none ∧ (r.cancel c id).1 = r) ∨
      ∃ claimed fired, (r.cancel c id).1 = { r.erase c id with claimed, fired } := by
  rcases hc : r.cancel c id with ⟨s, won⟩
  cases won with
  | true =>
      obtain ⟨t, -, -, rfl⟩ := cancel_eq_true hc
      exact .inr ⟨_, _, rfl⟩
  | false =>
      rcases cancel_eq_false hc with h | ⟨t, -, -, rfl⟩
      · exact .inl h
      · exact .inr ⟨_, _, rfl⟩

theorem mem_entries_cancel :
    u ∈ (r.cancel c id).1.entries ↔ u ∈ r.entries ∧ ¬(u.connection = c ∧ u.id = id) := by
  rcases r.cancel_fst c id with ⟨hn, h⟩ | ⟨_, _, h⟩ <;> rw [h]
  · exact (and_iff_left_of_imp (lookup_eq_none.1 hn u)).symm
  · exact mem_entries_erase

theorem issued_cancel : (r.cancel c id).1.issued = r.issued := by
  rcases r.cancel_fst c id with ⟨-, h⟩ | ⟨_, _, h⟩ <;> rw [h]
  rfl

theorem Keyed.cancel (hk : r.Keyed) : (r.cancel c id).1.Keyed := by
  rcases r.cancel_fst c id with ⟨-, h⟩ | ⟨_, _, h⟩ <;> rw [h]
  · exact hk
  · exact hk.erase

theorem release_eq : (r.release t).1 = r ∨
    (r.release t).1 = r.erase t.connection t.id ∧
      ∃ u, r.lookup t.connection t.id = some u ∧ u.serial = t.serial := by
  cases hl : r.lookup t.connection t.id with
  | none => simp [release, hl]
  | some u => by_cases hs : u.serial = t.serial <;> simp [release, hl, hs]

@[simp] theorem issued_release : (r.release t).1.issued = r.issued := by
  rcases release_eq (r := r) (t := t) with h | ⟨h, -⟩ <;> simp [h]

@[simp] theorem claimed_release : (r.release t).1.claimed = r.claimed := by
  rcases release_eq (r := r) (t := t) with h | ⟨h, -⟩ <;> simp [h]

@[simp] theorem fired_release : (r.release t).1.fired = r.fired := by
  rcases release_eq (r := r) (t := t) with h | ⟨h, -⟩ <;> simp [h]

theorem entries_release_sublist (r : InFlight κ) (t : Ticket κ) :
    (r.release t).1.entries.Sublist r.entries := by
  rcases release_eq (r := r) (t := t) with h | ⟨h, -⟩
  · simp only [h, List.Sublist.refl]
  · rw [h]
    exact List.filter_sublist

theorem Keyed.release (hk : r.Keyed) : (r.release t).1.Keyed := by
  rcases release_eq (r := r) (t := t) with h | ⟨h, -⟩ <;> rw [h]
  · exact hk
  · exact hk.erase

theorem mem_entries_release (hk : r.Keyed) :
    u ∈ (r.release t).1.entries ↔
      u ∈ r.entries ∧ ¬(u.connection = t.connection ∧ u.id = t.id ∧ u.serial = t.serial) := by
  cases hl : r.lookup t.connection t.id with
  | none =>
    have hn := lookup_eq_none.1 hl
    simp only [release, hl]
    grind
  | some v =>
    obtain ⟨hv, hc, hi⟩ := lookup_some hl
    by_cases hs : v.serial = t.serial
    · simp only [release, hl, hs, if_true, mem_entries_erase]
      constructor
      · exact fun ⟨hu, hn⟩ => ⟨hu, fun h => hn ⟨h.1, h.2.1⟩⟩
      · refine fun ⟨hu, hn⟩ => ⟨hu, fun h => hn ⟨h.1, h.2, ?_⟩⟩
        rw [hk.eq hu hv (h.1.trans hc.symm) (h.2.trans hi.symm), hs]
    · simp only [release, hl, hs, if_false]
      refine ⟨fun hu => ⟨hu, fun h => hs ?_⟩, And.left⟩
      rw [← h.2.2, hk.eq hu hv (h.1.trans hc.symm) (h.2.1.trans hi.symm)]

theorem mem_ofConnection : t ∈ r.ofConnection c ↔ t ∈ r.entries ∧ t.connection = c := by
  simp [ofConnection]

theorem mem_entries_withdraw : t ∈ (r.withdraw c).1.entries ↔ t ∈ r.entries ∧ t.connection ≠ c := by
  simp [withdraw]

theorem lookup_withdraw_of_ne (h : d ≠ c) : (r.withdraw c).1.lookup d id = r.lookup d id := by
  rw [lookup, lookup, withdraw, List.find?_filter]
  congr 1
  funext t
  by_cases ht : t.connection = d
  · simp [ht, h]
  · simp [ht]

theorem Keyed.withdraw (hk : r.Keyed) : (r.withdraw c).1.Keyed := by
  intro t ht
  obtain ⟨ht, hn⟩ := mem_entries_withdraw.1 ht
  rw [lookup_withdraw_of_ne hn, hk t ht]

theorem mem_claimed_seize {x : ConnectionId × Nat} :
    x ∈ (r.seize t).claimed ↔ x ∈ r.claimed ∨ x = (t.connection, t.serial) := by
  simp [seize]

theorem foldl_seize (ts : List (Ticket κ)) (r : InFlight κ) :
    ts.foldl (fun r t => (r.seize t).fire t.token.name) r = { r with
      claimed := r.claimed ++ ts.map fun t => (t.connection, t.serial)
      fired := r.fired ++ ts.map fun t => t.token.name } := by
  induction ts generalizing r with
  | nil => simp
  | cons t ts ih =>
      rw [List.foldl_cons, ih]
      simp [seize, fire]

theorem cancelConnection_eq (r : InFlight κ) (c : ConnectionId) : (r.cancelConnection c).1 = { r with
    entries := r.entries.filter fun t => t.connection ≠ c
    claimed := r.claimed ++ (r.ofConnection c).map fun t => (t.connection, t.serial)
    fired := r.fired ++ (r.ofConnection c).map fun t => t.token.name } := by
  rw [cancelConnection]
  exact foldl_seize ..

theorem mem_entries_cancelConnection :
    t ∈ (r.cancelConnection c).1.entries ↔ t ∈ r.entries ∧ t.connection ≠ c := by
  simp [cancelConnection_eq]

theorem Keyed.cancelConnection (hk : r.Keyed) : (r.cancelConnection c).1.Keyed := by
  intro t ht
  rw [cancelConnection_eq] at ht ⊢
  exact hk.withdraw t ht

theorem isCancelled_iff [DecidableEq κ] {token : Token κ} :
    r.isCancelled token = true ↔
      token.name ∈ r.fired ∨ ∃ x ∈ token.ancestors, x ∈ r.fired := by
  simp [isCancelled, Token.isCancelled]

end Parley.InFlight
