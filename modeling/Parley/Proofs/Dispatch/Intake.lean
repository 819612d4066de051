import Parley.Proofs.Dispatch.Sound

namespace Parley.Dispatch

namespace View.Sound

variable {c : ConnectionId} {v w : View} {n : Nat} {r : InFlight TokenName}

/-- A call gets the next number. What ticket it has is the one that was issued for it. -/
theorem added {k : Option (Ticket TokenName)} (hv : v.Sound c) (hk : r.Keyed)
    (he : r.entries = v.registry.entries ++ k.toList) (hc : r.claimed = v.registry.claimed)
    (hf : r.fired = v.registry.fired) (hi : v.registry.issued.count c ≤ r.issued.count c)
    (ht : ∀ t, k = some t → t.connection = c ∧ t.token = Hub.callToken c v.numbered ∧
      t.serial = v.registry.issued.count c ∧ t.serial < r.issued.count c) : ({ v with
      registry := r
      job := Function.update v.job v.numbered (some ⟨k, Hub.callToken c v.numbered, .executing⟩)
      numbered := v.numbered + 1 } : View).Sound c := by
  have hold {s : Nat} {j : Job} (hj : v.job s = some j) : s ≠ v.numbered :=
    Nat.ne_of_lt (hv.numbered hj)
  have hnew {t u : Ticket TokenName} {s : Nat} {j : Job} (hk : k = some t) (hj : v.job s = some j)
      (hu : j.ticket = some u) : u.serial < t.serial := by
    rw [(ht t hk).2.2.1]
    exact (hv.ticket hj hu).2.2
  have hbegun {u : Ticket TokenName} (hu : v.Begun c u) : View.Begun c { v with
      registry := r
      job := Function.update v.job v.numbered (some ⟨k, Hub.callToken c v.numbered, .executing⟩)
      numbered := v.numbered + 1 } u :=
    hu.mono hi (Nat.le_succ _) fun s j hs hj =>
      ⟨j, (Function.update_of_ne (Nat.ne_of_lt hs) _ _).symm.trans hj, rfl⟩
  constructor
  case keyed => exact hk
  case numbered =>
    intro s j ho
    rcases update_eq_some.1 ho with ⟨rfl, -⟩ | ⟨-, hj⟩
    · exact Nat.lt_succ_self _
    · exact Nat.lt_succ_of_lt (hv.numbered hj)
  case token =>
    intro s j ho
    rcases update_eq_some.1 ho with ⟨rfl, hj⟩ | ⟨-, hj⟩
    · cases hj; rfl
    · exact hv.token hj
  case ticket =>
    intro s j u ho hu
    rcases update_eq_some.1 ho with ⟨rfl, hj⟩ | ⟨-, hj⟩
    · cases hj
      obtain ⟨h1, h2, -, h3⟩ := ht u hu
      exact ⟨h1, h2, h3⟩
    · obtain ⟨h1, h2, h3⟩ := hv.ticket hj hu
      exact ⟨h1, h2, Nat.lt_of_lt_of_le h3 hi⟩
  case serial =>
    intro s s' j j' u u' ho ho' hu hu' he
    rcases update_eq_some.1 ho with ⟨rfl, hj⟩ | ⟨-, hj⟩ <;>
      rcases update_eq_some.1 ho' with ⟨rfl, hj'⟩ | ⟨-, hj'⟩
    · rfl
    · cases hj
      exact absurd he (Nat.ne_of_gt (hnew hu hj' hu'))
    · cases hj'
      exact absurd he (Nat.ne_of_lt (hnew hu' hj hu))
    · exact hv.serial hj hj' hu hu' he
  case entry =>
    intro u hu hc
    rcases List.mem_append.1 (he ▸ hu) with hu | hu
    · obtain ⟨s, j, hj, h⟩ := hv.entry hu hc
      exact ⟨s, j, update_eq_some.2 (.inr ⟨hold hj, hj⟩), h⟩
    · exact ⟨_, _, update_eq_some.2 (.inl ⟨rfl, rfl⟩), Option.mem_toList.1 hu, by simp⟩
  case claimed =>
    intro n hn
    exact Nat.lt_of_lt_of_le (hv.claimed (hc ▸ hn)) hi
  case fired =>
    intro s hs
    obtain ⟨h1, h2⟩ := hv.fired (hf ▸ hs)
    refine ⟨Nat.lt_succ_of_lt h1, fun j ho => ?_⟩
    rcases update_eq_some.1 ho with ⟨rfl, -⟩ | ⟨-, hj⟩
    · exact absurd h1 (Nat.lt_irrefl _)
    · exact hc ▸ h2 j hj
  case handlers => exact fun h => hv.handlers (hf ▸ h)
  case shut => exact fun h => hf ▸ hv.shut h
  case entered =>
    intro s j u ho hu hx hm
    change _ ∉ r.claimed
    rw [hc]
    rcases update_eq_some.1 ho with ⟨rfl, hj⟩ | ⟨-, hj⟩
    · cases hj
      -- its number has not been claimed, since none that has yet to be issued is
      refine fun h => Nat.lt_irrefl (v.registry.issued.count c) ?_
      exact (ht u hu).2.2.1 ▸ hv.claimed h
    · rcases List.mem_append.1 (he ▸ hm) with hm | hm
      · exact hv.entered hj hu hx hm
      · exact absurd (hnew (Option.mem_toList.1 hm) hj hu) (Nat.lt_irrefl _)
  case unresolved =>
    intro s j u ho hu hx hn
    change u ∈ r.entries ∨ _
    rw [he, List.mem_append, Option.mem_toList]
    rcases update_eq_some.1 ho with ⟨rfl, hj⟩ | ⟨-, hj⟩
    · cases hj
      exact .inl (.inr hu)
    · exact (hv.unresolved hj hu hx fun h => hn (hc ▸ h)).imp_left .inl
  case concluded =>
    intro s j u ho hu hx
    rcases update_eq_some.1 ho with ⟨rfl, hj⟩ | ⟨-, hj⟩
    · cases hj
      exact absurd rfl hx
    · exact hc ▸ hv.concluded hj hu hx
  case replying =>
    intro s j m ho hm
    rcases update_eq_some.1 ho with ⟨rfl, hj⟩ | ⟨-, hj⟩
    · cases hj; cases hm
    · exact hv.replying hj hm
  case doomed =>
    intro u hu
    obtain ⟨hb, hapart⟩ := hv.doomed hu
    refine ⟨hbegun hb, fun t hm htc => ?_⟩
    rcases List.mem_append.1 (he ▸ hm) with hm | hm
    · exact hapart t hm htc
    · rw [(ht t (Option.mem_toList.1 hm)).2.2.1]
      exact Nat.ne_of_gt hb.2.1
  case firing => exact fun h => ⟨hbegun (hv.firing h).1, hc ▸ (hv.firing h).2⟩

theorem notified (hv : v.Sound c) : ({ v with
    job := Function.update v.job v.numbered (some ⟨none, Hub.callToken c v.numbered, .executing⟩)
    numbered := v.numbered + 1 } : View).Sound c :=
  hv.added hv.keyed (by simp) rfl rfl (Nat.le_refl _) (by simp)

theorem begun {id : RequestId} {t : Ticket TokenName} (hv : v.Sound c)
    (hb : v.registry.begin? c id (Hub.callToken c v.numbered) = some (r, t)) : ({ v with
      registry := r
      job := Function.update v.job v.numbered
        (some ⟨some t, Hub.callToken c v.numbered, .executing⟩)
      numbered := v.numbered + 1 } : View).Sound c := by
  have hk := hv.keyed.begin? hb
  obtain ⟨-, rfl, rfl⟩ := InFlight.begin?_eq_some.1 hb
  exact hv.added hk rfl rfl rfl (by simp) (by simp)

/-- The entry of a call that executes is not the one that somebody has claimed. -/
theorem not_claimed {s : Nat} {j : Job} {t u : Ticket TokenName} (hv : v.Sound c)
    (hj : v.job s = some j) (hu : j.ticket = some u) (he : j.stage = .executing)
    (hm : u ∈ v.registry.entries) (ht : t ∈ v.registry.entries)
    (hc : (c, t.serial) ∈ v.registry.claimed) (hk : u.connection = t.connection ∧ u.id = t.id) :
    False := by
  obtain rfl : u = t := hv.keyed.eq hm ht hk.1 hk.2
  exact hv.entered hj hu he hm hc

theorem missed {id : RequestId} (hv : v.Sound c) (hc : v.registry.cancel c id = (r, false)) :
    ({ v with registry := r } : View).Sound c := by
  rcases InFlight.cancel_eq_false hc with ⟨-, rfl⟩ | ⟨t, hl, ht, rfl⟩
  · exact hv
  · obtain ⟨hm, rfl, rfl⟩ := InFlight.lookup_some hl
    rw [InFlight.isClaimed_iff] at ht
    exact { hv with
      keyed := hv.keyed.erase
      entry := fun hu hc => hv.entry (InFlight.mem_entries_erase.1 hu).1 hc
      entered := fun hj hu he h => hv.entered hj hu he (InFlight.mem_entries_erase.1 h).1
      unresolved := fun {s j u} hj hu he hc => by
        refine (hv.unresolved hj hu he hc).imp_left fun h => ?_
        exact InFlight.mem_entries_erase.2 ⟨h, hv.not_claimed hj hu he h hm ht⟩
      doomed := fun hu => ⟨(hv.doomed hu).1, fun t ht =>
        (hv.doomed hu).2 t (InFlight.mem_entries_erase.1 ht).1⟩ }

theorem cancelled {id : RequestId} (hv : v.Sound c) (hc : v.registry.cancel c id = (r, true)) :
    ({ v with registry := r } : View).Sound c := by
  obtain ⟨t, hl, ht, rfl⟩ := InFlight.cancel_eq_true hc
  obtain ⟨hm, htc, hid⟩ := InFlight.lookup_some hl
  obtain ⟨s₀, j₀, hj₀, ht₀, -⟩ := hv.entry hm htc
  obtain ⟨-, hname, hissued⟩ := hv.ticket hj₀ ht₀
  have hclaimed {n : Nat} :
      (c, n) ∈ v.registry.claimed ++ [(t.connection, t.serial)] ↔
        (c, n) ∈ v.registry.claimed ∨ n = t.serial := by
    simp [htc]
  exact { hv with
    keyed := hv.keyed.erase
    entry := fun hu hc => hv.entry (InFlight.mem_entries_erase.1 hu).1 hc
    claimed := fun {n} hn => by
      rcases List.mem_append.1 hn with hn | hn
      · exact hv.claimed hn
      · obtain ⟨-, rfl⟩ := Prod.mk.inj (List.mem_singleton.1 hn)
        exact hissued
    fired := fun {s} hs => by
      rcases InFlight.mem_fired_fire.1 hs with hs | hs
      · refine ⟨(hv.fired hs).1, fun j hj => ?_⟩
        obtain ⟨u, hu, hcu⟩ := (hv.fired hs).2 j hj
        exact ⟨u, hu, List.mem_append_left _ hcu⟩
      · obtain rfl : s = s₀ := by
          rw [hname] at hs
          simpa [Hub.callToken, Flow.Token.child] using hs
        refine ⟨hv.numbered hj₀, fun j hj => ?_⟩
        obtain rfl : j₀ = j := Option.some.inj (hj₀.symm.trans hj)
        exact ⟨t, ht₀, by simp [htc]⟩
    handlers := fun hs => by
      rcases InFlight.mem_fired_fire.1 hs with hs | hs
      · exact hv.handlers hs
      · rw [hname] at hs
        simp [Hub.callToken, Flow.Token.child] at hs
    shut := fun hs => InFlight.mem_fired_fire.2 (.inl (hv.shut hs))
    entered := fun {s j u} hj hu he hmem hn => by
      obtain ⟨hmem, hk⟩ := InFlight.mem_entries_erase.1 hmem
      rcases hclaimed.1 hn with hn | hs
      · exact hv.entered hj hu he hmem hn
      · obtain ⟨-, -, rfl⟩ := hv.job_unique hj hj₀ hu ht₀ hs
        exact hk ⟨htc, hid⟩
    unresolved := fun {s j u} hj hu he hn => by
      refine (hv.unresolved hj hu he fun h => hn (hclaimed.2 (.inl h))).imp_left fun h => ?_
      refine InFlight.mem_entries_erase.2 ⟨h, fun hk => hn (hclaimed.2 (.inr ?_))⟩
      rw [hv.keyed.eq h hm (hk.1.trans htc.symm) (hk.2.trans hid.symm)]
    concluded := fun hj hu he => List.mem_append_left _ (hv.concluded hj hu he)
    doomed := fun hu => ⟨(hv.doomed hu).1, fun t ht =>
      (hv.doomed hu).2 t (InFlight.mem_entries_erase.1 ht).1⟩
    firing := fun h => ⟨(hv.firing h).1, hclaimed.2 (.inl (hv.firing h).2)⟩ }

/-- Calls come to an end or go on with the tickets and the names that they had. -/
theorem carried (hv : v.Sound c)
    (hjob : ∀ {s j}, w.job s = some j →
      ∃ i, v.job s = some i ∧ j.ticket = i.ticket ∧ j.token = i.token)
    (hnumbered : w.numbered = v.numbered) (hshut : w.shut = v.shut) (hpurge : w.purge = v.purge)
    (hissued : w.registry.issued = v.registry.issued)
    (hfired : w.registry.fired = v.registry.fired)
    (hmono : ∀ {n}, (c, n) ∈ v.registry.claimed → (c, n) ∈ w.registry.claimed)
    (keyed : w.registry.Keyed)
    (hentries : w.registry.entries ⊆ v.registry.entries)
    (entry : ∀ {t}, t ∈ w.registry.entries → t.connection = c →
      ∃ s j, w.job s = some j ∧ j.ticket = some t ∧ ∀ m, j.stage ≠ .replying m)
    (claimed : ∀ {n}, (c, n) ∈ w.registry.claimed → n < v.registry.issued.count c)
    (entered : ∀ {s j t}, w.job s = some j → j.ticket = some t → j.stage = .executing →
      t ∈ w.registry.entries → (c, t.serial) ∉ w.registry.claimed)
    (unresolved : ∀ {s j t}, w.job s = some j → j.ticket = some t → j.stage = .executing →
      (c, t.serial) ∉ w.registry.claimed → t ∈ w.registry.entries ∨ t ∈ v.purge.doomed)
    (concluded : ∀ {s j t}, w.job s = some j → j.ticket = some t → j.stage ≠ .executing →
      (c, t.serial) ∈ w.registry.claimed)
    (replying : ∀ {s j m}, w.job s = some j → j.stage = .replying m →
      ∃ t x, j.ticket = some t ∧ m = .response x ∧ x.id = t.id) : w.Sound c where
  keyed := keyed
  numbered := fun ho => by
    obtain ⟨i, hi, -⟩ := hjob ho
    exact hnumbered ▸ hv.numbered hi
  token := fun ho => by
    obtain ⟨i, hi, -, hname⟩ := hjob ho
    exact hname.trans (hv.token hi)
  ticket := fun ho ht => by
    obtain ⟨i, hi, hticket, -⟩ := hjob ho
    exact hissued ▸ hv.ticket hi (hticket ▸ ht)
  serial := fun ho ho' ht ht' he => by
    obtain ⟨i, hi, hticket, -⟩ := hjob ho
    obtain ⟨i', hi', hticket', -⟩ := hjob ho'
    exact hv.serial hi hi' (hticket ▸ ht) (hticket' ▸ ht') he
  entry := entry
  claimed := fun h => hissued ▸ claimed h
  fired := fun {s} hs => by
    obtain ⟨hlt, hclaimed⟩ := hv.fired (hfired ▸ hs)
    refine ⟨hnumbered ▸ hlt, fun j ho => ?_⟩
    obtain ⟨i, hi, hticket, -⟩ := hjob ho
    obtain ⟨t, ht, hct⟩ := hclaimed i hi
    exact ⟨t, hticket.trans ht, hmono hct⟩
  handlers := fun h => hpurge.trans (hv.handlers (hfired ▸ h))
  shut := fun h => hfired ▸ hv.shut (hshut ▸ h)
  entered := entered
  unresolved := fun hj ht he hc => hpurge ▸ unresolved hj ht he hc
  concluded := concluded
  replying := replying
  doomed := fun h => by
    rw [hpurge] at h
    exact ⟨(hv.doomed h).1.mono (Nat.le_of_eq (by rw [hissued])) (Nat.le_of_eq hnumbered.symm)
      fun s j _ hj => (hjob hj).imp fun _ h => ⟨h.1, h.2.1⟩,
      fun u hu => (hv.doomed h).2 u (hentries hu)⟩
  firing := fun h => by
    rw [hpurge] at h
    exact ⟨(hv.firing h).1.mono (Nat.le_of_eq (by rw [hissued])) (Nat.le_of_eq hnumbered.symm)
      fun s j _ hj => (hjob hj).imp fun _ h => ⟨h.1, h.2.1⟩, hmono (hv.firing h).2⟩

end View.Sound

end Parley.Dispatch
