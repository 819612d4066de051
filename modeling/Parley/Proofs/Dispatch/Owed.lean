import Parley.Proofs.Dispatch.Known

namespace Parley.Dispatch

namespace View

variable {c : ConnectionId} {v w : View} {a : Ledger}

namespace Balanced

theorem silent {m : Message} {o : Option Nat} (hb : v.Balanced c a) (hm : ∀ q, m ≠ .request q)
    (hk : w.Known { a with taken := a.taken ++ [(m, o)], due := none }) (hp : v.pump = .taking)
    (hwp : w.pump = .taking) (hr : w.responses = v.responses)
    (hc : w.registry.claimed = v.registry.claimed)
    (hj : ∀ s, s < v.numbered → w.job s = v.job s) :
    w.Balanced c { a with taken := a.taken ++ [(m, o)], due := none } := by
  have hold {n : Nat} {q : Request} {o' : Option Nat}
      (h : (a.taken ++ [(m, o)])[n]? = some (.request q, o')) :
      a.taken[n]? = some (.request q, o') := by
    rcases getElem?_concat_eq_some.1 h with h | ⟨-, h, -⟩
    · exact h
    · exact absurd h (hm q)
  refine ⟨hk, by simp [hwp], hr ▸ hb.answers_concat, hb.nodup, ?_, ?_⟩
  · intro n q s j hn hs hws
    have hn := hold hn
    rw [hj s (hb.known.numbered hn)] at hws
    rw [hc]
    exact hb.settled hn (.inl (hs.of_not_replying (by simp [hwp]))) hws
  · intro n q o' hn hs
    obtain ⟨s, j, t, rfl, h⟩ := hb.unsettled (hold hn) fun h =>
      hs (.inl (h.of_not_replying (by simp [hp])))
    rw [← hj s (hb.known.numbered (hold hn)), ← hc] at h
    exact ⟨s, j, t, rfl, h⟩

theorem refused {q : Request} {x : Response} (hb : v.Balanced c a) (hp : v.pump = .taking)
    (hx : x.id = q.id) : ({ v with pump := .replying (.response x) } : View).Balanced c
      { a with taken := a.taken ++ [(.request q, none)], due := some a.taken.length } := by
  have hlt {n : Nat} (hn : n ∈ a.answers) : n ≠ a.taken.length :=
    Nat.ne_of_lt (hb.answered_lt hn)
  constructor
  case known => exact hb.known.take (Nat.le_refl _) (by simp) fun s j t hj ht => .inl ⟨j, hj, ht⟩
  case due =>
    intro m hm
    exact ⟨_, q, none, x, rfl, getElem?_concat_eq_some.2 (.inr ⟨rfl, rfl, rfl⟩),
      (Pump.replying.inj hm).symm, hx, fun hn => hlt hn rfl⟩
  case answers => exact hb.answers_concat
  case nodup => exact hb.nodup
  case settled =>
    intro n r s j hn hs hj
    rcases getElem?_concat_eq_some.1 hn with hn | ⟨-, -, h⟩
    · refine hb.settled hn (.inl (hs.resolve_right fun h => ?_)) hj
      exact Nat.ne_of_gt (List.getElem?_eq_some_iff.1 hn).1 (Option.some.inj h.2)
    · cases h
  case unsettled =>
    intro n r o hn hs
    rcases getElem?_concat_eq_some.1 hn with hn | ⟨rfl, -⟩
    · exact hb.unsettled hn fun h => hs (.inl (h.of_not_replying (by simp [hp])))
    · exact absurd (.inr ⟨⟨_, rfl⟩, rfl⟩) hs

theorem begun {q : Request} {t : Ticket TokenName} {r : InFlight TokenName} (hv : v.Sound c)
    (hb : v.Balanced c a) (hp : v.pump = .taking)
    (hr : v.registry.begin? c q.id (Hub.callToken c v.numbered) = some (r, t)) : ({ v with
      registry := r
      job := Function.update v.job v.numbered
        (some ⟨some t, Hub.callToken c v.numbered, .executing⟩)
      numbered := v.numbered + 1 } : View).Balanced c
        { a with taken := a.taken ++ [(.request q, some v.numbered)], due := none } := by
  obtain ⟨-, ht, rfl⟩ := InFlight.begin?_eq_some.1 hr
  have hold {s : Nat} (o : Option Job) (hs : s < v.numbered) :
      Function.update v.job v.numbered o s = v.job s :=
    Function.update_of_ne (Nat.ne_of_lt hs) _ _
  have hset {n : Nat} (h : v.Settled a n) : n ∈ a.answers := h.of_not_replying (by simp [hp])
  constructor
  case known =>
    refine hb.known.take (Nat.le_succ _) (by simp) fun s j u hj hu => ?_
    rcases update_eq_some.1 hj with ⟨rfl, h⟩ | ⟨-, h⟩
    · cases h; cases hu
      exact .inr ⟨rfl, q, rfl, by simp [ht]⟩
    · exact .inl ⟨j, h, hu⟩
  case due => intro m hm; rw [hp] at hm; cases hm
  case answers => exact hb.answers_concat
  case nodup => exact hb.nodup
  case settled =>
    intro n p s j hn hs hj
    have hs : n ∈ a.answers := hs.of_not_replying (by simp [hp])
    rcases getElem?_concat_eq_some.1 hn with hn | ⟨rfl, -⟩
    · exact hb.settled hn (.inl hs) ((hold _ (hb.known.numbered hn)).symm.trans hj)
    · exact absurd (hb.answered_lt hs) (Nat.lt_irrefl _)
  case unsettled =>
    intro n p o hn hs
    rcases getElem?_concat_eq_some.1 hn with hn | ⟨-, -, rfl⟩
    · obtain ⟨s, j, u, rfl, hj, h⟩ := hb.unsettled hn fun h => hs (.inl (hset h))
      exact ⟨s, j, u, rfl, (hold _ (hb.known.numbered hn)).trans hj, h⟩
    · refine ⟨_, _, t, rfl, update_eq_some.2 (.inl ⟨rfl, rfl⟩), rfl, fun _ hc => ?_⟩
      have := hv.claimed hc
      simp [ht] at this

/-- A request that is cancelled is answered by the pump, and its call has nothing to say. -/
theorem cancelled {m : Message} {id : RequestId} {r : InFlight TokenName} {x : Response}
    (hv : v.Sound c) (hb : v.Balanced c a) (hp : v.pump = .taking) (hx : x.id = id)
    (hm : ∀ q, m ≠ .request q) (hr : v.registry.cancel c id = (r, true)) :
    ∃ n s t, v.registry.lookup c id = some t ∧ t.token = Hub.callToken c s ∧
      a.numberOf s = some n ∧
      ({ v with registry := r, pump := .replying (.response x) } : View).Balanced c
        { a with taken := a.taken ++ [(m, none)], due := some n } := by
  obtain ⟨s, j, t, hl, hj, ht, hc, htc, hid, rfl⟩ := hv.of_cancel hr
  obtain ⟨hnc, hst⟩ := hv.unclaimed hj ht hc
  obtain ⟨n, q, hn, hq⟩ := hb.known.job hj ht
  have hset {n : Nat} (h : v.Settled a n) : n ∈ a.answers := h.of_not_replying (by simp [hp])
  have hnn : n ∉ a.answers := fun h => by
    obtain ⟨-, u, hu, huc⟩ := hb.settled hn (.inl h) hj
    cases ht.symm.trans hu
    exact hnc huc
  refine ⟨n, s, t, hl, (hv.ticket hj ht).2.1, hb.known.numberOf_eq hn, ?_⟩
  have hold {k : Nat} {p : Request} {o : Option Nat}
      (h : (a.taken ++ [(m, (none : Option Nat))])[k]? = some (.request p, o)) :
      a.taken[k]? = some (.request p, o) := by
    rcases getElem?_concat_eq_some.1 h with h | ⟨-, h, -⟩
    · exact h
    · exact absurd h (hm p)
  constructor
  case known => exact hb.known.take (Nat.le_refl _) (by simp) fun s j t hj ht => .inl ⟨j, hj, ht⟩
  case due =>
    intro y hy
    exact ⟨n, q, some s, x, rfl, getElem?_concat_eq_some.2 (.inl hn), (Pump.replying.inj hy).symm,
      hx.trans (hid.symm.trans hq.symm), hnn⟩
  case answers => exact hb.answers_concat
  case nodup => exact hb.nodup
  case settled =>
    intro k p s' i hk hs hi
    rcases hs with hs | ⟨-, hs⟩
    · obtain ⟨h, u, hu, huc⟩ := hb.settled (hold hk) (.inl hs) hi
      exact ⟨h, u, hu, List.mem_append_left _ huc⟩
    · obtain rfl : n = k := Option.some.inj hs
      cases hn.symm.trans (hold hk)
      obtain rfl : j = i := Option.some.inj (hj.symm.trans hi)
      exact ⟨hst, t, ht, by simp [htc]⟩
  case unsettled =>
    intro k p o hk hs
    obtain ⟨s', i, u, rfl, hi, hu, h⟩ := hb.unsettled (hold hk) fun h => hs (.inl (hset h))
    refine ⟨s', i, u, rfl, hi, hu, fun he hc => ?_⟩
    rcases List.mem_append.1 hc with hc | hc
    · exact h he hc
    · have hse : u.serial = t.serial := by simpa [htc] using hc
      obtain rfl := hv.serial hi hj hu ht hse
      obtain rfl := hb.known.unique hn (hold hk)
      exact hs (.inr ⟨⟨_, rfl⟩, rfl⟩)

theorem posted {x : Response} (hb : v.Balanced c a) (hp : v.pump = .replying (.response x)) :
    ({ v with pump := .taking, responses := v.responses ++ [x] } : View).Balanced c
      (a.post .requests) := by
  obtain ⟨n, q, o, y, hd, hn, hm, hy, hnn⟩ := hb.due hp
  cases hm
  simp only [Ledger.post, hd, Option.toList_some]
  have hset {k : Nat} : v.Settled a k ↔ k ∈ a.answers ++ [n] := by
    simp [Settled, hp, hd, eq_comm]
  constructor
  case known => exact hb.known.congr (Nat.le_refl _) rfl rfl
  case due => intro m hm; cases hm
  case answers => exact List.rel_append hb.answers (.cons ⟨q, o, hn, hy⟩ .nil)
  case nodup => exact List.nodup_append.2 ⟨hb.nodup, by simp, by grind⟩
  case settled =>
    intro k p s j hk hs hj
    exact hb.settled hk (hset.2 (hs.of_not_replying (by simp))) hj
  case unsettled =>
    intro k p o hk hs
    exact hb.unsettled hk fun h => hs (.inl (hset.1 h))

end Balanced

end View

end Parley.Dispatch
