import Parley.Proofs.Dispatch.Owed

namespace Parley.Dispatch

namespace View

variable {c : ConnectionId} {v w : View} {a : Ledger}

namespace Balanced

theorem turned {s : Nat} {j : Job} {r : InFlight TokenName} {o : Option Job} (hv : v.Sound c)
    (hb : v.Balanced c a) (hj : v.job s = some j) (ho : ∀ i, o = some i → i.ticket = j.ticket)
    (hc : ∀ n, (c, n) ∈ v.registry.claimed → (c, n) ∈ r.claimed)
    (hnew : ∀ n, (c, n) ∈ r.claimed →
      (c, n) ∈ v.registry.claimed ∨ ∃ t, j.ticket = some t ∧ t.serial = n)
    (hset : ∀ t i, j.ticket = some t → o = some i → j.stage = .executing →
      (c, t.serial) ∈ v.registry.claimed → i.stage = .executing)
    (huns : ∀ t, j.ticket = some t → (j.stage = .executing → (c, t.serial) ∉ v.registry.claimed) →
      ∃ i, o = some i ∧ (i.stage = .executing → (c, t.serial) ∉ r.claimed)) :
    ({ v with registry := r, job := Function.update v.job s o } : View).Balanced c a := by
  constructor
  case known => exact hb.known.turn hj ho rfl rfl
  case due => exact hb.due
  case answers => exact hb.answers
  case nodup => exact hb.nodup
  case settled =>
    intro n q s' i hn hs hi
    rcases update_eq_some.1 hi with ⟨rfl, ho'⟩ | ⟨-, hi'⟩
    · obtain ⟨he, t, ht, htc⟩ := hb.settled hn hs hj
      exact ⟨hset t i ht ho' he htc, t, (ho i ho').trans ht, hc _ htc⟩
    · obtain ⟨he, t, ht, htc⟩ := hb.settled hn hs hi'
      exact ⟨he, t, ht, hc _ htc⟩
  case unsettled =>
    intro n q k hn hs
    obtain ⟨s', i, t, rfl, hi, ht, h⟩ := hb.unsettled hn hs
    by_cases hss : s' = s
    · subst hss
      obtain rfl : j = i := Option.some.inj (hj.symm.trans hi)
      obtain ⟨i, ho', hi'⟩ := huns t ht h
      exact ⟨s', i, t, rfl, update_eq_some.2 (.inl ⟨rfl, ho'⟩), (ho i ho').trans ht, hi'⟩
    · refine ⟨s', i, t, rfl, update_eq_some.2 (.inr ⟨hss, hi⟩), ht, fun he htc => ?_⟩
      rcases hnew _ htc with htc | ⟨u, hu, hut⟩
      · exact h he htc
      · exact hss (hv.serial hi hj ht hu hut.symm)

theorem answering {s : Nat} {j : Job} {x : Response} (hv : v.Sound c) (hb : v.Balanced c a)
    (hj : v.job s = some j) (hx : j.stage = .replying (.response x)) :
    ({ v with job := Function.update v.job s none, responses := v.responses ++ [x] } :
      View).Balanced c (a.post (.call s)) := by
  obtain ⟨t, y, ht, hm, hy⟩ := hv.replying hj hx
  cases hm
  obtain ⟨n, q, hn, hq⟩ := hb.known.job hj ht
  have hns : ¬v.Settled a n := fun h => by
    have := (hb.settled hn h hj).1
    rw [hx] at this
    cases this
  have hset {k : Nat} : ({ v with
      job := Function.update v.job s none, responses := v.responses ++ [x] } : View).Settled
        { a with answers := a.answers ++ [n] } k ↔ v.Settled a k ∨ k = n := by
    simp only [Settled, List.mem_append, List.mem_singleton]
    grind
  simp only [Ledger.post, hb.known.numberOf_eq hn, Option.toList_some]
  constructor
  case known =>
    have hk : ({ v with job := Function.update v.job s none } : View).Known a :=
      hb.known.turn hj (by simp) rfl rfl
    exact ⟨hk.numbered, hk.unique, hk.job⟩
  case due =>
    intro m hm
    obtain ⟨k, p, o, z, hd, hk, hz, hp, hnk⟩ := hb.due hm
    refine ⟨k, p, o, z, hd, hk, hz, hp, fun h => ?_⟩
    rcases List.mem_append.1 h with h | h
    · exact hnk h
    · rw [List.mem_singleton.1 h] at hd
      exact hns (.inr ⟨⟨m, hm⟩, hd⟩)
  case answers =>
    exact List.rel_append hb.answers (.cons ⟨q, some s, hn, hy.trans hq.symm⟩ .nil)
  case nodup =>
    have hna : n ∉ a.answers := fun h => hns (.inl h)
    exact List.nodup_append.2 ⟨hb.nodup, by simp, by grind⟩
  case settled =>
    intro k p s' i hk hs hi
    rcases update_eq_some.1 hi with ⟨-, h⟩ | ⟨hss, hi⟩
    · cases h
    · rcases hset.1 hs with hs | rfl
      · exact hb.settled hk hs hi
      · cases hn.symm.trans hk
        exact absurd rfl hss
  case unsettled =>
    intro k p o hk hs
    obtain ⟨s', i, u, rfl, hi, h⟩ := hb.unsettled hk fun h => hs (hset.2 (.inl h))
    refine ⟨s', i, u, rfl, update_eq_some.2 (.inr ⟨?_, hi⟩), h⟩
    rintro rfl
    exact hs (hset.2 (.inr (hb.known.unique hk hn)))

/-- The token of a call has been fired, so its outcome has been claimed. -/
theorem claimed_of_isCancelled {s : Nat} {j : Job} (hv : v.Sound c) (hj : v.job s = some j)
    (ho : v.IsOpen c) (hc : v.registry.isCancelled j.token = true) :
    ∃ t, j.ticket = some t ∧ (c, t.serial) ∈ v.registry.claimed := by
  rw [hv.token hj, InFlight.isCancelled_iff] at hc
  rcases hc with hc | ⟨x, hx, hc⟩
  · exact (hv.fired hc).2 j hj
  · have hx : x = (c, .handlers) ∨ x = (c, .connection) := by
      simpa [Hub.callToken, Hub.stopToken, Hub.handlersToken, Flow.Token.child] using hx
    rcases hx with rfl | rfl
    · cases ho.2.symm.trans (hv.handlers hc)
    · exact absurd hc ho.1

/-- A call without an answer to give is over, or one that has claimed it settles. -/
theorem released {s : Nat} {j : Job} {o : Option Job} (hv : v.Sound c) (hb : v.Balanced c a)
    (hj : v.job s = some j) (ho : ∀ i, o = some i → i.ticket = j.ticket ∧ j.stage = .concluded)
    (hn : o = none → ∀ t, j.ticket = some t →
      j.stage = .executing ∧ (c, t.serial) ∈ v.registry.claimed)
    (hs : ∀ i, o = some i → i.stage ≠ .executing) :
    ({ v with registry := j.release v.registry, job := Function.update v.job s o } :
      View).Balanced c a := by
  have hr := j.claimed_release v.registry
  refine hb.turned hv hj (fun i hi => (ho i hi).1) (fun n h => hr ▸ h) (fun n h => .inl (hr ▸ h)) ?_ ?_
  · intro t i _ hi he _
    rw [(ho i hi).2] at he
    cases he
  · intro t ht h
    cases o with
    | none => exact absurd (hn rfl t ht).2 (h (hn rfl t ht).1)
    | some i => exact ⟨i, rfl, fun he => absurd he (hs i rfl)⟩

theorem concluding {s : Nat} {j : Job} (hv : v.Sound c) (hb : v.Balanced c a)
    (hj : v.job s = some j) (hc : ∀ t, j.ticket = some t → v.registry.isClaimed t = false) :
    ({ v with
      registry := j.claim v.registry
      job := Function.update v.job s (some { j with stage := .concluded }) } :
        View).Balanced c a := by
  have hr (n : Nat) : (c, n) ∈ (j.claim v.registry).claimed ↔
      (c, n) ∈ v.registry.claimed ∨ ∃ t, j.ticket = some t ∧ t.serial = n := by
    cases ht : j.ticket with
    | none => simp [Job.claim, ht]
    | some t => simp [Job.claim, ht, InFlight.claim_eq, hc t ht, (hv.ticket hj ht).1, eq_comm]
  refine hb.turned hv hj (fun i hi => by cases hi; rfl) (fun n h => (hr n).2 (.inl h))
    (fun n => (hr n).1) ?_ ?_
  · intro t i ht _ _ htc
    have h := hc t ht
    rw [Bool.eq_false_iff, Ne, InFlight.isClaimed_iff, (hv.ticket hj ht).1] at h
    exact absurd htc h
  · exact fun t ht _ => ⟨_, rfl, by simp⟩

theorem turn {s : Nat} {j : Job} {r : InFlight TokenName} {o : Option Job} {x : Option Response}
    (hv : v.Sound c) (hb : v.Balanced c a) (hj : v.job s = some j)
    (ho : v.IsOpen c) (ht : Turn v.registry v.shut j r o x) :
    ({ v with
      registry := r
      job := Function.update v.job s o
      responses := v.responses ++ x.toList } : View).Balanced c
        (if x.isSome then a.post (.call s) else a) := by
  cases ht with
  | moved =>
      rw [← hj, Function.update_eq_self]
      simpa using hb
  | abandoned he hc =>
      obtain ⟨t, ht, htc⟩ := claimed_of_isCancelled hv hj ho hc
      have h := hb.released hv hj (o := none) (by simp) (fun _ u hu => ?_) (by simp)
      · simpa using h
      · cases ht.symm.trans hu
        exact ⟨he, htc⟩
  | discarded he ht hc =>
      have h := hb.released hv hj (o := none) (by simp) (fun _ u hu => ?_) (by simp)
      · simpa using h
      · cases ht.symm.trans hu
        rw [InFlight.isClaimed_iff, (hv.ticket hj ht).1] at hc
        exact ⟨he, hc⟩
  | concluded he hc => simpa using hb.concluding hv hj hc
  | @settled t x he =>
      have h := hb.released hv hj (o := some { j with stage := .replying (.response x) })
        (by simp [he]) (by simp) (by simp)
      simpa using h
  | finished he ht =>
      have h := hb.released hv hj (o := none) (by simp) (by simp [ht]) (by simp)
      rw [hv.release_eq hj (.inl ht)] at h
      simpa using h
  | answered hx => exact hb.answering hv hj hx
  | lost _ hs => exact absurd (hv.shut hs) ho.1

theorem intake {m : Message} (hv : v.Sound c) (hb : v.Balanced c a) (hp : v.pump = .taking)
    (hw : Intake c v m w) : w.Balanced c (a.after c v w (.take m)) := by
  have hk (s : Nat) (j : Job) (t : Ticket TokenName) (hj : v.job s = some j)
      (ht : j.ticket = some t) : ∃ i, v.job s = some i ∧ i.ticket = some t := ⟨j, hj, ht⟩
  cases hw with
  | passed hm =>
      have h := hb.silent hm (hb.known.take (o := none) (Nat.le_refl _) (by simp)
        fun s j t hj ht => .inl (hk s j t hj ht)) hp hp rfl rfl fun _ _ => rfl
      simpa [Ledger.after, Ledger.take, hp, Pump.isReplying] using h
  | notified hm =>
      have h := hb.silent (w := { v with
        job := Function.update v.job v.numbered
          (some ⟨none, Hub.callToken c v.numbered, .executing⟩)
        numbered := v.numbered + 1 }) hm (o := some v.numbered)
        (hb.known.take (Nat.le_succ _) (by simp) fun s j t hj ht => ?_) hp hp rfl rfl
        fun s hs => Function.update_of_ne (Nat.ne_of_lt hs) _ _
      · simpa [Ledger.after, Ledger.take, hp, Pump.isReplying] using h
      · rcases update_eq_some.1 hj with ⟨-, h⟩ | ⟨-, h⟩
        · cases h; cases ht
        · exact .inl (hk s j t h ht)
  | @refused q b =>
      have h := hb.refused hp (q := q) (x := ⟨q.id, .error b⟩) rfl
      simpa [Ledger.after, Ledger.take, Ledger.subject, Pump.isReplying] using h
  | begun hr =>
      have h := hb.begun hv hp hr
      simpa [Ledger.after, Ledger.take, hp, Pump.isReplying] using h
  | @cancelled n id r hn ht hc =>
      obtain ⟨k, s, t, hl, htok, hs, h⟩ := hb.cancelled hv hp (x := ⟨id, .error .cancelled⟩) rfl
        (m := .notification n) (by simp) hc
      have hsub : a.subject v.registry c (.notification n) = some k := by
        simp [Ledger.subject, ht, hl, htok, Hub.callToken, Flow.Token.child, hs]
      simpa [Ledger.after, Ledger.take, Pump.isReplying, hsub] using h
  | @missed n id r hn ht hc =>
      have hcl : r.claimed = v.registry.claimed := by
        rcases InFlight.cancel_eq_false hc with ⟨-, rfl⟩ | ⟨t, -, -, rfl⟩ <;> rfl
      have h := hb.silent (w := { v with registry := r }) (m := .notification n) (by simp)
        (hb.known.take (o := none) (Nat.le_refl _) (by simp)
          fun s j t hj ht => .inl (hk s j t hj ht)) hp hp rfl hcl fun _ _ => rfl
      simpa [Ledger.after, Ledger.take, hp, Pump.isReplying] using h

theorem pumped {p : Pump} (hb : v.Balanced c a) (hv : ∀ m, v.pump ≠ .replying m)
    (hp : ∀ m, p ≠ .replying m) : ({ v with pump := p } : View).Balanced c a := by
  refine ⟨hb.known.congr (Nat.le_refl _) rfl rfl, fun h => absurd h (hp _), hb.answers, hb.nodup,
    fun hn hs hj => ?_, fun hn hs => ?_⟩
  · exact hb.settled hn (.inl (hs.of_not_replying hp)) hj
  · exact hb.unsettled hn fun h => hs (.inl (h.of_not_replying hv))

/-- Every change of a connection that is open keeps its ledger balanced. -/
theorem change {e : Deed} (hv : v.Sound c) (hb : v.Balanced c a) (hc : Change c v e w)
    (ho : w.IsOpen c) : w.Balanced c (a.after c v w e) := by
  have hov := hc.isOpen ho
  cases hc with
  | idle hn =>
      exact ⟨hb.known.congr hn rfl rfl,
        hb.due, hb.answers, hb.nodup, hb.settled, hb.unsettled⟩
  | told | broken => exact absurd (InFlight.mem_fired_fire.2 (.inr rfl)) ho.1
  | shut hs => exact absurd hs ho.1
  | withdrawn | seized | struck | emptied | dismissed => cases ho.2
  | ended hp | received hp => exact hb.pumped (by simp [hp]) (by simp)
  | @handled m _ hp hw =>
      have hvt := hv.congr (w := { v with pump := .taking }) rfl rfl (Nat.le_refl _) rfl hv.shut
      have hbt := hb.pumped (p := .taking) (by simp [hp]) (by simp)
      have h := hbt.intake hvt rfl hw
      exact h
  | posted hp => exact hb.posted hp
  | unsent hp hs => exact absurd (hv.shut hs) ho.1
  | @turned s j r o x hj ht =>
      have h := hb.turn hv hj hov ht
      cases x <;> exact h

theorem read (hb : v.Balanced c a) (read : List Message) : v.Balanced c { a with read } :=
  ⟨hb.known.congr (Nat.le_refl _) rfl rfl, hb.due, hb.answers, hb.nodup, hb.settled,
    hb.unsettled⟩

end Balanced

end View

end Parley.Dispatch
