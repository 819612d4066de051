import Parley.Proofs.Dispatch.Stage
import Parley.Proofs.Dispatch.Tally

namespace Parley.Dispatch

variable {c : ConnectionId} {v w : View} {e : Deed} {s : Nat}

/-- Without a request pump, responses come from calls, and not from those that have been given up.
-/
theorem Change.deed_of_done (hc : Change c v e w) (hv : v.Sound c) (hp : v.pump = .done)
    (hg : v.GivenUp c s) : e = .nothing ∨ ∃ s', s' ≠ s ∧ e = .post (.call s') := by
  obtain ⟨-, hnt, hnp⟩ := hc.pump_done hp
  cases hc with
  | handled => exact absurd rfl (hnt _)
  | posted => exact absurd rfl hnp
  | @turned s' j r o x hj ht =>
      cases x with
      | none => exact .inl rfl
      | some x =>
          refine .inr ⟨s', ?_, rfl⟩
          rintro rfl
          cases (hg.turn hv hj ht).1
  | _ => exact .inl rfl

/-- By its next step the supervisor is done with the call `s`: it seizes the request of the call, or it
withdraws the requests and that is not among them. -/
def Link.Clearing (h : Hub) (l : Link) (s : Nat) : Prop :=
  (∃ t ts, l.supervisor = .seizing (t :: ts) ∧ t.token = Hub.callToken l.id s) ∨
    l.supervisor = .withdrawing ∧
      ∀ t ∈ h.inflight.ofConnection l.id, t.token ≠ Hub.callToken l.id s

theorem Link.clearing_of_stepSupervisor {h h' : Hub} {l l' : Link}
    (hstep : l.stepSupervisor h = some (h', l')) (hs : 4 ≤ l'.supervisor.stage)
    (hd : ∀ t ∈ l'.supervisor.purge.doomed, t.token ≠ Hub.callToken l.id s)
    (hn : ¬(4 ≤ l.supervisor.stage ∧
      ∀ t ∈ l.supervisor.purge.doomed, t.token ≠ Hub.callToken l.id s)) : l.Clearing h s := by
  cases stepSupervisor_course hstep with
  | reader | requests | responses => simp [Supervisor.stage] at hs
  | withdrawn hw => exact .inr ⟨hw, hd⟩
  | @seized u us hw =>
      rw [hw] at hn
      refine .inl ⟨u, us, hw, Classical.byContradiction fun hu => hn ⟨Nat.le_refl _, fun t ht => ?_⟩⟩
      rcases List.mem_cons.1 ht with rfl | ht
      · exact hu
      · exact hd t ht
  | fired hw =>
      rw [hw] at hn
      exact absurd ⟨Nat.le_refl _, hd⟩ hn
  | emptied hw | closed hw | dismissed hw | stopped hw | writer hw =>
      simp [hw, Supervisor.stage, Supervisor.purge, Purge.doomed] at hn

end Parley.Dispatch

namespace Parley.Dispatcher

open Dispatch

variable {c : ConnectionId} {l m : Link} {n s : Nat} {t : Ticket TokenName}
  {ts : List (Ticket TokenName)} {x y z : Dispatcher × Ledger}

structure Clears (c : ConnectionId) (s : Nat) (x y : Dispatcher × Ledger) : Prop where
  clearing : ∃ l, x.1.link? c = some l ∧ l.Clearing x.1.hub s
  step : x.1.step (c, .supervisor) = some y.1
  account : y.2 = account c x.2 x.1 y.1 (some (c, .supervisor))

structure Silenced (c : ConnectionId) (n s : Nat) (x : Dispatcher × Ledger) : Prop where
  linked : ∃ l, x.1.link? c = some l ∧ l.requests = .done ∧ (l.view x.1.hub).GivenUp c s
  taken : ∃ m, x.2.taken[n]? = some (m, some s)
  unanswered : n ∉ x.2.answers

theorem Silenced.next (hr : Reachable c x) (h : Silenced c n s x) (hn : Audited c x y) :
    Silenced c n s y := by
  obtain ⟨⟨l, hl, hp, hg⟩, ⟨m, hm⟩, ha⟩ := h
  obtain ⟨t, hn, hy⟩ := hn
  have hd := hr.accounted.sound
  have hv := (hd.linked hl).2
  obtain ⟨l', e, w, hps⟩ := hn.passes hd hl
  obtain ⟨read, hread⟩ := hps.ledger x.2
  have hpump : l'.requests = .done := hps.like.pump.trans (hps.change.pump_done hp).1
  -- An answer with the number `n` would be one of the call `s`.
  have hkept : (x.2.after c (l.view x.1.hub) w e).taken = x.2.taken ∧
      n ∉ (x.2.after c (l.view x.1.hub) w e).answers := by
    rcases hps.change.deed_of_done hv hp hg with rfl | ⟨s', hs', rfl⟩
    · exact ⟨rfl, ha⟩
    · refine ⟨rfl, fun h => ?_⟩
      rcases List.mem_append.1 h with h | h
      · exact ha h
      · obtain ⟨m', hm'⟩ := Ledger.numberOf_some (by simpa using h)
        cases hm.symm.trans hm'
        exact hs' rfl
  rw [hread] at hy
  constructor
  case linked => exact ⟨l', hps.link, hpump, (hg.change hv hps.change).like hps.like⟩
  case taken => exact ⟨m, by rw [hy]; exact hkept.1 ▸ hm⟩
  case unanswered => rw [hy]; exact hkept.2

theorem Silenced.runs (hr : Reachable c x) (h : Silenced c n s x) (hz : Runs c x z) :
    Silenced c n s z := by
  induction hz with
  | refl => exact h
  | tail hy hn ih => exact ih.next (hr.runs hy) hn

theorem Runs.stage (hr : Reachable c x) (h : Runs c x z) (hl : x.1.link? c = some l) :
    ∃ l', z.1.link? c = some l' ∧ l.supervisor.stage ≤ l'.supervisor.stage := by
  induction h with
  | refl => exact ⟨l, hl, Nat.le_refl _⟩
  | tail hy hn ih =>
      obtain ⟨m, hm, hle⟩ := ih
      obtain ⟨t, hn, -⟩ := hn
      have hy := hr.runs hy
      obtain ⟨l', hl', -, hs | ⟨-, hs⟩⟩ := hn.staged hy.accounted.sound hm (hy.staged hm)
      · exact ⟨l', hl', hs ▸ hle⟩
      · exact ⟨l', hl', Nat.le_trans hle (Link.stepSupervisor_stage hs).1⟩

/-- A supervisor that has withdrawn the requests, and has not the one of the call `s` before it any
more, has been done with that. -/
theorem Reachable.cleared (h : Reachable c z) (hl : z.1.link? c = some l)
    (hs : 4 ≤ l.supervisor.stage)
    (hd : ∀ t ∈ l.supervisor.purge.doomed, t.token ≠ Hub.callToken c s) :
    ∃ x y, Reachable c x ∧ Clears c s x y ∧ Runs c y z := by
  obtain ⟨service, sessions, h⟩ := h
  induction h generalizing l with
  | refl => cases hl
  | @tail y z hy h ih =>
      have hry : Reachable c y := ⟨service, sessions, hy⟩
      have hsound := hry.accounted.sound
      obtain ⟨t, hn, hz⟩ := h
      cases hm : y.1.link? c with
      | none =>
          obtain rfl := (hn.blank hsound hm).2.2 l hl
          simp [Link.attach, Supervisor.stage] at hs
      | some m =>
          obtain ⟨l', hl', -, hsup⟩ := hn.staged hsound hm (hry.staged hm)
          obtain rfl : l' = l := Option.some.inj (hl'.symm.trans hl)
          have hi := id_of_link? hm
          -- The step to find is the only one by which this comes to hold.
          by_cases hdone : 4 ≤ m.supervisor.stage ∧
              ∀ t ∈ m.supervisor.purge.doomed, t.token ≠ Hub.callToken c s
          · obtain ⟨x, x', hx, hc, hr⟩ := ih hm hdone.1 hdone.2
            exact ⟨x, x', hx, hc, hr.tail ⟨t, hn, hz⟩⟩
          · rcases hsup with hsup | ⟨rfl, hstep⟩
            · rw [hsup] at hs hd
              exact absurd ⟨hs, hd⟩ hdone
            · have hclear := Link.clearing_of_stepSupervisor hstep hs (hi.symm ▸ hd) (hi.symm ▸ hdone)
              cases hn with
              | step hstep' => exact ⟨y, z, hry, ⟨⟨m, hm, hclear⟩, hstep', hz⟩, .refl⟩

theorem supervisor_step {d' : Dispatcher} (hx : Reachable c x) (hl : x.1.link? c = some l)
    (h : x.1.step (c, .supervisor) = some d') : ∃ l', d'.link? c = some l' ∧
      Link.stepSupervisor x.1.hub l = some (d'.hub, l') ∧ l'.requests = l.requests ∧
        (l'.view d'.hub).job = (l.view x.1.hub).job ∧ l'.numbered = l.numbered ∧
          (account c x.2 x.1 d' (some (c, .supervisor))).taken = x.2.taken ∧
            (account c x.2 x.1 d' (some (c, .supervisor))).answers = x.2.answers := by
  obtain ⟨l', hl', hs, -⟩ := step_own hx.accounted.sound hl h
  obtain ⟨supervisor, pending, rfl⟩ := Link.stepSupervisor_footprint hs
  refine ⟨_, hl', hs, rfl, rfl, rfl, ?_⟩
  rw [account_own _ hl hl']
  have hd : l.deed { l.setPeer { l.desk.peer with pending } with supervisor } .supervisor =
      .nothing := by
    simp [Link.deed, Link.setPeer, Link.responses, Peer.responses]
  simp [Ledger.observe, hd, Ledger.record]

theorem Clears.seizes {i : Call} (hx : Reachable c x) (h : Clears c s x y)
    (hl : x.1.link? c = some l) (hi : l.call? s = some i) (ht : i.ticket = some t)
    (hc : x.1.hub.inflight.isClaimed t = false) :
    ∃ ts, l.supervisor = .seizing (t :: ts) ∧ t.token = Hub.callToken c s := by
  obtain ⟨⟨l', hl', hclear⟩, -, -⟩ := h
  obtain rfl : l = l' := Option.some.inj (hl.symm.trans hl')
  have hid := id_of_link? hl
  have hv := (hx.accounted.sound.linked hl).2
  have hj : (l.view x.1.hub).job s = some i.job := job_of_call hi
  obtain ⟨htc, htoken, -⟩ := hv.ticket hj ht
  rw [Link.Clearing, hid] at hclear
  rcases hclear with ⟨u, ts, hsup, hu⟩ | ⟨hsup, hno⟩
  · have hm : u ∈ (l.view x.1.hub).purge.doomed := by
      rw [Link.view, hsup]
      exact List.mem_cons_self
    obtain ⟨-, -, s', -, hs', hjob⟩ := (hv.doomed hm).1
    obtain rfl := Hub.callToken_inj (hu.symm.trans hs')
    obtain rfl : t = u := Option.some.inj (ht.symm.trans (hjob _ hj))
    exact ⟨ts, hsup, hu⟩
  · obtain ⟨hnc, hst⟩ := hv.unclaimed hj ht hc
    rcases hv.unresolved hj ht hst hnc with hm | hm
    · exact absurd htoken (hno t (InFlight.mem_ofConnection.2 ⟨hm, htc⟩))
    · rw [Link.view, hsup] at hm
      cases hm

theorem Runs.struck (hr : Reachable c x) (h : Runs c x z) (hn : t.token.name.1 = c)
    (hl : ∃ l, x.1.link? c = some l ∧
      (l.supervisor = .firing t ts ∨ t.token.name ∈ x.1.hub.inflight.fired)) :
    ∃ l, z.1.link? c = some l ∧
      (l.supervisor = .firing t ts ∨ t.token.name ∈ z.1.hub.inflight.fired) := by
  induction h with
  | refl => exact hl
  | @tail y z hy h ih =>
      obtain ⟨l, hl, ho⟩ := ih
      obtain ⟨u, h, -⟩ := h
      have hy := hr.runs hy
      have hd := hy.accounted.sound
      obtain ⟨l', hl', -, hsup⟩ := h.staged hd hl (hy.staged hl)
      obtain ⟨m, e, w, hp⟩ := h.passes hd hl
      have hfired (hf : t.token.name ∈ y.1.hub.inflight.fired) :
          t.token.name ∈ z.1.hub.inflight.fired := by
        have hname : t.token.name = (c, t.token.name.2) := Prod.ext hn rfl
        rw [hname] at hf ⊢
        exact hp.fired hf
      refine ⟨l', hl', ?_⟩
      rcases ho with ho | ho
      · rcases hsup with hsup | ⟨-, hstep⟩
        · exact .inl (hsup.trans ho)
        · have he : ({ y.1.hub with inflight := y.1.hub.inflight.fire t.token.name } : Hub) =
              z.1.hub := by
            simp only [Link.stepSupervisor, ho, Option.some.injEq, Prod.mk.injEq] at hstep
            exact hstep.1
          rw [← he]
          exact .inr (InFlight.mem_fired_fire.2 (.inr rfl))
      · exact .inr (hfired ho)

theorem Clears.fired {i : Call} (hx : Reachable c x) (h : Clears c s x y)
    (hl : x.1.link? c = some l) (hi : l.call? s = some i) (ht : i.ticket = some t)
    (hc : x.1.hub.inflight.isClaimed t = false) (hz : Runs c y z) (hm : z.1.link? c = some m)
    (hs : 5 ≤ m.supervisor.stage) : (c, .call s) ∈ z.1.hub.inflight.fired := by
  obtain ⟨ts, hsup, htoken⟩ := h.seizes hx hl hi ht hc
  obtain ⟨l', hl', hstep, -⟩ := supervisor_step hx hl h.step
  have hname : t.token.name = (c, .call s) := by
    rw [htoken]
    rfl
  have hl₂ : l'.supervisor = .firing t ts := by
    simp only [Link.stepSupervisor, hsup, Option.some.injEq, Prod.mk.injEq] at hstep
    rw [← hstep.2]
  have hy : Reachable c y := hx.runs (.single ⟨_, .step h.step, h.account⟩)
  obtain ⟨m', hm', hf⟩ := hz.struck hy (congrArg Prod.fst hname) ⟨l', hl', .inl hl₂⟩
  obtain rfl : m = m' := Option.some.inj (hm.symm.trans hm')
  rw [hname] at hf
  refine hf.resolve_left fun hw => ?_
  rw [hw] at hs
  exact absurd hs (by simp [Supervisor.stage])

end Parley.Dispatcher
