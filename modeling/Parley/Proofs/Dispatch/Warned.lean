import Parley.Proofs.Dispatch.Reach

namespace Parley.Dispatch.View

variable {c : ConnectionId} {v w : View} {e : Deed}

/-- A request that has been claimed while its handler executes has been cancelled, or the supervisor
has seized it and cancels it by its next step. -/
structure Warned (c : ConnectionId) (v : View) : Prop where
  cancelled : ∀ {s j t}, v.job s = some j → j.ticket = some t → j.stage = .executing →
    (c, t.serial) ∈ v.registry.claimed → v.registry.isCancelled (Hub.callToken c s) = true ∨
      ∃ ts, v.purge = .firing t ts
  distinct : ∀ {t u}, t ∈ v.purge.doomed → u ∈ v.purge.doomed → t.serial = u.serial → t = u

theorem isCancelled_callToken {r : InFlight TokenName} {s : Nat} :
    r.isCancelled (Hub.callToken c s) = true ↔
      (c, .call s) ∈ r.fired ∨ (c, .handlers) ∈ r.fired ∨ (c, .connection) ∈ r.fired := by
  simp [InFlight.isCancelled_iff, Hub.callToken, Hub.handlersToken, Hub.stopToken, Flow.Token.child]

theorem isCancelled_mono {r r' : InFlight TokenName} {s : Nat}
    (hf : ∀ {x}, (c, x) ∈ r.fired → (c, x) ∈ r'.fired)
    (h : r.isCancelled (Hub.callToken c s) = true) : r'.isCancelled (Hub.callToken c s) = true := by
  rw [isCancelled_callToken] at h ⊢
  exact h.imp hf (Or.imp hf hf)

theorem Warned.after (h : v.Warned c)
    (hf : ∀ {x}, (c, x) ∈ v.registry.fired → (c, x) ∈ w.registry.fired) (hp : w.purge = v.purge)
    (hold : ∀ {s j t}, w.job s = some j → j.ticket = some t → j.stage = .executing →
      (c, t.serial) ∈ w.registry.claimed → v.job s = some j ∧ (c, t.serial) ∈ v.registry.claimed) :
    w.Warned c := by
  refine ⟨fun hj ht he hc => ?_, hp ▸ h.distinct⟩
  obtain ⟨hj, hc⟩ := hold hj ht he hc
  exact hp ▸ (h.cancelled hj ht he hc).imp_left (isCancelled_mono hf)

/-- Between two cancellations by the supervisor, what has been claimed has been cancelled. -/
theorem Warned.isCancelled (h : v.Warned c) (hn : ∀ t ts, v.purge ≠ .firing t ts) {s : Nat}
    {j : Job}
    {t : Ticket TokenName} (hj : v.job s = some j) (ht : j.ticket = some t)
    (he : j.stage = .executing)
    (hc : (c, t.serial) ∈ v.registry.claimed) : v.registry.isCancelled (Hub.callToken c s) = true := by
  rcases h.cancelled hj ht he hc with hcancelled | ⟨ts, hp⟩
  · exact hcancelled
  · exact absurd hp (hn t ts)

theorem Warned.purged (h : v.Warned c) (hn : ∀ t ts, v.purge ≠ .firing t ts)
    (hf : ∀ {x}, (c, x) ∈ v.registry.fired → (c, x) ∈ w.registry.fired) (hj : w.job = v.job)
    (hc : w.registry.claimed = v.registry.claimed)
    (hd : ∀ {t u}, t ∈ w.purge.doomed → u ∈ w.purge.doomed → t.serial = u.serial → t = u) :
    w.Warned c := by
  refine ⟨fun hjs ht he hcl => .inl (isCancelled_mono hf ?_), hd⟩
  exact h.isCancelled hn (hj ▸ hjs) ht he (hc ▸ hcl)

/-- The call of the request that is seized has it among those that are doomed. -/
theorem Warned.seized {t : Ticket TokenName} {ts : List (Ticket TokenName)} (h : v.Warned c)
    (hv : v.Sound c) (hp : v.purge = .seizing (t :: ts)) :
    Warned c { v with registry := v.registry.seize t, purge := .firing t ts } := by
  have hmem : t ∈ v.purge.doomed := by
    rw [hp]
    exact List.mem_cons_self
  have hn (u : Ticket TokenName) (us : List (Ticket TokenName)) : v.purge ≠ .firing u us := by
    simp [hp]
  refine ⟨fun {s j u} hj hu he hcl => ?_, fun ht hu =>
    h.distinct (hp ▸ List.mem_cons_of_mem t ht) (hp ▸ List.mem_cons_of_mem t hu)⟩
  by_cases hold : (c, u.serial) ∈ v.registry.claimed
  · exact .inl (h.isCancelled hn hj hu he hold)
  · have hserial : u.serial = t.serial :=
      congrArg Prod.snd ((InFlight.mem_claimed_seize.1 hcl).resolve_left hold)
    rcases hv.unresolved hj hu he hold with hm | hm
    · exact absurd hserial ((hv.doomed hmem).2 u hm (hv.ticket hj hu).1)
    · exact .inr ⟨ts, by rw [h.distinct hm hmem hserial]⟩

theorem Warned.struck {t : Ticket TokenName} {ts : List (Ticket TokenName)} (h : v.Warned c)
    (hv : v.Sound c) (hp : v.purge = .firing t ts) :
    Warned c { v with registry := v.registry.fire t.token.name, purge := .seizing ts } := by
  refine ⟨fun {s j u} hj hu he hcl => .inl ?_, fun ht hu => h.distinct (hp ▸ ht) (hp ▸ hu)⟩
  rcases h.cancelled hj hu he hcl with hcancelled | ⟨us, hus⟩
  · exact isCancelled_mono (fun hx => InFlight.mem_fired_fire.2 (.inl hx)) hcancelled
  · obtain ⟨rfl, rfl⟩ : t = u ∧ ts = us := by simpa using hp.symm.trans hus
    refine isCancelled_callToken.2 (.inl (InFlight.mem_fired_fire.2 (.inr ?_)))
    rw [(hv.ticket hj hu).2.1]
    rfl

/-- The one that takes its turn does not execute any more once it has claimed its outcome. -/
theorem Warned.turned {s : Nat} {j : Job} {r : InFlight TokenName} {o : Option Job}
    {x : Option Response}
    (h : v.Warned c) (hv : v.Sound c) (hj : v.job s = some j) (ht : Turn v.registry v.shut j r o x)
    (hf : ∀ {y}, (c, y) ∈ v.registry.fired → (c, y) ∈ r.fired) : Warned c { v with
      registry := r
      job := Function.update v.job s o
      responses := v.responses ++ x.toList } := by
  refine h.after hf rfl fun {s' j' t'} hj' ht' he hc => ?_
  rcases update_eq_some.1 hj' with ⟨rfl, ho⟩ | ⟨hs, hold⟩
  · cases ht with
    | moved =>
        cases ho
        exact ⟨hj, hc⟩
    | concluded | settled =>
        cases ho
        cases he
    | abandoned | discarded | finished | answered | lost => cases ho
  · refine ⟨hold, ?_⟩
    cases ht with
    | moved | finished | answered | lost => exact hc
    | abandoned | discarded | settled => simpa using hc
    | concluded hstage hclaim =>
        rcases (hv.mem_claimed_claim hj hclaim).1 hc with hc | ⟨u, hu, hserial⟩
        · exact hc
        · exact absurd (hv.serial hold hj ht' hu hserial.symm) hs

theorem Warned.intake {m : Message} (h : v.Warned c) (hv : v.Sound c) (hw : Intake c v m w)
    (hf : ∀ {x}, (c, x) ∈ v.registry.fired → (c, x) ∈ w.registry.fired) : w.Warned c := by
  cases hw with
  | passed | refused => exact h.after hf rfl fun hj _ _ hc => ⟨hj, hc⟩
  | notified =>
      refine h.after hf rfl fun {s j t} hj ht _ hc => ⟨?_, hc⟩
      rcases update_eq_some.1 hj with ⟨rfl, hnew⟩ | ⟨-, hold⟩
      · cases hnew
        cases ht
      · exact hold
  | begun hb =>
      obtain ⟨-, hnew, rfl⟩ := InFlight.begin?_eq_some.1 hb
      refine h.after hf rfl fun {s j t} hj ht _ hc => ⟨?_, hc⟩
      rcases update_eq_some.1 hj with ⟨rfl, ho⟩ | ⟨-, hold⟩
      · -- A number that is given out now has not been claimed.
        cases ho
        cases ht
        have hlt := hv.claimed hc
        rw [hnew] at hlt
        exact absurd hlt (Nat.lt_irrefl _)
      · exact hold
  | missed _ _ hc =>
      rcases InFlight.cancel_eq_false hc with ⟨-, rfl⟩ | ⟨_, -, -, rfl⟩ <;>
        exact h.after hf rfl fun hj _ _ hc => ⟨hj, hc⟩
  | cancelled _ _ hc =>
      obtain ⟨u, hl, -, rfl⟩ := InFlight.cancel_eq_true hc
      obtain ⟨hu, huc, -⟩ := InFlight.lookup_some hl
      refine ⟨fun {s j t} hj ht he hcl => ?_, h.distinct⟩
      rcases List.mem_append.1 hcl with hcl | hcl
      · exact (h.cancelled hj ht he hcl).imp_left (isCancelled_mono hf)
      · -- The token that is fired is the one of the call.
        obtain ⟨i, k, hk, hku, -⟩ := hv.entry hu huc
        have hs : t.serial = u.serial := congrArg Prod.snd (List.mem_singleton.1 hcl)
        obtain ⟨rfl, rfl, rfl⟩ := hv.job_unique hj hk ht hku hs
        refine .inl (isCancelled_callToken.2 (.inl (InFlight.mem_fired_fire.2 (.inr ?_))))
        rw [(hv.ticket hj ht).2.1]
        rfl

theorem Warned.change (h : v.Warned c) (hv : v.Sound c) (hc : Change c v e w) : w.Warned c := by
  have hf {x : Scope} (hx : (c, x) ∈ v.registry.fired) := hc.fired hx
  cases hc with
  | idle | told | shut | broken | ended | received | posted | unsent =>
      exact h.after hf rfl fun hj _ _ hc => ⟨hj, hc⟩
  | withdrawn hp =>
      refine h.purged (by simp [hp]) hf rfl rfl fun {t u} ht hu he => ?_
      obtain ⟨ht, htc⟩ := InFlight.mem_ofConnection.1 ht
      obtain ⟨hu, huc⟩ := InFlight.mem_ofConnection.1 hu
      obtain ⟨s, j, hj, hjt, -⟩ := hv.entry ht htc
      obtain ⟨s', j', hj', hju, -⟩ := hv.entry hu huc
      exact (hv.job_unique hj hj' hjt hju he).2.2
  | emptied hp | dismissed hp => exact h.purged (by simp [hp]) hf rfl rfl (by simp [Purge.doomed])
  | seized hp => exact h.seized hv hp
  | struck hp => exact h.struck hv hp
  | handled _ hw =>
      have ht : View.Warned c { v with pump := .taking } := ⟨h.cancelled, h.distinct⟩
      exact ht.intake (hv.congr rfl rfl (Nat.le_refl _) rfl hv.shut) hw hf
  | turned hj ht => exact h.turned hv hj ht hf

theorem Warned.like (h : v.Warned c) (hl : Like c v w) : w.Warned c :=
  h.after (fun hx => (hl.registry.fired _).2 hx) hl.purge fun hj _ _ hc =>
    ⟨hl.job ▸ hj, (hl.registry.claimed _).1 hc⟩

end Parley.Dispatch.View

namespace Parley.Dispatcher

open Dispatch

variable {d d' : Dispatcher} {c : ConnectionId} {l l' : Link} {t : Option Task}

theorem Next.warned (h : Next d t d') (hd : d.Sound) (hl : d.link? c = some l)
    (hw : (l.view d.hub).Warned c) (hl' : d'.link? c = some l') : (l'.view d'.hub).Warned c := by
  obtain ⟨m, e, w, hp⟩ := h.passes hd hl
  obtain rfl : m = l' := Option.some.inj (hp.link.symm.trans hl')
  exact (hw.change (hd.linked hl).2 hp.change).like hp.like

end Parley.Dispatcher
