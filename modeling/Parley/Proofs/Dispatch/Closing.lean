import Parley.Proofs.Dispatch.Correlation
import Parley.Proofs.Dispatch.Seizure

namespace Parley

namespace Peer

variable {κ : Type} [DecidableEq κ] {p : Peer κ} {who : κ} {now : Nat}

theorem begin_closed {spec : RequestSpec} {params : Option Json}
    (hp : spec.params.encode = .ok params)
    (hc : p.pending.closed = true) :
    (p.step who now (.fresh (.request spec))).2 = .done (.error .connectionClosed) := by
  have hq := Pending.register_eq_closed (p.idFor spec) p.nextSlot hc
  simp only [step, begin, hp, register_eq, hq]

theorem queue_shut {m : Message} {a : Awaited} (hs : p.outbound.shut = true) :
    (p.step who now (.queueing m (some a))).2 = .moved (.leaving a .unsent) := by
  rcases hq : p.outbound.offer who m with ⟨outbound, answer⟩
  obtain rfl : answer = .refused := (Flow.Channel.offered hq).2.2.2.2 hs
  simp only [step, queue, hq]

def Fails (p : Peer κ) (who : κ) (x : Exchange) : Prop := ∀ now,
  (p.step who now x).2 = .done (.error .connectionClosed) ∨
    ∃ a, (p.step who now x).2 = .moved (.leaving a .unsent) ∧
      ∀ (q : Peer κ) now, (q.step who now (.leaving a .unsent)).2 = .done (.error .connectionClosed)

end Peer

namespace Dispatch.Link

variable {h h' : Hub} {l l' : Link} {k : Docket} {who : Actor} {x : Exchange} {q : Peer Actor}
  {r : Peer.Progress} {a : Awaited} {n s : Nat}

theorem fails_of_closed (hv : l.errands.Sound k) (hc : l.desk.peer.pending.closed = true)
    (hs : l.desk.peer.outbound.shut = true) (hx : l.errand? who = some x) (ha : x.awaited? = some a)
    (hn : x.isLeaving = false) (hr : ∀ r, (a.slot, .ok r) ∉ l.desk.peer.pending.mail) :
    l.desk.peer.Fails who x := by
  intro now
  cases x with
  | fresh => cases ha
  | queueing m o =>
      obtain rfl : o = some a := ha
      exact .inr ⟨a, Peer.queue_shut hs, fun q now => rfl⟩
  | awaiting b deadline =>
      obtain rfl : b = a := Option.some.inj ha
      left
      cases hm : l.desk.peer.pending.mailOf? b.slot with
      | none =>
          apply Peer.await_gone hm
          intro id hi
          have hnil : l.desk.peer.pending.slots = [] := hv.slotted.closed hc
          rw [hnil] at hi
          cases hi
      | some o =>
          have hmem := Pending.mem_of_mailOf? hm
          cases o with
          | ok r => exact absurd hmem (hr r)
          | error e =>
              obtain ⟨rfl, -⟩ := hv.posted.failure hmem
              exact Peer.await_answer hm
  | leaving => cases hn

theorem step_caller_moved (sv : Service) (hx : l.desk.callers.lookup (.caller n) = some x)
    {y : Exchange}
    (hr : l.desk.peer.step (.caller n) h.now x = (q, .moved y)) :
    ∃ l', l.step sv h (.caller n) = some (h, l') ∧ l'.id = l.id ∧
      l'.errand? (.caller n) = some y := by
  refine ⟨{ l with desk := { l.desk with
    peer := q
    callers := l.desk.callers.map fun c => if c.1 = .caller n then (.caller n, y) else c } }, ?_,
    rfl, ?_⟩
  · simp [step, stepCaller, Desk.step, hx, hr]
  · change List.lookup _ _ = _
    rw [lookup_replace, if_pos rfl, hx]
    rfl

/-- A call that executes ends by its next step once its token has been fired, and queues nothing. If
it is about to leave a request it does that first. -/
theorem step_call_told (sv : Service) {i : Call} (hi : l.call? s = some i)
    (he : i.phase.stage = .executing) (hc : h.inflight.isCancelled i.token = true) :
    ∃ h' l', l.step sv h (.call s) = some (h', l') ∧ l'.id = l.id ∧ l'.responses = l.responses ∧
      ∀ i', l'.call? s = some i' → (i.phase.exchange?.any Exchange.isLeaving) = true ∧
        i'.phase.stage = .executing ∧ i'.phase.exchange? = none := by
  have hi' : (l.calls.find? fun c => c.serial = s) = some i := hi
  have hgone (q : Peer Actor) {P : Call → Prop} (i' : Call)
      (h : ({ l.setPeer q with calls := replaced l.calls s none } : Link).call? s = some i') :
      P i' := by
    rw [call?, replaced, find?_remove, if_pos rfl] at h
    cases h
  cases hp : i.phase with
  | fresh =>
      refine ⟨i.abandon h l.id, { l.setPeer l.desk.peer with calls := replaced l.calls s none }, ?_,
        rfl, rfl, hgone _⟩
      simp [step, stepCall, hi', Call.step, hp, hc, replaced]
  | executing activity deadline session =>
      cases ha : activity.isLeaving with
      | false =>
          refine ⟨i.abandon (activity.drop h l.desk.peer i.serial).1 l.id,
            { l.setPeer (activity.drop h l.desk.peer i.serial).2 with
              calls := replaced l.calls s none }, ?_, rfl,
            (activity.drop_plain h l.desk.peer i.serial).2.2, hgone _⟩
          simp [step, stepCall, hi', Call.step, hp, hc, ha, replaced]
      | true =>
          rcases activity with _ | _ | _ | ⟨x, next⟩ <;> try cases ha
          rcases x with _ | _ | _ | ⟨a, why⟩ <;> try cases ha
          obtain ⟨l', i', hstep, hid, hq, hk', hp'⟩ := step_call_done sv hi hp (fun _ => rfl) rfl
          refine ⟨h, l', hstep, hid, ?_, fun j hj => ?_⟩
          · rw [responses, hq]
            rfl
          · obtain rfl : i' = j := Option.some.inj (hk'.symm.trans hj)
            exact ⟨rfl, by rw [hp']; rfl, by rw [hp']; rfl⟩
  | concluded | replying => simp [hp, Phase.stage] at he

end Dispatch.Link

namespace Dispatcher

open Dispatch

variable {d : Dispatcher} {c : ConnectionId} {l : Link} {a : Ledger} {x y z : Dispatcher × Ledger}

/-- What a connection that is closed has given back. -/
structure Released (c : ConnectionId) (d : Dispatcher) (l : Link) : Prop where
  entries : d.hub.inflight.ofConnection c = []
  pending : l.desk.peer.pending.closed = true ∧ l.desk.peer.pending.slots = []
  /-- A request that waits without a response fails, whatever the time is. -/
  waiting : ∀ who x a, l.errand? who = some x → x.awaited? = some a → x.isLeaving = false →
    (∀ r, (a.slot, .ok r) ∉ l.desk.peer.pending.mail) → l.desk.peer.Fails who x
  /-- So does a new one, by its first step. -/
  later : ∀ who spec params now, spec.params.encode = .ok params →
    (l.desk.peer.step who now (.fresh (.request spec))).2 = .done (.error .connectionClosed)
  /-- A caller gives its request up, and is told how it has ended. -/
  caller : ∀ n x q, l.desk.callers.lookup (.caller n) = some x →
    (∀ y, l.desk.peer.step (.caller n) d.hub.now x = (q, .moved y) →
      ∃ d' l', d.step (c, .caller n) = some d' ∧ d'.link? c = some l' ∧
        l'.errand? (.caller n) = some y) ∧
    ∀ o, l.desk.peer.step (.caller n) d.hub.now x = (q, .done o) →
      ∃ d' l', d.step (c, .caller n) = some d' ∧ d'.link? c = some l' ∧
        l'.errand? (.caller n) = none ∧ l'.desk.outcomes = l.desk.outcomes ++ [(.caller n, o)]
  /-- A handler is dropped, with all that it waits for. Only a request that it is about to leave is
  left first. -/
  handler : ∀ s i, l.call? s = some i → i.phase.stage = .executing →
    ∃ d' l', d.step (c, .call s) = some d' ∧ d'.link? c = some l' ∧ l'.responses = l.responses ∧
      ∀ i', l'.call? s = some i' → (i.phase.exchange?.any Exchange.isLeaving) = true ∧
        i'.phase.stage = .executing ∧ i'.phase.exchange? = none

theorem released (h : Reachable c (d, a)) (hl : d.link? c = some l)
    (hs : 9 ≤ l.supervisor.stage) : Released c d l := by
  obtain ⟨k, hk⟩ := h.docketed
  have he := hk.sound.errands hl
  have hst := h.staged hl
  have hi := id_of_link? hl
  have hclosed := hst.pending (by omega)
  have hshut := hst.shut (hst.writer hs)
  have htold (s : Nat) : d.hub.inflight.isCancelled (Hub.callToken c s) = true := by
    rw [InFlight.isCancelled_iff]
    exact .inr ⟨_, List.mem_cons_self, hst.fired (by omega)⟩
  constructor
  case entries =>
    rw [List.eq_nil_iff_forall_not_mem]
    intro t ht
    obtain ⟨ht, htc⟩ := InFlight.mem_ofConnection.1 ht
    exact hst.entries (by omega) t ht htc
  case pending => exact ⟨hclosed, he.slotted.closed hclosed⟩
  case waiting => exact fun who x a => Link.fails_of_closed he hclosed hshut
  case later =>
    intro who spec params now hp
    exact Peer.begin_closed hp hclosed
  case caller =>
    intro n x q hx
    refine ⟨fun y hr => ?_, fun o hr => ?_⟩
    · obtain ⟨l', hstep, hid, hy⟩ := Link.step_caller_moved d.service hx hr
      exact ⟨_, l', step_of_link hl hstep, link?_put_self hl (hid.trans hi), hy⟩
    · obtain ⟨l', hstep, hid, hnone, hout⟩ := Link.step_caller_done d.service hx hr
      exact ⟨_, l', step_of_link hl hstep, link?_put_self hl (hid.trans hi), hnone, hout⟩
  case handler =>
    intro s i hk hst
    have htok : i.token = Hub.callToken c s := (h.accounted.sound.linked hl).2.token (job_of_call hk)
    obtain ⟨h', l', hstep, hid, hr, hgone⟩ :=
      Link.step_call_told d.service hk hst (htok ▸ htold s)
    exact ⟨_, l', step_of_link hl hstep, link?_put_self hl (hid.trans hi), hr, hgone⟩

end Dispatcher

end Parley
