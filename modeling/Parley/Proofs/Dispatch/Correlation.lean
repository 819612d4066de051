import Parley.Proofs.Dispatch.Cancel
import Parley.Proofs.Dispatch.Slot

namespace Parley

namespace Peer

variable {κ : Type} [DecidableEq κ] {p : Peer κ} {who : κ} {now : Nat} {spec : RequestSpec}
  {id : RequestId} {a : Awaited}

theorem begin_done {o : Except ExchangeError Json}
    (h : (p.step who now (.fresh (.request spec))).2 = .done o) :
    ∃ e, o = .error e ∧ ∀ b, e ≠ .remote b := by
  rcases hs : p.step who now (.fresh (.request spec)) with ⟨q, r⟩
  rw [hs] at h
  cases step_course hs with
  | @unencodable _ params _ he =>
      cases h
      cases params <;> cases he
      exact ⟨_, rfl, by simp⟩
  | unregistered hr =>
      cases h
      exact ⟨_, rfl, Pending.register_ne_remote hr⟩
  | registered => cases h

/-- A request with an id that is pending is refused, and leaves the slots and the queue as they are.
-/
theorem begin_duplicate {params : Option Json} {s : Nat} (hp : spec.params.encode = .ok params)
    (hc : p.pending.closed = false) (hs : (p.idFor spec, s) ∈ p.pending.slots) :
    ∃ q, p.step who now (.fresh (.request spec)) =
      (q, .done (.error (.duplicateId (p.idFor spec)))) ∧
        q.outbound = p.outbound ∧ q.pending = p.pending := by
  have hd : p.pending.register (p.idFor spec) p.nextSlot = .error (.duplicateId (p.idFor spec)) :=
    Pending.register_eq_duplicate.2 ⟨hc, ⟨s, hs⟩, rfl⟩
  exact ⟨{ p with nextId := p.idAfter spec },
    by simp only [step, begin, hp, register_eq, hd], rfl, rfl⟩

theorem await_answer {deadline : Option Nat} {o : Except ExchangeError Response}
    (hm : p.pending.mailOf? a.slot = some o) :
    (p.step who now (.awaiting a deadline)).2 = .done (a.outcome o) := by
  cases o <;> simp only [step, await, Pending.look_of_some hm] <;> rfl

theorem await_gone {deadline : Option Nat} (hm : p.pending.mailOf? a.slot = none)
    (hs : ∀ id, (id, a.slot) ∉ p.pending.slots) :
    (p.step who now (.awaiting a deadline)).2 = .done (.error .connectionClosed) := by
  have hn : (p.pending.slots.any fun s => s.2 = a.slot) = false := by
    simp only [List.any_eq_false, decide_eq_true_eq]
    rintro ⟨id, s⟩ hi rfl
    exact hs id hi
  simp [step, await, Pending.look_of_none hm, hn]

end Peer

namespace Dispatch.Link

variable {h : Hub} {l : Link} {n s : Nat} {x : Exchange} {q : Peer Actor}
  {o : Except ExchangeError Json}

theorem step_caller_done (sv : Service) (hx : l.desk.callers.lookup (.caller n) = some x)
    (hr : l.desk.peer.step (.caller n) h.now x = (q, .done o)) :
    ∃ l', l.step sv h (.caller n) = some (h, l') ∧ l'.id = l.id ∧ l'.errand? (.caller n) = none ∧
      l'.desk.outcomes = l.desk.outcomes ++ [(.caller n, o)] := by
  refine ⟨{ l with desk := { l.desk.dismiss (.caller n) with
    peer := q, outcomes := l.desk.outcomes ++ [(.caller n, o)] } }, ?_, rfl, ?_, rfl⟩
  · simp [step, stepCaller, Desk.step, hx, hr]
  · simp only [errand?, Desk.dismiss, lookup_remove, if_true]

theorem step_call_done (sv : Service) {k : Call} {next : Except ExchangeError Json → Program}
    {deadline : Option Nat} {session : Session.Handle} (hk : l.call? s = some k)
    (hp : k.phase = .executing (.sending x next) deadline session)
    (hc : h.inflight.isCancelled k.token = true → x.isLeaving = true)
    (hr : l.desk.peer.step (.call s) h.now x = (q, .done o)) :
    ∃ l' k', l.step sv h (.call s) = some (h, l') ∧ l'.id = l.id ∧ l'.desk.peer = q ∧
      l'.call? s = some k' ∧ k'.phase = .executing (.running (next o)) deadline session := by
  have hn : k.serial = s := Link.serial_of_call? hk
  have hk' : (l.calls.find? fun c => c.serial = s) = some k := hk
  let k' : Call := { k with phase := .executing (.running (next o)) deadline session }
  have hgo : (h.inflight.isCancelled k.token && !(Activity.sending x next).isLeaving) = false := by
    rw [Bool.and_eq_false_imp, Bool.not_eq_false']
    exact hc
  refine ⟨{ l.setPeer q with calls := replaced l.calls s (some k') }, k', ?_, rfl, rfl, ?_, rfl⟩
  · subst hn
    simp [step, stepCall, hk', Call.step, hp, hgo, Activity.step, hr, replaced, k', - Bool.and_eq_true]
  · rw [call?, find?_replaced (by rw [hk']; rfl) fun i hi => by cases hi; exact hn, if_pos rfl]

end Dispatch.Link

end Parley

namespace Parley.Dispatcher

open Dispatch

variable {d : Dispatcher} {c : ConnectionId} {l : Link} {k : Docket}

/-- How the requests of our own on a connection and the responses that come in are related. -/
structure Correlated (c : ConnectionId) (d : Dispatcher) (l : Link) (k : Docket) : Prop where
  /-- No two outcomes are for one slot, and a request that has ended is not waited for. -/
  once : (k.ended.map (·.request.slot)).Nodup ∧ ∀ x ∈ k.ended, ¬l.IsLive x.request
  /-- A caller gets the outcome of its errand, and the errand is over. -/
  caller : ∀ n x q o, l.desk.callers.lookup (.caller n) = some x →
    l.desk.peer.step (.caller n) d.hub.now x = (q, .done o) →
      ∃ d' l', d.step (c, .caller n) = some d' ∧ d'.link? c = some l' ∧
        l'.errand? (.caller n) = none ∧ l'.desk.outcomes = l.desk.outcomes ++ [(.caller n, o)]
  /-- So does a handler, which goes on with it. It is not dropped while it gives a request up. -/
  handler : ∀ s i x next deadline session q o, l.call? s = some i →
    i.phase = .executing (.sending x next) deadline session →
    (d.hub.inflight.isCancelled i.token = true → x.isLeaving = true) →
    l.desk.peer.step (.call s) d.hub.now x = (q, .done o) →
      ∃ d' l' i', d.step (c, .call s) = some d' ∧ d'.link? c = some l' ∧ l'.call? s = some i' ∧
        i'.phase = .executing (.running (next o)) deadline session
  /-- A result, or an error of the peer, is the content of a response with the id of the request
  that was processed while the request had its slot. -/
  source : ∀ x ∈ k.ended, (∃ v, x.outcome = .ok v) ∨ (∃ b, x.outcome = .error (.remote b)) →
    ∃ r, (r, some x.request.slot) ∈ k.processed ∧ r.id = x.request.id ∧
      x.outcome = Peer.conclude x.request r
  /-- A request that gets no slot has neither. -/
  unregistered : ∀ who spec o, (l.desk.peer.step who d.hub.now (.fresh (.request spec))).2 = .done o →
    ∃ e, o = .error e ∧ ∀ b, e ≠ .remote b
  /-- A slot gets one response at most, and belongs to one request. -/
  single : (k.processed.filterMap (·.2)).Nodup ∧
    ∀ r s, (r, some s) ∈ k.processed → ∃! a, a ∈ k.registered ∧ a.slot = s
  stray : ∀ r, (∀ s, (r.id, s) ∉ l.desk.peer.pending.slots) →
    l.desk.peer.pending.fulfill r = (l.desk.peer.pending, false)
  duplicate : ∀ who spec params s, spec.params.encode = .ok params →
    (l.desk.peer.idFor spec, s) ∈ l.desk.peer.pending.slots →
      ∃ q, l.desk.peer.step who d.hub.now (.fresh (.request spec)) =
        (q, .done (.error (.duplicateId (l.desk.peer.idFor spec)))) ∧
          q.outbound = l.desk.peer.outbound ∧ q.pending = l.desk.peer.pending
  /-- The first response with the id of a request goes to it, if no other request has removed the
  id. That is in time if the request has not been given up. -/
  first : ∀ who a r, l.errands.Awaits who a → l.desk.peer.pending.closed = false →
    (∀ b, (b, a.slot) ∉ k.evicted) → (∀ r', (r', some a.slot) ∉ k.processed) → r.id = a.id →
      (a.id, a.slot) ∈ l.desk.peer.pending.slots ∧
        (k.record l.desk.peer.pending (.processed r)).processed =
          k.processed ++ [(r, some a.slot)] ∧
        ((∀ why, l.errand? who ≠ some (.leaving a why)) →
          a.slot ∉ (k.record l.desk.peer.pending (.processed r)).late)
  /-- It is an earlier request that removes the id of another one. -/
  evicted : ∀ b s, (b, s) ∈ k.evicted →
    b ∈ k.registered ∧ b.slot < s ∧ ∃ a ∈ k.registered, a.slot = s ∧ a.id = b.id
  /-- What came for a request in time is its outcome, unless it could not be queued later. -/
  completed : ∀ a r, (r, some a.slot) ∈ k.processed → a.slot ∉ k.late → ∀ x ∈ k.ended,
    x.request = a → x.lapse = some .unsent ∨ x.outcome = Peer.conclude a r
  /-- The one who waits for it gets it by the next step, whatever the time is. -/
  prompt : ∀ who a deadline r now, l.errand? who = some (.awaiting a deadline) →
    (r, some a.slot) ∈ k.processed →
      (l.desk.peer.step who now (.awaiting a deadline)).2 = .done (Peer.conclude a r)

theorem responses_correlated (h : Docketed.Reachable c (d, k)) (hl : d.link? c = some l) :
    Correlated c d l k := by
  obtain ⟨hs, -, he⟩ := h.sound
  obtain ⟨hslot, hpost, -, hfin⟩ := he hl
  have hi := id_of_link? hl
  constructor
  case once => exact ⟨hfin.nodup, fun x hx ⟨who, ha⟩ => (hfin.past hx).2.1 who ha⟩
  case caller =>
    intro n x q o hx hr
    obtain ⟨l', hstep, hid, hnone, hout⟩ := Link.step_caller_done d.service hx hr
    exact ⟨_, l', step_of_link hl hstep, link?_put_self hl (hid.trans hi), hnone, hout⟩
  case handler =>
    intro s i x next deadline session q o hk hp hc hr
    obtain ⟨l', i', hstep, hid, -, hk', hp'⟩ := Link.step_call_done d.service hk hp hc hr
    exact ⟨_, l', i', step_of_link hl hstep, link?_put_self hl (hid.trans hi), hk', hp'⟩
  case source => exact fun x => (he hl).source
  case unregistered => exact fun who spec o => Peer.begin_done
  case single =>
    refine ⟨hpost.once, fun r s hr => ?_⟩
    obtain ⟨⟨a, ha, -, rfl⟩, -⟩ := hpost.processed hr
    exact ⟨a, ⟨ha, rfl⟩, fun b hb => hslot.eq hb.1 ha hb.2⟩
  case stray => exact fun r hr => Pending.fulfill_of_none (Pending.slot?_eq_none.2 hr)
  case duplicate =>
    intro who spec params s hp hm
    refine Peer.begin_duplicate hp (Bool.eq_false_iff.2 fun hc => ?_) hm
    have hnil : l.desk.peer.pending.slots = [] := hslot.closed hc
    rw [hnil] at hm
    cases hm
  case first =>
    intro who a r ha hc hu hno hid
    have hm : (a.id, a.slot) ∈ l.desk.peer.pending.slots := (he hl).in_slot ha hc hu hno
    have hr : l.desk.peer.pending.slot? r.id = some a.slot := hslot.keyed.slot? (hid ▸ hm)
    exact ⟨hm, by simp only [Docket.record, hr], fun hn => (he hl).in_time ha hn hno r⟩
  case evicted =>
    intro b s hb
    obtain ⟨ha, hreg, hlt, -⟩ := hfin.evicted hb
    exact ⟨hreg, hlt, ha⟩
  case completed =>
    rintro a r hr hn x hx rfl
    exact hfin.outcome hx hr hn
  case prompt =>
    intro who a deadline r now hx hr
    have ha : l.errands.Awaits who a := by
      rw [Errands.Awaits]
      simp only [Link.errands, Peer.errands, hx]
      rfl
    exact Peer.await_answer (hpost.mailOf? ha hr)

def narrow (capacity : Nat) : Dispatcher × Docket :=
  ((serving { config := { outboundQueue := capacity } }
    { store := { maxIdle := 0 } }).attach ⟨"c"⟩, {})

def ask (n : Nat) (id : Option RequestId) (timeout : Option Nat) : List Docketed.Move :=
  [.send (.request { method := "m", id, timeout }), .act (.caller n), .act (.caller n)]

def asked (n : Nat) (id : RequestId) : Awaited := ⟨id, n, "m", none, .any⟩

def reply : Response := ⟨.number 7, .ok (.str "x")⟩

def answering : List Docketed.Move :=
  [.arrive (Frame.encode (Message.response reply).encode), .act .reader, .act .reader, .act .reader,
    .act .reader, .act .responses]

theorem responses_correlated_of_answer : ∃ d k l a, Docketed.Reachable ⟨"c"⟩ (d, k) ∧
    d.link? ⟨"c"⟩ = some l ∧ k.processed = [(reply, some 0)] ∧
    l.errand? (.caller 0) = some (.awaiting a none) ∧ a.id = reply.id ∧
      (l.desk.peer.step (.caller 0) 0 (.awaiting a none)).2 = .done (Peer.conclude a reply) := by
  have hs : ((Docketed.follow ⟨"c"⟩ (ask 0 (some (.number 7)) none ++ answering) (narrow 1)).bind
      fun x => (x.1.link? ⟨"c"⟩).map fun l => (x.2.processed, l.errand? (.caller 0))) =
      some ([(reply, some 0)], some (.awaiting (asked 0 (.number 7)) none)) := by
    decide +kernel
  obtain ⟨⟨d, k⟩, hx, h⟩ := Option.bind_eq_some_iff.1 hs
  obtain ⟨l, hl, h⟩ := Option.map_eq_some_iff.1 h
  obtain ⟨hp, hw⟩ : k.processed = _ ∧ _ := Prod.mk.inj h
  have hr := Docketed.reachable_of_follow _ _ hx
  exact ⟨d, k, l, _, hr, hl, hp, hw, rfl,
    (responses_correlated hr hl).prompt _ _ none reply 0 hw (by simp [hp, asked])⟩

/-- A request that waits for room in the queue has got its response, and fails all the same when the
connection is closed meanwhile. A request that has been queued loses its slot to an earlier one with
the same id, whose time is over, and a response can go to it no more. -/
theorem response_without_request :
    (∃ y z l a r, Docketed.Reachable ⟨"c"⟩ y ∧ Docketed.Runs ⟨"c"⟩ y z ∧
      y.1.link? ⟨"c"⟩ = some l ∧ l.errands.Awaits (.caller 1) a ∧ a.id = r.id ∧
      l.desk.peer.pending.closed = false ∧ y.2.processed = [(r, some a.slot)] ∧ y.2.lapsed = [] ∧
      y.2.ended = [] ∧ z.2.ended = [⟨a, some .unsent, .error .connectionClosed⟩]) ∧
    ∃ y l a, Docketed.Reachable ⟨"c"⟩ y ∧ y.1.link? ⟨"c"⟩ = some l ∧
      l.errand? (.caller 1) = some (.awaiting a none) ∧ l.desk.peer.pending.closed = false ∧
      (∀ r, (r, some a.slot) ∉ y.2.processed) ∧
      ∀ r, r.id = a.id → l.desk.peer.pending.fulfill r = (l.desk.peer.pending, false) := by
  constructor
  · have hs : ((Docketed.follow ⟨"c"⟩ (ask 0 none none ++ ask 1 (some (.number 7)) none ++ answering)
        (narrow 1)).bind fun y => (y.1.link? ⟨"c"⟩).bind fun l =>
          (Docketed.follow ⟨"c"⟩ [.close, .act .writer, .act (.caller 1), .act (.caller 1)] y).map
            fun z => decide ((l.errand? (.caller 1)).bind Exchange.awaited? =
                some (asked 1 (.number 7)) ∧
              l.desk.peer.pending.closed = false ∧ y.2.processed = [(reply, some 1)] ∧
              y.2.lapsed = [] ∧ y.2.ended = [] ∧
              z.2.ended = [⟨asked 1 (.number 7), some .unsent, .error .connectionClosed⟩])) =
        some true := by
      decide +kernel
    obtain ⟨y, hy, h⟩ := Option.bind_eq_some_iff.1 hs
    obtain ⟨l, hl, h⟩ := Option.bind_eq_some_iff.1 h
    obtain ⟨z, hz, h⟩ := Option.map_eq_some_iff.1 h
    obtain ⟨ha, hc, hp, hl', he, hf⟩ := of_decide_eq_true h
    exact ⟨y, z, l, _, reply, Docketed.reachable_of_follow _ _ hy, Docketed.follow_runs hz, hl, ha,
      rfl, hc, hp, hl', he, hf⟩
  · have hs : ((Docketed.follow ⟨"c"⟩ (ask 0 (some (.number 7)) (some 0) ++ [.act (.caller 0)] ++
        answering ++ ask 1 (some (.number 7)) none ++ [.act (.caller 0)]) (narrow 2)).bind fun y =>
          (y.1.link? ⟨"c"⟩).map fun l =>
            decide (l.errand? (.caller 1) = some (.awaiting (asked 1 (.number 7)) none) ∧
              l.desk.peer.pending.closed = false ∧ y.2.processed = [(reply, some 0)] ∧
              l.desk.peer.pending.slots = [])) = some true := by
      decide +kernel
    obtain ⟨y, hy, h⟩ := Option.bind_eq_some_iff.1 hs
    obtain ⟨l, hl, h⟩ := Option.map_eq_some_iff.1 h
    obtain ⟨ha, hc, hp, hslots⟩ := of_decide_eq_true h
    refine ⟨y, l, _, Docketed.reachable_of_follow _ _ hy, hl, ha, hc, fun r hr => ?_,
      fun r _ => Pending.fulfill_of_none (Pending.slot?_eq_none.2 fun s hm => ?_)⟩
    · simp [hp, asked] at hr
    · simp [hslots] at hm

end Parley.Dispatcher
