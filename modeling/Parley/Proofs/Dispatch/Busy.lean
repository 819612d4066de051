import Parley.Proofs.Dispatch.Recording
import Parley.Proofs.Peer.Finished

namespace Parley.Dispatch

open Errands (Event Change)

def Phase.exchange? : Phase → Option Exchange
  | .executing (.sending x _) _ _ => some x
  | _ => none

/-- What the next step of a call means for the requests of its handler. A call that has been
cancelled drops the handler, and its request with it, unless the handler leaves the request just
then. -/
def Call.event (h : Hub) (p : Peer Actor) (k : Call) : Event :=
  match k.phase.exchange? with
  | some x =>
    if h.inflight.isCancelled k.token && !x.isLeaving then .quiet
    else (p.step (.call k.serial) h.now x).2.event x
  | none => .quiet

namespace Link

def errand? (l : Link) : Actor → Option Exchange
  | .call s => (l.call? s).bind fun k => k.phase.exchange?
  | who => l.desk.callers.lookup who

def errands (l : Link) : Errands Actor := l.desk.peer.errands l.errand?

def arriving? (l : Link) : Option Response :=
  match (l.fanout.receive responseQueue).2 with
  | .item (.response r) => some r
  | _ => none

def event (h : Hub) (l : Link) : Actor → Event
  | .responses =>
    match l.responsesDone, l.arriving? with
    | false, some r => .processed r
    | _, _ => .quiet
  | .call s =>
    match l.call? s with
    | some k => k.event h l.desk.peer
    | none => .quiet
  | .caller n =>
    match l.desk.callers.lookup (.caller n) with
    | some x => (l.desk.peer.step (.caller n) h.now x).2.event x
    | none => .quiet
  | _ => .quiet

end Link

variable {sv : Service} {h h' : Hub} {p p' : Peer Actor} {conn : ConnectionId} {k : Call}
  {k' : Option Call} {outcome : Except HandlerError Json} {f : Actor → Option Exchange}

namespace Call

theorem exchange?_conclude (k : Call) (h : Hub) (conn : ConnectionId)
    (outcome : Except HandlerError Json) :
    (k.conclude h conn outcome).2.bind (·.phase.exchange?) = none := by
  cases ht : k.ticket with
  | none => simp [conclude, ht, Phase.exchange?]
  | some t => cases hc : (h.inflight.claim t).2 <;> simp [conclude, ht, hc, Phase.exchange?]

theorem exchange?_start (k : Call) (sv : Service) (h : Hub) (conn : ConnectionId) :
    (k.start sv h conn).2.bind (·.phase.exchange?) = none := by
  simp only [start]
  split
  · exact exchange?_conclude ..
  · rfl

theorem exchange?_settle (k : Call) (h : Hub) (conn : ConnectionId)
    (outcome : Except HandlerError Json) :
    (k.settle h conn outcome).2.bind (·.phase.exchange?) = none := by
  obtain ⟨g, result, -, he⟩ := settle_eq k h conn outcome
  rw [he]
  cases k.ticket <;> rfl

end Call

def Leaves (p p' : Peer Actor) : Prop := ∃ outbound, p' = { p with outbound } ∧
  outbound.shut = p.outbound.shut ∧ outbound.taken = p.outbound.taken ∧
    ∃ x : Option Response, outbound.items = p.outbound.items ++ x.toList.map .response

theorem Leaves.refl (p : Peer Actor) : Leaves p p := ⟨_, rfl, rfl, rfl, none, by simp⟩

theorem Leaves.drop (a : Activity) (h : Hub) (p : Peer Actor) (n : Nat) :
    Leaves p (a.drop h p n).2 := by
  cases a with
  | sending x next => exact ⟨_, rfl, rfl, rfl, none, by simp⟩
  | _ => exact .refl p

theorem Leaves.offered {who : Actor} {x : Response} {outbound : Flow.Channel Actor Message}
    {answer : Flow.Channel.Answer} (ho : p.outbound.offer who (.response x) = (outbound, answer)) :
    Leaves p { p with outbound } := by
  obtain ⟨hs, ht, hi, -⟩ := Flow.Channel.offered ho
  refine ⟨_, rfl, hs, ht, if answer = .accepted then some x else none, ?_⟩
  rw [hi]
  split <;> simp

theorem Leaves.taken (hp : Leaves p p') : p'.outbound.taken = p.outbound.taken := by
  obtain ⟨outbound, rfl, -, ht, -⟩ := hp
  exact ht

theorem Leaves.errands (hp : Leaves p p') (f : Actor → Option Exchange) :
    p'.errands f = p.errands f := by
  obtain ⟨outbound, rfl, hs, -⟩ := hp
  simp only [Peer.errands, hs]

/-- What a step of a handler's activity means for its errand. On an errand it takes a step of that
or waits; otherwise it leaves the peer alone, and may begin an errand. -/
theorem Activity.step_exchange {a : Activity} {n : Nat} {token : Flow.Token TokenName}
    {s : Session.Handle} {r : Progress} (hs : a.step h p n token s = (h', p', r)) :
    (∃ x next y, a = .sending x next ∧ p.step (.call n) h.now x = (p', y) ∧
      (y = .waiting ∧ r = .waiting ∨ y ≠ .waiting ∧ ∃ b, r = .moved b ∧
        ∀ d, (Phase.executing b d s).exchange? = y.exchange?)) ∨
    ((∀ d, (Phase.executing a d s).exchange? = none) ∧ p' = p ∧ ∀ b d, r = .moved b →
      (Phase.executing b d s).exchange? = none ∨
        ∃ errand, (Phase.executing b d s).exchange? = some (.fresh errand)) := by
  cases a with
  | running program =>
      refine .inr ⟨fun _ => rfl, ?_⟩
      cases program with
      | send errand next =>
          cases hs
          exact ⟨rfl, fun b d hb => by cases hb; exact .inr ⟨errand, rfl⟩⟩
      | _ => cases hs; exact ⟨rfl, fun b d hb => by cases hb <;> exact .inl rfl⟩
  | asleep wake ifDropped next =>
      refine .inr ⟨fun _ => rfl, ?_⟩
      by_cases hw : wake ≤ h.now <;> simp only [step, hw, if_true, if_false] at hs <;> cases hs <;>
        refine ⟨rfl, fun b d hb => ?_⟩ <;> cases hb
      exact .inl rfl
  | atGate gate ifDropped next =>
      refine .inr ⟨fun _ => rfl, ?_⟩
      by_cases hg : gate ∈ h.gates <;> simp only [step, hg, if_true, if_false] at hs <;> cases hs <;>
        refine ⟨rfl, fun b d hb => ?_⟩ <;> cases hb
      exact .inl rfl
  | sending x next =>
      refine .inl ⟨x, next, ?_⟩
      rcases hy : p.step (.call n) h.now x with ⟨q, y | _ | outcome⟩ <;>
        simp only [step, hy] at hs <;> cases hs
      · exact ⟨_, rfl, rfl, .inr ⟨by simp, _, rfl, fun _ => rfl⟩⟩
      · exact ⟨_, rfl, rfl, .inl ⟨rfl, rfl⟩⟩
      · exact ⟨_, rfl, rfl, .inr ⟨by simp, _, rfl, fun _ => rfl⟩⟩

namespace Call

structure Busy (h : Hub) (p : Peer Actor) (k : Call) (p' : Peer Actor)
    (k' : Option Call) : Prop where
  event : k.event h p = .quiet
  leaves : Leaves p p'
  exchange : k'.bind (·.phase.exchange?) = none ∨
    k.phase.exchange? = none ∧ ∃ errand, k'.bind (·.phase.exchange?) = some (.fresh errand)

theorem Busy.idle (hx : k.phase.exchange? = none) (hp : Leaves p p')
    (hk : k'.bind (·.phase.exchange?) = none) : Busy h p k p' k' :=
  ⟨by rw [Call.event, hx], hp, .inl hk⟩

theorem event_of_cancelled {a : Activity} {d : Option Nat} {s : Session.Handle}
    (hp : k.phase = .executing a d s) (hc : h.inflight.isCancelled k.token = true)
    (hl : a.isLeaving = false) : k.event h p = .quiet := by
  cases a with
  | sending x next =>
      have hx : x.isLeaving = false := hl
      simp only [event, hp, Phase.exchange?, hc, hx, Bool.not_false, Bool.and_self, if_true]
  | _ => simp only [event, hp, Phase.exchange?]

theorem event_sending {x : Exchange} {next : Except ExchangeError Json → Program}
    {d : Option Nat} {s : Session.Handle} {y : Peer.Progress}
    (hp : k.phase = .executing (.sending x next) d s)
    (hc : ¬h.inflight.isCancelled k.token = true ∨ x.isLeaving = true)
    (hy : p.step (.call k.serial) h.now x = (p', y)) : k.event h p = y.event x := by
  have hn : ¬(h.inflight.isCancelled k.token && !x.isLeaving) = true := by
    rwa [Bool.and_eq_true, not_and_or, Bool.not_eq_true', Bool.not_eq_false]
  simp only [event, hp, Phase.exchange?, if_neg hn, hy]

/-- A step of a call is a step of the errand that its handler is on, or none of an errand. -/
theorem step_exchange (ht : k.Tidy) (hs : k.step sv h p conn = some (h', p', k')) :
    (∃ x r, k.phase.exchange? = some x ∧ p.step (.call k.serial) h.now x = (p', r) ∧
      r ≠ .waiting ∧ k.event h p = r.event x ∧ k'.bind (·.phase.exchange?) = r.exchange?) ∨
        Busy h p k p' k' := by
  cases course_of_step hs with
  | abandoned hp => exact .inr (.idle (by rw [hp]; rfl) (.refl _) rfl)
  | started hp => exact .inr (.idle (by rw [hp]; rfl) (.refl _) (exchange?_start ..))
  | dropped hp hc hl => exact .inr ⟨event_of_cancelled hp hc hl, .drop .., .inl rfl⟩
  | @moved a b d s _ _ hp hc ha =>
      rcases Activity.step_exchange ha with
        ⟨x, next, y, rfl, hy, ⟨-, hr⟩ | ⟨hw, _, hr, hb⟩⟩ | ⟨hx, rfl, hb⟩
      · cases hr
      · cases hr
        exact .inl ⟨x, y, by rw [hp]; rfl, hy, hw, event_sending hp hc hy, hb d⟩
      · have hn : k.phase.exchange? = none := by rw [hp, hx]
        exact .inr ⟨by rw [event, hn], .refl _, (hb b d rfl).imp_right fun h => ⟨hn, h⟩⟩
  | ended hp _ ha | panicked hp _ ha =>
      rcases Activity.step_exchange ha with
        ⟨_, _, _, -, -, ⟨-, hr⟩ | ⟨-, _, hr, -⟩⟩ | ⟨hx, rfl, -⟩
      · cases hr
      · cases hr
      · exact .inr (.idle (by rw [hp, hx]) (.refl _) (exchange?_conclude ..))
  | @overdue a d s _ hp hc ha =>
      obtain ⟨g, q, r, hr⟩ : ∃ g q r, a.step h p k.serial k.token s = (g, q, r) := ⟨_, _, _, rfl⟩
      rw [hr] at ha
      obtain rfl : r = .waiting := ha
      rcases Activity.step_exchange hr with
        ⟨x, next, y, rfl, hy, ⟨rfl, -⟩ | ⟨-, _, hb, -⟩⟩ | ⟨hx, -, -⟩
      · refine .inr ⟨?_, .drop .., .inl (exchange?_conclude ..)⟩
        rw [event_sending hp (.inl hc) hy]
        cases hx : x.awaited? <;> simp only [Peer.Progress.event, hx]
      · cases hb
      · exact .inr (.idle (by rw [hp, hx]) (.drop ..) (exchange?_conclude ..))
  | settled hp => exact .inr (.idle (by rw [hp]; rfl) (.refl _) (exchange?_settle ..))
  | answered hp ho | refused hp ho =>
      obtain ⟨t, x, -, rfl, -⟩ := ht.replying hp
      exact .inr (.idle (by rw [hp]; rfl) (.offered ho) rfl)
  | waiting hp ho =>
      have hx : k.phase.exchange? = none := by rw [hp]; rfl
      obtain ⟨t, x, -, rfl, -⟩ := ht.replying hp
      exact .inr (.idle hx (.offered ho) hx)

theorem step_errands (ht : k.Tidy) (hf : f (.call k.serial) = k.phase.exchange?)
    (hs : k.step sv h p conn = some (h', p', k')) : (p.errands f).Change (k.event h p)
      (p'.errands (Function.update f (.call k.serial) (k'.bind (·.phase.exchange?)))) := by
  rcases step_exchange ht hs with ⟨x, r, hx, hr, hw, he, hk⟩ | ⟨he, hl, hk | ⟨hx, errand, hk⟩⟩
  · rw [he, hk]
    exact Peer.step_change (hf.trans hx) hr hw
  · rw [he, hk, hl.errands]
    exact .dropped _
  · rw [he, hk, hl.errands]
    have hn : (p.errands f).errand (.call k.serial) = none := hf.trans hx
    exact .kept (by rw [hn]; rfl) (by rw [hn]; rfl)

end Call

end Parley.Dispatch
