import Parley.Proofs.Peer.Course
import Mathlib.Logic.Function.Basic

namespace Parley

deriving instance DecidableEq for Awaited, RequestSpec, Errand, Exchange

namespace Exchange

def awaited? : Exchange → Option Awaited
  | fresh _ => none
  | queueing _ awaited => awaited
  | awaiting a _ | leaving a _ => some a

def lapse? : Exchange → Option Lapse
  | leaving _ why => some why
  | _ => none

end Exchange

structure Ending where
  request : Awaited
  lapse : Option Lapse
  outcome : Except ExchangeError Json
  deriving DecidableEq

structure Errands (κ : Type) where
  pending : Pending Nat
  nextSlot : Nat
  shut : Bool
  errand : κ → Option Exchange

namespace Errands

variable {κ : Type}

def Awaits (v : Errands κ) (who : κ) (a : Awaited) : Prop :=
  (v.errand who).bind Exchange.awaited? = some a

/-- What a step means for the requests. -/
inductive Event
  | quiet
  | registered (a : Awaited)
  | processed (r : Response)
  | lapsed (a : Awaited) (why : Lapse)
  | ended (e : Ending)

variable [DecidableEq κ]

inductive Change (v : Errands κ) : Event → Errands κ → Prop
  | idle {shut : Bool} (hs : v.shut = true → shut = true) : Change v .quiet { v with shut }
  | kept {who : κ} {o : Option Exchange}
      (hk : o.bind Exchange.awaited? = (v.errand who).bind Exchange.awaited?)
      (hl : o.bind Exchange.lapse? = (v.errand who).bind Exchange.lapse?) :
      Change v .quiet { v with errand := Function.update v.errand who o }
  | dropped (who : κ) : Change v .quiet { v with errand := Function.update v.errand who none }
  | registered {who : κ} {m : Message} {a : Awaited}
      (hw : (v.errand who).bind Exchange.awaited? = none) (hc : v.pending.closed = false)
      (hi : ∀ s, (a.id, s) ∉ v.pending.slots) (hs : a.slot = v.nextSlot) :
      Change v (.registered a) { v with
        pending := { v.pending with slots := v.pending.slots ++ [(a.id, a.slot)] }
        nextSlot := v.nextSlot + 1
        errand := Function.update v.errand who (some (.queueing m (some a))) }
  | unsent {who : κ} {m : Message} {a : Awaited}
      (hw : v.errand who = some (.queueing m (some a))) (hs : v.shut = true) :
      Change v (.lapsed a .unsent) { v with
        errand := Function.update v.errand who (some (.leaving a .unsent)) }
  | answered {who : κ} {a : Awaited} {deadline : Option Nat} {o : Except ExchangeError Response}
      (hw : v.errand who = some (.awaiting a deadline)) (hm : v.pending.mailOf? a.slot = some o) :
      Change v (.ended ⟨a, none, a.outcome o⟩) { v with
        pending := { v.pending with mail := v.pending.mail.filter fun m => m.1 ≠ a.slot }
        errand := Function.update v.errand who none }
  | gone {who : κ} {a : Awaited} {deadline : Option Nat}
      (hw : v.errand who = some (.awaiting a deadline)) (hm : v.pending.mailOf? a.slot = none)
      (hs : ∀ id, (id, a.slot) ∉ v.pending.slots) :
      Change v (.ended ⟨a, none, .error .connectionClosed⟩) { v with
        errand := Function.update v.errand who none }
  | timedOut {who : κ} {a : Awaited} {deadline : Option Nat} {id : RequestId}
      (hw : v.errand who = some (.awaiting a deadline)) (hm : v.pending.mailOf? a.slot = none)
      (hs : (id, a.slot) ∈ v.pending.slots) :
      Change v (.lapsed a .overdue) { v with
        errand := Function.update v.errand who (some (.leaving a .overdue)) }
  | left {who : κ} {a : Awaited} {why : Lapse} (hw : v.errand who = some (.leaving a why)) :
      Change v (.ended ⟨a, some why, .error (why.error a)⟩) { v with
        pending := (v.pending.remove a.id).1
        errand := Function.update v.errand who none }
  | processed (r : Response) :
      Change v (.processed r) { v with pending := (v.pending.fulfill r).1 }
  | closed : Change v .quiet { v with pending := v.pending.close.1 }

end Errands

namespace Peer

variable {κ : Type} {p p' : Peer κ} {x : Exchange} {now : Nat} {r : Progress} {who : κ}

def errands (p : Peer κ) (errand : κ → Option Exchange) : Errands κ :=
  ⟨p.pending, p.nextSlot, p.outbound.shut, errand⟩

def Progress.exchange? : Progress → Option Exchange
  | .moved x => some x
  | _ => none

def Progress.event (x : Exchange) (r : Progress) : Errands.Event :=
  match x.awaited?, r with
  | some a, .done outcome => .ended ⟨a, x.lapse?, outcome⟩
  | some _, .moved (.leaving a why) => .lapsed a why
  | none, .moved y =>
    match y.awaited? with
    | some a => .registered a
    | none => .quiet
  | _, _ => .quiet

variable [DecidableEq κ] {f : κ → Option Exchange}

theorem step_change (hx : f who = some x) (h : p.step who now x = (p', r)) (hr : r ≠ .waiting) :
    (p.errands f).Change (r.event x) (p'.errands (Function.update f who r.exchange?)) := by
  have hw : (f who).bind Exchange.awaited? = x.awaited? := by rw [hx]; rfl
  have hn : (f who).bind Exchange.lapse? = x.lapse? := by rw [hx]; rfl
  have hsame {m : Message} {outbound : Flow.Channel κ Message} {answer : Flow.Channel.Answer}
      (ho : p.outbound.offer who m = (outbound, answer)) (pending : Pending Nat)
      (g : κ → Option Exchange) :
      ({ p with pending, outbound } : Peer κ).errands g = { p.errands g with pending } := by
    simp only [errands, (Flow.Channel.offered ho).1]
  cases step_course h with
  | unencodable | encoded | unregistered => exact .kept hw.symm hn.symm
  | @registered spec _ _ hc hi => exact .registered (a := p.awaitedFor spec) hw hc hi rfl
  | inLine | waiting => exact absurd rfl hr
  | @lined m o outbound ho =>
      rw [hsame ho]
      cases o <;> exact .kept hw.symm hn.symm
  | sent ho | unsent ho | queued ho =>
      rw [hsame ho]
      exact .kept hw.symm hn.symm
  | refused ho =>
      rw [hsame ho]
      exact .unsent hx ((Flow.Channel.offered ho).2.2.2.1 rfl)
  | answered hm => exact .answered hx hm
  | gone hm hs => exact .gone hx hm hs
  | timedOut hm hs => exact .timedOut hx hm hs
  | left => exact .left hx

end Peer

end Parley

namespace Parley.Peer

variable {κ : Type} {p p' : Peer κ} {who : κ} {now : Nat} {x y : Exchange}
  {r : Progress}

inductive Moved (p : Peer κ) (now : Nat) : Exchange → Exchange → Prop
  | registered {spec : RequestSpec} {m : Message} {a : Awaited} (hs : a.slot = p.nextSlot)
      (ht : a.timeout = spec.timeout.orElse fun _ => p.timeout) :
      Moved p now (.fresh (.request spec)) (.queueing m (some a))
  | encoded {method : String} {params : Params} {m : Message} :
      Moved p now (.fresh (.notify method params)) (.queueing m none)
  | lined (m : Message) (o : Option Awaited) : Moved p now (.queueing m o) (.queueing m o)
  | queued (m : Message) (a : Awaited) :
      Moved p now (.queueing m (some a)) (.awaiting a (a.timeout.map (now + ·)))
  | unsent (m : Message) (a : Awaited) : Moved p now (.queueing m (some a)) (.leaving a .unsent)
  | overdue (a : Awaited) (deadline : Option Nat) :
      Moved p now (.awaiting a deadline) (.leaving a .overdue)

variable [DecidableEq κ]

theorem step_moved (h : p.step who now x = (p', r)) :
    p'.timeout = p.timeout ∧ ∀ y, r = .moved y → p.Moved now x y := by
  cases step_course h with
  | encoded => exact ⟨rfl, fun y hy => by cases hy; exact .encoded⟩
  | registered => exact ⟨rfl, fun y hy => by cases hy; exact .registered rfl rfl⟩
  | lined => exact ⟨rfl, fun y hy => by cases hy; exact .lined _ _⟩
  | queued => exact ⟨rfl, fun y hy => by cases hy; exact .queued _ _⟩
  | refused => exact ⟨rfl, fun y hy => by cases hy; exact .unsent _ _⟩
  | timedOut => exact ⟨rfl, fun y hy => by cases hy; exact .overdue _ _⟩
  | _ => exact ⟨rfl, fun y hy => by cases hy⟩

theorem step_waiting (h : (p.step who now x).2 = .waiting) :
    (∃ m o, x = .queueing m o ∧ who ∈ p.outbound.line ∧ p.outbound.shut = false ∧
      p.outbound.room ≤ p.outbound.place who) ∨
    ∃ a deadline, x = .awaiting a deadline ∧ ∀ t, deadline = some t → now < t := by
  rcases hs : p.step who now x with ⟨q, r⟩
  rw [hs] at h
  obtain rfl : r = .waiting := h
  cases step_course hs with
  | @inLine m o outbound ho hl =>
      have hs : p.outbound.shut = false := Bool.eq_false_iff.2 fun hs => by
        cases (Flow.Channel.offered ho).2.2.2.2 hs
      refine .inl ⟨m, o, rfl, hl, hs, Nat.le_of_not_lt fun hp => ?_⟩
      cases (congrArg Prod.snd ho).symm.trans (Flow.Channel.offer_accepted m hs hp)
  | @waiting a deadline hd =>
      refine .inr ⟨a, deadline, rfl, ?_⟩
      rintro t rfl
      simpa using hd

end Parley.Peer
