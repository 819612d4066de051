import Parley.Peer.Basic
import Parley.Proofs.Flow.Channel
import Parley.Proofs.Peer.Pending

namespace Parley

/-- What a request comes to by what has come for its slot. -/
def Awaited.outcome (a : Awaited) : Except ExchangeError Response → Except ExchangeError Json
  | .ok r => Peer.conclude a r
  | .error e => .error e

namespace Peer

variable {κ : Type} {p p' : Peer κ} {x : Exchange} {now : Nat} {r : Progress} {who : κ}

def idFor (p : Peer κ) (spec : RequestSpec) : RequestId := spec.id.getD (.number p.nextId)

def idAfter (p : Peer κ) (spec : RequestSpec) : Int :=
  if spec.id.isSome then p.nextId else p.nextId + 1

def awaitedFor (p : Peer κ) (spec : RequestSpec) : Awaited :=
  ⟨p.idFor spec, p.nextSlot, spec.method, spec.timeout.orElse fun _ => p.timeout, spec.shape⟩

theorem register_eq (p : Peer κ) (spec : RequestSpec) : p.register spec =
    match p.pending.register (p.idFor spec) p.nextSlot with
    | .error e => ({ p with nextId := p.idAfter spec }, .error e)
    | .ok pending => ({ p with
        nextId := p.idAfter spec, pending, nextSlot := p.nextSlot + 1 }, .ok (p.awaitedFor spec)) := by
  cases hi : spec.id with
  | some id =>
      cases hp : p.pending.register id p.nextSlot <;>
        simp [register, awaitedFor, idFor, idAfter, hi, hp]
  | none =>
      cases hp : p.pending.register (.number p.nextId) p.nextSlot <;>
        simp [register, awaitedFor, idFor, idAfter, hi, hp]

variable [DecidableEq κ]

inductive Course (p : Peer κ) (who : κ) (now : Nat) : Exchange → Peer κ → Progress → Prop
  | unencodable {errand : Errand} {params : Params} {e : ExchangeError}
      (he : params.encode = .error e) : Course p who now (.fresh errand) p (.done (.error e))
  | encoded {method : String} {params : Params} {body : Option Json}
      (he : params.encode = .ok body) : Course p who now (.fresh (.notify method params)) p
        (.moved (.queueing (.notification ⟨method, body⟩) none))
  | unregistered {spec : RequestSpec} {e : ExchangeError}
      (hr : p.pending.register (p.idFor spec) p.nextSlot = .error e) :
      Course p who now (.fresh (.request spec)) { p with nextId := p.idAfter spec }
        (.done (.error e))
  | registered {spec : RequestSpec} {body : Option Json} (he : spec.params.encode = .ok body)
      (hc : p.pending.closed = false) (hi : ∀ s, (p.idFor spec, s) ∉ p.pending.slots) :
      Course p who now (.fresh (.request spec))
        { p with
          nextId := p.idAfter spec
          pending := { p.pending with slots := p.pending.slots ++ [(p.idFor spec, p.nextSlot)] }
          nextSlot := p.nextSlot + 1 }
        (.moved (.queueing (.request ⟨p.idFor spec, spec.method, body⟩) (some (p.awaitedFor spec))))
  | inLine {m : Message} {o : Option Awaited} {outbound : Flow.Channel κ Message}
      (ho : p.outbound.offer who m = (outbound, .waiting)) (hl : who ∈ p.outbound.line) :
      Course p who now (.queueing m o) { p with outbound } .waiting
  | lined {m : Message} {o : Option Awaited} {outbound : Flow.Channel κ Message}
      (ho : p.outbound.offer who m = (outbound, .waiting)) (hl : who ∉ p.outbound.line) :
      Course p who now (.queueing m o) { p with outbound } (.moved (.queueing m o))
  | sent {m : Message} {outbound : Flow.Channel κ Message}
      (ho : p.outbound.offer who m = (outbound, .accepted)) :
      Course p who now (.queueing m none) { p with outbound } (.done (.ok .null))
  | unsent {m : Message} {outbound : Flow.Channel κ Message}
      (ho : p.outbound.offer who m = (outbound, .refused)) :
      Course p who now (.queueing m none) { p with outbound } (.done (.error .connectionClosed))
  | queued {m : Message} {a : Awaited} {outbound : Flow.Channel κ Message}
      (ho : p.outbound.offer who m = (outbound, .accepted)) :
      Course p who now (.queueing m (some a)) { p with outbound }
        (.moved (.awaiting a (a.timeout.map (now + ·))))
  | refused {m : Message} {a : Awaited} {outbound : Flow.Channel κ Message}
      (ho : p.outbound.offer who m = (outbound, .refused)) :
      Course p who now (.queueing m (some a)) { p with outbound } (.moved (.leaving a .unsent))
  | answered {a : Awaited} {deadline : Option Nat} {o : Except ExchangeError Response}
      (hm : p.pending.mailOf? a.slot = some o) :
      Course p who now (.awaiting a deadline)
        { p with pending := { p.pending with
            mail := p.pending.mail.filter fun m => m.1 ≠ a.slot } }
        (.done (a.outcome o))
  | gone {a : Awaited} {deadline : Option Nat} (hm : p.pending.mailOf? a.slot = none)
      (hs : ∀ id, (id, a.slot) ∉ p.pending.slots) :
      Course p who now (.awaiting a deadline) p (.done (.error .connectionClosed))
  | timedOut {a : Awaited} {deadline : Option Nat} {id : RequestId}
      (hm : p.pending.mailOf? a.slot = none) (hs : (id, a.slot) ∈ p.pending.slots)
      (hd : deadline.any (· ≤ now) = true) :
      Course p who now (.awaiting a deadline) p (.moved (.leaving a .overdue))
  | waiting {a : Awaited} {deadline : Option Nat} (hd : ¬deadline.any (· ≤ now) = true) :
      Course p who now (.awaiting a deadline) p .waiting
  | left {a : Awaited} {why : Lapse} : Course p who now (.leaving a why)
      { p with pending := (p.pending.remove a.id).1 } (.done (.error (why.error a)))

theorem begin_course {errand : Errand} (h : p.begin errand = (p', r)) :
    Course p who now (.fresh errand) p' r := by
  cases errand with
  | notify method params =>
      simp only [begin] at h
      split at h
      · next he =>
        cases h
        exact .unencodable he
      · next he =>
        cases h
        exact .encoded he
  | request spec =>
      simp only [begin, register_eq] at h
      split at h
      · next he =>
        cases h
        exact .unencodable he
      · next he =>
        cases hr : p.pending.register (p.idFor spec) p.nextSlot with
        | error e =>
            simp only [hr] at h
            cases h
            exact .unregistered hr
        | ok pending =>
            simp only [hr] at h
            cases h
            obtain ⟨hc, hi, rfl⟩ := Pending.register_eq_ok.1 hr
            exact .registered he hc hi

theorem queue_course {m : Message} {o : Option Awaited} (h : p.queue who now m o = (p', r)) :
    Course p who now (.queueing m o) p' r := by
  rcases ho : p.outbound.offer who m with ⟨outbound, _ | _ | _⟩ <;> simp only [queue, ho] at h
  case accepted =>
    cases o <;> cases h
    · exact .sent ho
    · exact .queued ho
  case waiting =>
    split at h <;> cases h
    · next hl => exact .inLine ho hl
    · next hl => exact .lined ho hl
  case refused =>
    cases o <;> cases h
    · exact .unsent ho
    · exact .refused ho

theorem await_course {a : Awaited} {deadline : Option Nat} (h : p.await now a deadline = (p', r)) :
    Course p who now (.awaiting a deadline) p' r := by
  cases hm : p.pending.mailOf? a.slot with
  | some o => cases o <;> simp only [await, Pending.look_of_some hm] at h <;> cases h <;> exact .answered hm
  | none =>
      simp only [await, Pending.look_of_none hm] at h
      by_cases hs : (p.pending.slots.any fun s => s.2 = a.slot) = true
      · simp only [hs, if_true] at h
        obtain ⟨⟨id, s⟩, hs, hi⟩ := List.any_eq_true.1 hs
        obtain rfl : s = a.slot := by simpa using hi
        split at h <;> cases h
        · next hd => exact .timedOut hm hs hd
        · next hd => exact .waiting hd
      · simp only [hs] at h
        cases h
        exact .gone hm fun id hi => hs (List.any_eq_true.2 ⟨_, hi, by simp⟩)

theorem step_course (h : p.step who now x = (p', r)) : Course p who now x p' r := by
  cases x with
  | fresh errand => exact begin_course h
  | queueing m o => exact queue_course h
  | awaiting a deadline => exact await_course h
  | leaving a why =>
      cases h
      exact .left

end Peer

theorem Desk.abort_cases {κ : Type} [DecidableEq κ] (d : Desk κ) (who : κ) :
    d.abort who = d ∨ d.abort who = d.drop who := by
  unfold abort
  split
  · exact .inl rfl
  · exact .inr rfl

end Parley
