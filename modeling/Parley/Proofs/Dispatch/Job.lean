import Parley.Proofs.Dispatch.Run
import Parley.Proofs.InFlight.Entry
import Parley.Proofs.Peer.Course

namespace Parley

open Dispatch

def Exchange.Plain : Exchange → Prop
  | .queueing m _ => m.response? = none
  | _ => True

namespace Peer

variable {κ : Type} {p p' : Peer κ} {x y : Exchange} {now : Nat} {r : Peer.Progress}

variable [DecidableEq κ] {who : κ}

/-- An offer to the write queue shuts nothing, and adds a response if one is accepted. -/
theorem offered {p : Peer κ} {m : Message} {outbound : Flow.Channel κ Message}
    {answer : Flow.Channel.Answer} (ho : p.outbound.offer who m = (outbound, answer)) :
    outbound.shut = p.outbound.shut ∧ ({ p with outbound } : Peer κ).responses =
      if answer = .accepted then p.responses ++ m.response?.toList else p.responses := by
  obtain ⟨hs, -, hi, -⟩ := Flow.Channel.offered ho
  refine ⟨hs, ?_⟩
  unfold responses
  rw [hi]
  split
  · cases h : m.response? <;> simp [h]
  · rfl

theorem step_plain (hx : x.Plain) (h : p.step who now x = (p', r)) :
    p'.outbound.shut = p.outbound.shut ∧ p'.responses = p.responses ∧
      ∀ y, r = .moved y → y.Plain := by
  have hoffer {m : Message} {outbound : Flow.Channel κ Message} {answer : Flow.Channel.Answer}
      (hm : m.response? = none) (ho : p.outbound.offer who m = (outbound, answer)) :
      outbound.shut = p.outbound.shut ∧ ({ p with outbound } : Peer κ).responses = p.responses := by
    have hr := offered ho
    rwa [hm, Option.toList_none, List.append_nil, ite_self] at hr
  cases step_course h with
  | encoded | registered => exact ⟨rfl, rfl, fun y hy => by cases hy; rfl⟩
  | lined ho => exact ⟨(hoffer hx ho).1, (hoffer hx ho).2, fun y hy => by cases hy; exact hx⟩
  | queued ho => exact ⟨(hoffer hx ho).1, (hoffer hx ho).2, fun y hy => by cases hy; trivial⟩
  | refused ho =>
      exact ⟨(hoffer hx ho).1, (hoffer hx ho).2, fun y hy => by cases hy; trivial⟩
  | inLine ho | sent ho | unsent ho =>
      exact ⟨(hoffer hx ho).1, (hoffer hx ho).2, fun y hy => by cases hy⟩
  | timedOut => exact ⟨rfl, rfl, fun y hy => by cases hy; trivial⟩
  | unencodable | unregistered | answered | gone | waiting | left =>
      exact ⟨rfl, rfl, fun y hy => by cases hy⟩

end Peer

namespace Dispatch

def Activity.Plain : Activity → Prop
  | .sending x _ => x.Plain
  | _ => True

namespace Hub

variable {h : Hub} {c : ConnectionId}

@[simp] theorem inflight_log (e : Log.Event) : (h.log e).inflight = h.inflight := rfl

@[simp] theorem inflight_logIf (b : Bool) (e : Log.Event) :
    (h.logIf b e).inflight = h.inflight := by
  cases b <;> rfl

@[simp] theorem inflight_logAll (es : List Log.Event) : (h.logAll es).inflight = h.inflight := by
  induction es generalizing h with
  | nil => rfl
  | cons e es ih => exact ih

@[simp] theorem inflight_note (line : String) : (h.note line).inflight = h.inflight := rfl

@[simp] theorem inflight_tick : h.tick.inflight = h.inflight := rfl

theorem callToken_inj {c : ConnectionId} {s s' : Nat} (he : callToken c s = callToken c s') :
    s = s' := by
  simpa [callToken, Flow.Token.child] using congrArg (·.name) he

end Hub

namespace Activity

variable {h h' : Hub} {p p' : Peer Actor} {a b : Activity} {serial : Nat} {r : Progress}
  {token : Flow.Token TokenName} {s : Session.Handle}

theorem exec_inflight (program : Program) :
    (exec h token s program).1.inflight = h.inflight := by
  cases program <;> rfl

theorem exec_plain {program : Program} (he : (exec h token s program).2 = .moved b) :
    b.Plain := by
  cases program <;> simp [exec, touch] at he <;> simp [← he, Plain, Exchange.Plain]

/-- A handler neither touches the registry nor queues a response. -/
theorem step_plain (ha : a.Plain) (hs : a.step h p serial token s = (h', p', r)) :
    h'.inflight = h.inflight ∧ p'.outbound.shut = p.outbound.shut ∧
      p'.responses = p.responses ∧ ∀ b, r = .moved b → b.Plain := by
  cases a with
  | running program =>
      simp only [step] at hs
      cases hs
      exact ⟨exec_inflight program, rfl, rfl, fun b hb => exec_plain hb⟩
  | asleep wake ifDropped next =>
      simp only [step] at hs
      by_cases hw : wake ≤ h.now <;> cases hs <;> simp [hw, Plain]
  | atGate gate ifDropped next =>
      simp only [step] at hs
      by_cases hg : gate ∈ h.gates <;> cases hs <;> simp [hg, Plain]
  | sending x next =>
      rcases hx : p.step (.call serial) h.now x with ⟨q, y | _ | outcome⟩ <;>
        obtain ⟨h1, h2, h3⟩ := Peer.step_plain ha hx <;> simp only [step, hx] at hs <;> cases hs
      · exact ⟨rfl, h1, h2, fun b hb => by cases hb; exact h3 y rfl⟩
      · exact ⟨rfl, h1, h2, by simp⟩
      · exact ⟨rfl, h1, h2, fun b hb => by cases hb; trivial⟩

theorem step_of_isLeaving (ha : a.isLeaving = true) (h : Hub) (p : Peer Actor) (serial : Nat)
    (token : Flow.Token TokenName) (s : Session.Handle) :
    ∃ b, (a.step h p serial token s).2.2 = .moved b := by
  cases a with
  | sending x next =>
      cases x with
      | leaving a why => exact ⟨_, rfl⟩
      | _ => cases ha
  | _ => cases ha

theorem drop_plain (h : Hub) (p : Peer Actor) (serial : Nat) (a : Activity) :
    (a.drop h p serial).1.inflight = h.inflight ∧
      (a.drop h p serial).2.outbound.shut = p.outbound.shut ∧
      (a.drop h p serial).2.responses = p.responses := by
  cases a <;> simp [drop, Peer.abandon, Peer.responses]

end Activity

inductive Stage
  | executing
  | concluded
  | replying (m : Message)

def Phase.stage : Phase → Stage
  | .fresh | .executing _ _ _ => .executing
  | .concluded _ => .concluded
  | .replying m => .replying m

structure Job where
  ticket : Option (Ticket TokenName)
  token : Flow.Token TokenName
  stage : Stage

namespace Job

def release (j : Job) (r : InFlight TokenName) : InFlight TokenName :=
  match j.ticket with
  | some t => (r.release t).1
  | none => r

def claim (j : Job) (r : InFlight TokenName) : InFlight TokenName :=
  match j.ticket with
  | some t => (r.claim t).1
  | none => r

@[simp] theorem fired_release (j : Job) (r : InFlight TokenName) :
    (j.release r).fired = r.fired := by
  cases ht : j.ticket <;> simp [release, ht]

@[simp] theorem issued_release (j : Job) (r : InFlight TokenName) :
    (j.release r).issued = r.issued := by
  cases ht : j.ticket <;> simp [release, ht]

@[simp] theorem claimed_release (j : Job) (r : InFlight TokenName) :
    (j.release r).claimed = r.claimed := by
  cases ht : j.ticket <;> simp [release, ht]

@[simp] theorem fired_claim (j : Job) (r : InFlight TokenName) :
    (j.claim r).fired = r.fired := by
  cases ht : j.ticket with
  | none => simp [claim, ht]
  | some t => simp only [claim, ht, InFlight.claim_eq]; split <;> rfl

@[simp] theorem entries_claim (j : Job) (r : InFlight TokenName) :
    (j.claim r).entries = r.entries := by
  cases ht : j.ticket <;> simp [claim, ht, InFlight.entries_claim]

@[simp] theorem issued_claim (j : Job) (r : InFlight TokenName) :
    (j.claim r).issued = r.issued := by
  cases ht : j.ticket <;> simp [claim, ht, InFlight.issued_claim]

theorem entries_release_subset (j : Job) (r : InFlight TokenName) :
    (j.release r).entries ⊆ r.entries := by
  unfold release
  split
  · exact (InFlight.entries_release_sublist _ _).subset
  · exact List.Subset.refl _

theorem keyed_claim (j : Job) {r : InFlight TokenName} (hr : r.Keyed) : (j.claim r).Keyed := by
  unfold claim
  split
  · exact hr.claim
  · exact hr

theorem keyed_release (j : Job) {r : InFlight TokenName} (hr : r.Keyed) : (j.release r).Keyed := by
  unfold release
  split
  · exact hr.release
  · exact hr

theorem claimed_claim (j : Job) {r : InFlight TokenName} {x : ConnectionId × Nat}
    (hx : x ∈ r.claimed) : x ∈ (j.claim r).claimed := by
  cases ht : j.ticket with
  | none => simpa [claim, ht] using hx
  | some t =>
      simp only [claim, ht, InFlight.claim_eq]
      split
      · exact hx
      · exact List.mem_append_left _ hx

end Job

/-- What a turn of a call comes to: for the registry, for the call, which is gone when it is over,
and for the write queue, which may get a response. -/
inductive Turn (r : InFlight TokenName) (shut : Bool) (j : Job) :
    InFlight TokenName → Option Job → Option Response → Prop
  | moved : Turn r shut j r (some j) none
  | abandoned (hj : j.stage = .executing) (hc : r.isCancelled j.token = true) :
      Turn r shut j (j.release r) none none
  | discarded {t : Ticket TokenName} (hj : j.stage = .executing) (ht : j.ticket = some t)
      (hc : r.isClaimed t = true) : Turn r shut j (j.release r) none none
  | concluded (hj : j.stage = .executing)
      (hc : ∀ t, j.ticket = some t → r.isClaimed t = false) :
      Turn r shut j (j.claim r) (some { j with stage := .concluded }) none
  | settled {t : Ticket TokenName} {x : Response} (hj : j.stage = .concluded)
      (ht : j.ticket = some t) (hx : x.id = t.id) :
      Turn r shut j (j.release r) (some { j with stage := .replying (.response x) }) none
  | finished (hj : j.stage = .concluded) (ht : j.ticket = none) : Turn r shut j r none none
  | answered {x : Response} (hj : j.stage = .replying (.response x)) :
      Turn r shut j r none (some x)
  | lost {m : Message} (hj : j.stage = .replying m) (hs : shut = true) : Turn r shut j r none none

theorem Turn.fired {r r' : InFlight TokenName} {shut : Bool} {j : Job} {o : Option Job}
    {x : Option Response} (ht : Turn r shut j r' o x) : r'.fired = r.fired := by
  cases ht <;> simp

theorem Turn.ticket {r r' : InFlight TokenName} {shut : Bool} {i j : Job} {o : Option Job}
    {x : Option Response} (ht : Turn r shut j r' o x) (ho : o = some i) : i.ticket = j.ticket := by
  cases ht <;> cases ho <;> rfl

end Dispatch

end Parley
