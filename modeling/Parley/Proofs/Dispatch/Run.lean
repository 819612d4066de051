import Parley.Dispatch.Dispatcher
import Mathlib.Logic.Relation

namespace Parley

open Dispatch

namespace Message

def response? : Message → Option Response
  | .response r => some r
  | _ => none

end Message

def Peer.responses {κ : Type} (p : Peer κ) : List Response :=
  p.outbound.items.filterMap Message.response?

namespace Dispatch

def Pump.isReplying : Pump → Bool
  | .replying _ => true
  | _ => false

namespace Link

def Outside (l l' : Link) : Prop :=
  ∃ inbound written farOpen outcomes,
    l' = { l with inbound, written, farOpen, desk := { l.desk with outcomes } }

def call? (l : Link) (serial : Nat) : Option Call := l.calls.find? fun k => k.serial = serial

theorem serial_of_call? {l : Link} {n : Nat} {k : Call}
    (h : l.call? n = some k) : k.serial = n := by
  simpa using List.find?_some h

def responses (l : Link) : List Response := l.desk.peer.responses

/-- The message that the request pump has received and handles by its next step. -/
def inHand? (l : Link) : Option Message :=
  match l.requests with
  | .handling m => some m
  | _ => none

theorem inHand?_eq_some {l : Link} {m : Message} : l.inHand? = some m ↔ l.requests = .handling m := by
  cases h : l.requests <;> simp [inHand?, h]

end Link

inductive Deed
  | nothing
  | take (m : Message)
  | post (who : Actor)

def Link.deed (l l' : Link) (who : Actor) : Deed :=
  match who, l.inHand? with
  | .requests, some m => .take m
  | _, _ => if l.responses.length < l'.responses.length then .post who else .nothing

structure Ledger where
  /-- What the reader has published. -/
  read : List Message := []
  /-- What the request pump has handled, each message with the call that it has started. -/
  taken : List (Message × Option Nat) := []
  /-- The number of the message that the pump is about to answer. -/
  due : Option Nat := none
  /-- The numbers of the messages that the queued responses answer. -/
  answers : List Nat := []

namespace Ledger

def numberOf (a : Ledger) (serial : Nat) : Option Nat :=
  a.taken.findIdx? fun e => e.2 = some serial

/-- The message that is answered when the pump answers at once: a request itself, and in case of a
cancellation the message that has started the call that is cancelled. -/
def subject (a : Ledger) (r : InFlight TokenName) (c : ConnectionId) : Message → Option Nat
  | .request _ => some a.taken.length
  | .notification n => do
    let id ← Link.cancelTarget? n.params
    let t ← r.lookup c id
    match t.token.name.2 with
    | .call serial => a.numberOf serial
    | _ => none
  | .response _ => none

def take (a : Ledger) (r : InFlight TokenName) (c : ConnectionId) (m : Message)
    (call : Option Nat) (replying : Bool) : Ledger :=
  { a with
    taken := a.taken ++ [(m, call)]
    due := if replying then a.subject r c m else none }

def post (a : Ledger) : Actor → Ledger
  | .requests => { a with answers := a.answers ++ a.due.toList }
  | .call serial => { a with answers := a.answers ++ (a.numberOf serial).toList }
  | _ => a

def record (a : Ledger) (h : Hub) (l l' : Link) : Deed → Ledger
  | .nothing => a
  | .take m =>
    a.take h.inflight l.id m (if l.numbered < l'.numbered then some l.numbered else none)
      l'.requests.isReplying
  | .post who => a.post who

def published (l l' : Link) : List Message :=
  (l'.fanout.publications.drop l.fanout.publications.length).map (·.item)

def observe (a : Ledger) (h : Hub) (l l' : Link) (who : Actor) : Ledger :=
  { a.record h l l' (l.deed l' who) with read := a.read ++ published l l' }

end Ledger

end Dispatch

namespace Dispatcher

/-- What can happen to a dispatcher: a task takes a step, or something comes from outside. -/
inductive Next : Dispatcher → Option Task → Dispatcher → Prop
  | step {d d' : Dispatcher} {t : Task} (h : d.step t = some d') : Next d (some t) d'
  | attach {d : Dispatcher} {c : ConnectionId} (h : d.link? c = none) : Next d none (d.attach c)
  | close (d : Dispatcher) (c : ConnectionId) : Next d none (d.close c)
  | send {d d' : Dispatcher} {c : ConnectionId} {errand : Errand} {n : Nat}
      (h : d.send c errand = some (d', n)) : Next d none d'
  | abort {d : Dispatcher} {c : ConnectionId} {l : Link} (n : Nat) (h : d.link? c = some l) :
      Next d none (d.put { l with desk := l.desk.abort (.caller n) })
  | outside {d : Dispatcher} {c : ConnectionId} {l l' : Link} (h : d.link? c = some l)
      (hl : l.Outside l') : Next d none (d.put l')
  | world {d : Dispatcher} {h : Hub} (hi : h.inflight = d.hub.inflight) :
      Next d none { d with hub := h }

def account (c : ConnectionId) (a : Ledger) (d d' : Dispatcher) : Option Task → Ledger
  | none => a
  | some (c', who) =>
    match d.link? c, d'.link? c with
    | some l, some l' => if c' = c then a.observe d.hub l l' who else a
    | _, _ => a

def Audited (c : ConnectionId) (x y : Dispatcher × Ledger) : Prop :=
  ∃ t, Next x.1 t y.1 ∧ y.2 = account c x.2 x.1 y.1 t

def Runs (c : ConnectionId) : Dispatcher × Ledger → Dispatcher × Ledger → Prop :=
  Relation.ReflTransGen (Audited c)

def Reachable (c : ConnectionId) (x : Dispatcher × Ledger) : Prop :=
  ∃ service sessions, Runs c (serving service sessions, {}) x

inductive Move
  | arrive (bytes : Bytes)
  | act (who : Actor)

def follow (c : ConnectionId) : List Move → Dispatcher × Ledger → Option (Dispatcher × Ledger)
  | [], x => some x
  | .arrive bytes :: ms, (d, a) => do
    let l ← d.link? c
    follow c ms (d.put (l.receive bytes), a)
  | .act who :: ms, (d, a) => do
    let d' ← d.step (c, who)
    follow c ms (d', account c a d d' (some (c, who)))

theorem follow_runs {c : ConnectionId} {ms : List Move} {x y : Dispatcher × Ledger}
    (h : follow c ms x = some y) : Runs c x y := by
  induction ms generalizing x with
  | nil =>
      cases h
      exact .refl
  | cons m ms ih =>
      obtain ⟨d, a⟩ := x
      cases m with
      | arrive bytes =>
          simp only [follow, Option.bind_eq_bind, Option.bind_eq_some_iff] at h
          obtain ⟨l, hl, h⟩ := h
          have hn : Audited c (d, a) (d.put (l.receive bytes), a) :=
            ⟨none, .outside hl ⟨_, _, _, _, rfl⟩, rfl⟩
          exact .head hn (ih h)
      | act who =>
          simp only [follow, Option.bind_eq_bind, Option.bind_eq_some_iff] at h
          obtain ⟨d', hd, h⟩ := h
          have hn : Audited c (d, a) (d', account c a d d' (some (c, who))) :=
            ⟨some (c, who), .step hd, rfl⟩
          exact .head hn (ih h)

theorem reachable_of_follow {c : ConnectionId} {ms : List Move} {x : Dispatcher × Ledger}
    (service : Service) (sessions : Session.Manager CallName)
    (h : follow c ms ((serving service sessions).attach c, {}) = some x) : Reachable c x := by
  have hn : Audited c (serving service sessions, {}) ((serving service sessions).attach c, {}) :=
    ⟨none, .attach rfl, rfl⟩
  exact ⟨service, sessions, .head hn (follow_runs h)⟩

end Dispatcher

end Parley
