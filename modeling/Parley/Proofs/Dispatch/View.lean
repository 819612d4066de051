import Parley.Proofs.Dispatch.Footprint
import Parley.Proofs.Dispatch.Turn
import Mathlib.Logic.Function.Basic

namespace Parley.Dispatch

inductive Purge
  | none
  | seizing (ts : List (Ticket TokenName))
  | firing (t : Ticket TokenName) (ts : List (Ticket TokenName))
  | cleared

def Purge.doomed : Purge → List (Ticket TokenName)
  | seizing ts | firing _ ts => ts
  | none | cleared => []

def Supervisor.purge : Supervisor → Purge
  | awaitingReader | awaitingRequests | awaitingResponses | withdrawing => .none
  | seizing ts => .seizing ts
  | firing t ts => .firing t ts
  | closing | dismissing | stopping | awaitingWriter | done => .cleared

@[ext] structure View where
  registry : InFlight TokenName
  job : Nat → Option Job
  numbered : Nat
  pump : Pump
  responses : List Response
  shut : Bool
  purge : Purge

def Link.view (h : Hub) (l : Link) : View where
  registry := h.inflight
  job serial := (l.call? serial).map Call.job
  numbered := l.numbered
  pump := l.requests
  responses := l.responses
  shut := l.desk.peer.outbound.shut
  purge := l.supervisor.purge

def View.IsOpen (c : ConnectionId) (v : View) : Prop :=
  (c, .connection) ∉ v.registry.fired ∧ v.purge = .none

/-- Nobody has told the connection to stop, and its supervisor has not begun to clean up. -/
def Link.IsOpen (h : Hub) (l : Link) : Prop :=
  h.isStopped l.id = false ∧ l.supervisor.purge = .none

inductive Intake (c : ConnectionId) (v : View) : Message → View → Prop
  | passed {m : Message} (hm : ∀ q, m ≠ .request q) : Intake c v m v
  | notified {m : Message} (hm : ∀ q, m ≠ .request q) : Intake c v m { v with
      job := Function.update v.job v.numbered
        (some ⟨none, Hub.callToken c v.numbered, .executing⟩)
      numbered := v.numbered + 1 }
  | refused {q : Request} (b : ErrorBody) : Intake c v (.request q) { v with
      pump := .replying (.response ⟨q.id, .error b⟩) }
  | begun {q : Request} {r : InFlight TokenName} {t : Ticket TokenName}
      (hb : v.registry.begin? c q.id (Hub.callToken c v.numbered) = some (r, t)) :
      Intake c v (.request q) { v with
        registry := r
        job := Function.update v.job v.numbered
          (some ⟨some t, Hub.callToken c v.numbered, .executing⟩)
        numbered := v.numbered + 1 }
  | cancelled {n : Notification} {id : RequestId} {r : InFlight TokenName}
      (hn : n.method = Message.cancelMethod) (ht : Link.cancelTarget? n.params = some id)
      (hc : v.registry.cancel c id = (r, true)) :
      Intake c v (.notification n) { v with
        registry := r
        pump := .replying (.response ⟨id, .error .cancelled⟩) }
  | missed {n : Notification} {id : RequestId} {r : InFlight TokenName}
      (hn : n.method = Message.cancelMethod) (ht : Link.cancelTarget? n.params = some id)
      (hc : v.registry.cancel c id = (r, false)) :
      Intake c v (.notification n) { v with registry := r }

inductive Change (c : ConnectionId) (v : View) : Deed → View → Prop
  | idle {n : Nat} (hn : v.numbered ≤ n) : Change c v .nothing { v with numbered := n }
  | told : Change c v .nothing { v with registry := v.registry.fire (c, .connection) }
  | shut (hs : (c, .connection) ∈ v.registry.fired) : Change c v .nothing { v with shut := true }
  | broken : Change c v .nothing { v with
      registry := v.registry.fire (c, .connection), shut := true }
  | withdrawn (hp : v.purge = .none) : Change c v .nothing { v with
      registry := (v.registry.withdraw c).1
      purge := .seizing (v.registry.ofConnection c) }
  | seized {t : Ticket TokenName} {ts : List (Ticket TokenName)} (hp : v.purge = .seizing (t :: ts)) :
      Change c v .nothing { v with registry := v.registry.seize t, purge := .firing t ts }
  | struck {t : Ticket TokenName} {ts : List (Ticket TokenName)} (hp : v.purge = .firing t ts) :
      Change c v .nothing { v with
        registry := v.registry.fire t.token.name, purge := .seizing ts }
  | emptied (hp : v.purge = .seizing []) : Change c v .nothing { v with purge := .cleared }
  | dismissed (hp : v.purge = .cleared) : Change c v .nothing { v with
      registry := v.registry.fire (c, .handlers), purge := .cleared }
  | ended (hp : v.pump = .taking) : Change c v .nothing { v with pump := .done }
  | received {m : Message} (hp : v.pump = .taking) :
      Change c v .nothing { v with pump := .handling m }
  | handled {m : Message} {w : View} (hp : v.pump = .handling m)
      (hw : Intake c { v with pump := .taking } m w) : Change c v (.take m) w
  | posted {x : Response} (hp : v.pump = .replying (.response x)) :
      Change c v (.post .requests) { v with pump := .taking, responses := v.responses ++ [x] }
  | unsent {m : Message} (hp : v.pump = .replying m) (hs : v.shut = true) :
      Change c v .nothing { v with pump := .taking }
  | turned {serial : Nat} {j : Job} {r : InFlight TokenName} {j' : Option Job}
      {x : Option Response} (hj : v.job serial = some j)
      (ht : Turn v.registry v.shut j r j' x) :
      Change c v (if x.isSome then .post (.call serial) else .nothing) { v with
        registry := r
        job := Function.update v.job serial j'
        responses := v.responses ++ x.toList }

theorem Hub.isStopped_iff {h : Hub} {c : ConnectionId} :
    h.isStopped c = true ↔ (c, .connection) ∈ h.inflight.fired := by
  simp [isStopped, InFlight.isCancelled_iff, stopToken]

theorem Link.isOpen_iff {h : Hub} {l : Link} : l.IsOpen h ↔ (l.view h).IsOpen l.id := by
  rw [IsOpen, Bool.eq_false_iff, Ne, Hub.isStopped_iff]
  rfl

namespace Link

structure Tidy (l : Link) : Prop where
  calls : ∀ k ∈ l.calls, k.Tidy ∧ k.serial < l.numbered
  callers : ∀ e ∈ l.desk.callers, e.2.Plain
  pump : ∀ m, l.requests = .replying m → ∃ x, m = .response x

variable {l l' : Link}

theorem Tidy.call {n : Nat} {k : Call} (ht : l.Tidy) (hk : l.call? n = some k) :
    k.Tidy ∧ k.serial < l.numbered := ht.calls k (List.mem_of_find?_eq_some hk)

theorem Tidy.congr (ht : l.Tidy) (hk : l'.calls = l.calls) (hn : l'.numbered = l.numbered)
    (hd : l'.desk.callers = l.desk.callers) (hp : l'.requests = l.requests) : l'.Tidy :=
  ⟨by rw [hk, hn]; exact ht.calls, by rw [hd]; exact ht.callers, by rw [hp]; exact ht.pump⟩

theorem find?_replace {calls : List Call} {serial n : Nat} {i : Call} (hi : i.serial = serial) :
    ((calls.map fun d => if d.serial = serial then i else d).find? fun d => d.serial = n) =
      if n = serial then (calls.find? fun d => d.serial = serial).map fun _ => i
      else calls.find? fun d => d.serial = n := by
  induction calls with
  | nil => simp
  | cons d ds ih => grind

theorem find?_remove {calls : List Call} {serial n : Nat} :
    ((calls.filter fun d => d.serial ≠ serial).find? fun d => d.serial = n) =
      if n = serial then none else calls.find? fun d => d.serial = n := by
  induction calls with
  | nil => simp
  | cons d ds ih => grind

theorem mem_replaced {calls : List Call} {serial : Nat} {k' : Option Call} {i : Call}
    (hi : i ∈ replaced calls serial k') : i ∈ calls ∨ k' = some i := by
  cases k' with
  | none => exact .inl (List.mem_filter.1 hi).1
  | some k =>
      obtain ⟨d, hd, rfl⟩ := List.mem_map.1 hi
      split
      · exact .inr rfl
      · exact .inl hd

theorem find?_replaced {calls : List Call} {k' : Option Call} {n s : Nat}
    (hs : (calls.find? fun d => d.serial = n).isSome) (hk : ∀ i, k' = some i → i.serial = n) :
    ((replaced calls n k').find? fun d => d.serial = s) =
      if s = n then k' else calls.find? fun d => d.serial = s := by
  obtain ⟨d, hd⟩ := Option.isSome_iff_exists.1 hs
  cases k' with
  | none => exact find?_remove
  | some i =>
      rw [replaced, find?_replace (hk i rfl), hd]
      rfl

theorem job_replaced {calls : List Call} {serial : Nat} {k' : Option Call}
    (hs : (calls.find? fun d => d.serial = serial).isSome)
    (hk : ∀ i, k' = some i → i.serial = serial) :
    (fun n => ((replaced calls serial k').find? fun d => d.serial = n).map Call.job) =
      Function.update (fun n => (calls.find? fun d => d.serial = n).map Call.job) serial
        (k'.map Call.job) := by
  funext n
  rw [find?_replaced hs hk]
  by_cases hn : n = serial
  · rw [if_pos hn, hn, Function.update_self]
  · rw [if_neg hn, Function.update_of_ne hn]

end Link

end Parley.Dispatch
