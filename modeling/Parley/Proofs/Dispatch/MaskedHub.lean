import Parley.Dispatch.Dispatcher
import Mathlib.Data.List.Sort

namespace Parley

namespace HandlerError

def masked : HandlerError → HandlerError
  | custom body => custom body
  | _ => internal ""

@[simp] theorem body_masked (e : HandlerError) : e.masked.body = e.body := by
  cases e <;> rfl

end HandlerError

def maskedOutcome (o : Except HandlerError Json) : Except HandlerError Json :=
  o.mapError HandlerError.masked

def Program.masked : Program → Program
  | finish o => finish (maskedOutcome o)
  | panic _ => finish (.error (.internal ""))
  | sleep ms line next => sleep ms line next.masked
  | await gate line next => await gate line next.masked
  | log line next => log line next.masked
  | touch edit next => touch edit fun s => (next s).masked
  | send errand next => send errand fun o => (next o).masked
  | probe next => probe fun b => (next b).masked

@[simp] theorem maskedOutcome_masked (o : Except HandlerError Json) :
    maskedOutcome (maskedOutcome o) = maskedOutcome o := by
  rcases o with (_ | _ | _ | _) | v <;> rfl

@[simp] theorem Program.masked_masked (p : Program) : p.masked.masked = p.masked := by
  induction p with
  | finish o => simp only [masked, maskedOutcome_masked]
  | panic => rfl
  | sleep _ _ _ ih | await _ _ _ ih | log _ _ ih => simp only [masked, ih]
  | touch _ _ ih | send _ _ ih | probe _ ih => simp only [masked, ih]

def Handler.masked (f : Handler) : Handler := fun context params => (f context params).masked

@[simp] theorem Handler.masked_masked (f : Handler) : f.masked.masked = f.masked := by
  funext context params
  exact (f context params).masked_masked

namespace Route.Table

variable {α β : Type}

def map (f : α → β) (t : Table α) : Table β where
  tieBreak := t.tieBreak
  entries := t.entries.map fun e => (e.1, f e.2)

@[simp] theorem methods_map (f : α → β) (t : Table α) : (t.map f).methods = t.methods := by
  simp only [methods, map, List.flatMap_map]

@[simp] theorem size_map (f : α → β) (t : Table α) : (t.map f).size = t.size := List.length_map _

theorem ranked_map (f : α → β) (t : Table α) (method : String) :
    (t.map f).ranked method = (t.ranked method).map fun e => (e.1, f e.2) := by
  rw [ranked, ranked, map, List.filter_map]
  exact (List.map_mergeSort (s := fun a b : Mapping × β => a.1.compare b.1 != .gt)
    fun _ _ _ _ => rfl).symm

theorem resolve_map (f : α → β) (t : Table α) (method : String) :
    (t.map f).resolve method = (t.resolve method).map f := by
  have hb : (t.map f).tieBreak = t.tieBreak := rfl
  rw [resolve, resolve, ranked_map, hb]
  rcases t.ranked method with _ | ⟨best, _ | ⟨next, rest⟩⟩
  · rfl
  · rfl
  · have hd : (((best :: next :: rest).map fun e : Mapping × α => (e.1, f e.2)).takeWhile fun e =>
        best.1.compare e.1 = .eq).map (fun e => e.1.display) =
          ((best :: next :: rest).takeWhile fun e => best.1.compare e.1 = .eq).map
            fun e => e.1.display := by
      rw [List.takeWhile_map, List.map_map]
      rfl
    simp only [List.map_cons] at hd ⊢
    by_cases h : best.1.compare next.1 = .eq ∧ t.tieBreak = .reject
    · rw [if_pos h, if_pos h, hd]
      rfl
    · rw [if_neg h, if_neg h]
      rfl

end Route.Table

namespace Session.Manager

variable {χ : Type} {m : Manager χ}

def masked (m : Manager χ) : Manager χ := { m with refusal := fun _ => .store "" }

@[simp] theorem store_masked (m : Manager χ) : m.masked.store = m.store := rfl

@[simp] theorem failing_masked (m : Manager χ) : m.masked.failing = m.failing := rfl

theorem share_masked (m : Manager χ) (a : Handle) :
    m.masked.share a = ((m.share a).1.masked, (m.share a).2) := by
  have hs : m.masked.shared = m.shared := rfl
  have hh (b : Handle) : m.masked.isHeld b = m.isHeld b := rfl
  simp only [share, hs, hh, store_masked]
  split
  · split <;> rfl
  · rfl

theorem retrieveFirst_masked (m : Manager χ) (now : Nat) (ids : List SessionId) :
    m.masked.retrieveFirst now ids =
      ((m.retrieveFirst now ids).1.masked, (m.retrieveFirst now ids).2) := by
  induction ids generalizing m with
  | nil => rfl
  | cons id ids ih =>
      rcases hr : m.store.retrieve id now with ⟨store, _ | a⟩ <;>
        simp only [retrieveFirst, store_masked, hr]
      · exact ih { m with store }
      · rfl

theorem resolve_masked (m : Manager χ) (ids : List SessionId) (spare : SessionId) (now : Nat) :
    m.masked.resolve ids spare now = ((m.resolve ids spare now).1.masked,
      (m.resolve ids spare now).2.mapError fun _ => .store "") := by
  rw [resolve, resolve, failing_masked, retrieveFirst_masked]
  by_cases hr : .retrieve ∈ m.failing ∧ !ids.isEmpty
  · rw [if_pos hr, if_pos hr]
    rfl
  · rw [if_neg hr, if_neg hr]
    rcases m.retrieveFirst now ids with ⟨n, _ | a⟩ <;> dsimp only
    · rw [show n.masked.prune = n.prune.masked from rfl, failing_masked]
      by_cases hc : .create ∈ n.prune.failing
      · rw [if_pos hc, if_pos hc]
        rfl
      · have hs := share_masked
          { n.prune with store := (n.prune.store.create (ids.headD spare) now).1 }
          (n.prune.store.create (ids.headD spare) now).2
        rw [if_neg hc, if_neg hc]
        exact congrArg (fun x => (x.1, Except.ok x.2)) hs
    · rw [share_masked]
      rfl

theorem saveIfActive_masked (m : Manager χ) (a : Handle) (now : Nat) :
    (m.masked.saveIfActive a now).1 = (m.saveIfActive a now).1.masked ∧
      ((m.masked.saveIfActive a now).2 = .ok () ↔ (m.saveIfActive a now).2 = .ok ()) := by
  rw [saveIfActive, saveIfActive, save, save, store_masked, failing_masked]
  by_cases ha : (m.store.get? a).any isActive = true
  · rw [if_pos ha, if_pos ha]
    by_cases hf : .save ∈ m.failing
    · rw [if_pos hf, if_pos hf]
      simp
    · rw [if_neg hf, if_neg hf]
      exact ⟨rfl, .rfl⟩
  · rw [if_neg ha, if_neg ha]
    exact ⟨rfl, .rfl⟩

end Session.Manager

namespace Dispatch

open Session (Handle)

def Hub.masked (h : Hub) : Hub := { h with sessions := h.sessions.masked, events := [] }

namespace Hub

variable {g h : Hub}

@[simp] theorem masked_log (h : Hub) (e : Log.Event) : (h.log e).masked = h.masked := rfl

@[simp] theorem masked_logIf (h : Hub) (b : Bool) (e : Log.Event) :
    (h.logIf b e).masked = h.masked := by
  cases b <;> rfl

@[simp] theorem masked_logAll (h : Hub) (es : List Log.Event) : (h.logAll es).masked = h.masked := by
  induction es generalizing h with
  | nil => rfl
  | cons e es ih => exact ih (h.log e)

theorem inflight_eq (hg : g.masked = h.masked) : g.inflight = h.inflight :=
  (congrArg Hub.inflight hg : g.masked.inflight = h.masked.inflight)

theorem now_eq (hg : g.masked = h.masked) : g.now = h.now :=
  (congrArg Hub.now hg : g.masked.now = h.masked.now)

theorem moment_eq (hg : g.masked = h.masked) : g.moment = h.moment :=
  (congrArg Hub.moment hg : g.masked.moment = h.masked.moment)

theorem gates_eq (hg : g.masked = h.masked) : g.gates = h.gates :=
  (congrArg Hub.gates hg : g.masked.gates = h.masked.gates)

theorem sessions_eq (hg : g.masked = h.masked) : g.sessions.masked = h.sessions.masked :=
  (congrArg Hub.sessions hg : g.masked.sessions = h.masked.sessions)

theorem store_eq (hg : g.masked = h.masked) : g.sessions.store = h.sessions.store :=
  (congrArg Session.Manager.store (sessions_eq hg) :
    g.sessions.masked.store = h.sessions.masked.store)

theorem masked_setInflight (hg : g.masked = h.masked) (inflight : InFlight TokenName) :
    ({ g with inflight } : Hub).masked = ({ h with inflight } : Hub).masked := by
  change ({ g.masked with inflight } : Hub) = { h.masked with inflight }
  rw [hg]

theorem masked_setSessions {m n : Session.Manager CallName} (hg : g.masked = h.masked)
    (hm : m.masked = n.masked) :
    ({ g with sessions := m } : Hub).masked = ({ h with sessions := n } : Hub).masked := by
  change ({ g.masked with sessions := m.masked } : Hub) = { h.masked with sessions := n.masked }
  rw [hg, hm]

theorem masked_note (hg : g.masked = h.masked) (line : String) :
    (g.note line).masked = (h.note line).masked := by
  change g.masked.note line = h.masked.note line
  rw [hg]

theorem masked_tick (hg : g.masked = h.masked) : g.tick.masked = h.tick.masked := by
  change g.masked.tick = h.masked.tick
  rw [hg]

theorem masked_fire (hg : g.masked = h.masked) (c : ConnectionId) (s : Scope) :
    (g.fire c s).masked = (h.fire c s).masked := by
  change g.masked.fire c s = h.masked.fire c s
  rw [hg]

theorem masked_edit (hg : g.masked = h.masked) (a : Handle) (f : Session → Session) :
    ({ g with sessions := g.sessions.edit a f } : Hub).masked =
      ({ h with sessions := h.sessions.edit a f } : Hub).masked := by
  refine masked_setSessions hg ?_
  change g.sessions.masked.edit a f = h.sessions.masked.edit a f
  rw [sessions_eq hg]

theorem masked_release (hg : g.masked = h.masked) (who : CallName) :
    ({ g with sessions := g.sessions.release who } : Hub).masked =
      ({ h with sessions := h.sessions.release who } : Hub).masked := by
  refine masked_setSessions hg ?_
  change g.sessions.masked.release who = h.sessions.masked.release who
  rw [sessions_eq hg]

end Hub

end Dispatch

end Parley
