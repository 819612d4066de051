import Parley.Proofs.Dispatch.Stage
import Parley.Server.Basic

namespace Parley.Server

inductive Event
  | attached (c : ConnectionId)
  | refused (c : ConnectionId) (r : Refusal)
  /-- The watcher of the connection, which waits until that has been cleaned up, has run. -/
  | left (c : ConnectionId)
  | shutDown
  | drain
  /-- The dispatcher has gone on by itself. -/
  | inside
  deriving DecidableEq

structure Opened (n : Nat) (s : Server) : Prop where
  limit : s.limit = n
  free : s.free = n
  attached : s.attached = []
  draining : s.draining = false
  dispatcher : ∃ service sessions, Dispatcher.Onward (.serving service sessions) s.dispatcher

inductive Next : Server → Event → Server → Prop
  | attach {s s' : Server} {c : ConnectionId} (hc : s.dispatcher.link? c = none)
      (h : s.attach c = .ok s') : Next s (.attached c) s'
  | refuse {s : Server} {c : ConnectionId} {r : Refusal} (h : s.attach c = .error r) :
      Next s (.refused c r) s
  | leave {s : Server} {c : ConnectionId} (hc : c ∈ s.leaving) : Next s (.left c) (s.release c)
  | shutDown (s : Server) : Next s .shutDown s.shutDown
  | drain (s : Server) : Next s .drain s.drain
  | inside {s : Server} {t : Option Dispatcher.Task} {d : Dispatcher}
      (h : Dispatcher.Next s.dispatcher t d) : Next s .inside { s with dispatcher := d }

inductive Run (s : Server) : List Event → Server → Prop
  | start : Run s [] s
  | next {es : List Event} {u v : Server} {e : Event} (h : Run s es u) (hn : Next u e v) :
      Run s (es ++ [e]) v

/-- A drain that has begun in `s` waits for the connections that were attached then. It sees them
closed one by one, while anything goes on. -/
inductive Waits (s : Server) : Server → List ConnectionId → Prop
  | begin : Waits s s.drain s.attached
  | next {u v : Server} {cs : List ConnectionId} {e : Event} (h : Waits s u cs) (hn : Next u e v) :
      Waits s v cs
  | seen {u : Server} {c : ConnectionId} {cs : List ConnectionId} (h : Waits s u cs)
      (hc : u.dispatcher.isClosed c = true) : Waits s u (cs.erase c)

def came (es : List Event) : List ConnectionId :=
  es.filterMap fun
    | .attached c => some c
    | _ => none

def gone (es : List Event) : List ConnectionId :=
  es.filterMap fun
    | .left c => some c
    | _ => none

def Begun (es : List Event) : Prop := .shutDown ∈ es ∨ .drain ∈ es

variable {s s' u : Server} {c : ConnectionId} {cs : List ConnectionId} {e : Event} {es : List Event}

theorem opened_ofConfig (c : Config) (routes : Route.Table Handler) :
    Opened c.maxConnections (ofConfig c routes) :=
  ⟨rfl, rfl, rfl, rfl, c.service routes, _, .refl⟩

theorem attach_eq_ok_iff : s.attach c = .ok s' ↔ (s.draining = false ∧ 0 < s.free) ∧
    s' = { s with
      dispatcher := s.dispatcher.attach c, attached := s.attached ++ [c], free := s.free - 1 } := by
  simp only [attach, admits, bind, Except.bind, pure, Except.pure]
  cases s.draining with
  | true => simp
  | false =>
      by_cases hf : s.free = 0
      · simp [hf]
      · simp [hf, Nat.pos_of_ne_zero hf, eq_comm]

theorem release_eq (h : c ∈ s.leaving) :
    s.release c = { s with attached := s.attached.erase c, free := s.free + 1 } := if_pos h

/-- Whatever happens to a server, for its dispatcher it is a part of a run. -/
theorem Next.onward (h : Next s e s') : s.dispatcher.Onward s'.dispatcher := by
  cases h with
  | attach hc h =>
      obtain ⟨-, rfl⟩ := attach_eq_ok_iff.1 h
      exact .next (.attach hc)
  | refuse | shutDown => exact .refl
  | leave hc =>
      rw [release_eq hc]
      exact .refl
  | drain =>
      have hw : s.dispatcher.Onward (s.shutDown.log .draining).dispatcher := .next (.world rfl)
      exact hw.trans (Dispatcher.Onward.closeAll s.attached _)
  | inside h => exact .next h

theorem Run.onward (h : Run s es u) : s.dispatcher.Onward u.dispatcher := by
  induction h with
  | start => exact .refl
  | next _ hn ih => exact ih.trans hn.onward

theorem Waits.onward (h : Waits s u cs) : s.dispatcher.Onward u.dispatcher := by
  induction h with
  | begin => exact (Next.drain s).onward
  | next _ hn ih => exact ih.trans hn.onward
  | seen _ _ ih => exact ih

end Parley.Server
