import Parley.Proofs.Dispatch.Chronicled

namespace Parley.Dispatcher

open Dispatch

variable {d : Dispatcher} {c : ConnectionId} {l : Link} {x : Chronicle}

/-- What is known of the answers on a connection, of which the chronicle `x` has been kept. -/
structure SavesFirst (c : ConnectionId) (d : Dispatcher) (l : Link) (x : Chronicle) : Prop where
  /-- An exchange gets its session, has its outcome claimed, runs its hook, and queues its answer,
  in this order. -/
  told : ∀ s, Told (l.call? s) (x.diary s)
  posts : x.posts.map (·.2) = l.responses
  /-- A response is queued by the call of the request, after the hook for the session that it got.
  It is what the handler came to if the hook has succeeded, and tells nothing if it has failed. Or
  the pump has queued it, and the outcome of the call is never claimed and no hook is run for it. -/
  answers : List.Forall₂ (fun p (n : Nat) => ∃ (q : Request) (o : Option Nat),
    x.ledger.taken[n]? = some (.request q, o) ∧ p.2.id = q.id ∧
      ((∃ s r outcome vs, p.1 = .call s ∧ o = some s ∧
          x.diary s = record r outcome vs ++ [.queued p.2] ∧ vs.map Visit.session = r.toList ∧
          ((∀ v ∈ vs, v.result.2 = .ok ()) →
            p.2.outcome = outcome.mapError HandlerError.body) ∧
          ((∃ v ∈ vs, v.result.2 ≠ .ok ()) →
            p.2.outcome = .error ⟨-32603, "internal server error", none⟩)) ∨
        p.1 = .requests ∧ ∀ s, o = some s → ∀ e ∈ x.diary s, ∃ a, e = .resolved a))
    x.posts x.ledger.answers
  /-- The outcome that is claimed is what the handler has come to, by ending, panicking or waiting
  for too long, or that there was no session for it. -/
  claims : ∀ who d', d.step (c, who) = some d' → ∀ es,
    (chronicle c x d d' (some (c, who))).entries = x.entries ++ es →
      ∀ s outcome, (s, .claimed outcome) ∈ es → who = .call s ∧
        ∃ k, l.call? s = some k ∧ k.Ends d.service d.hub l.desk.peer c outcome
  /-- The step that runs a hook has the store save the session once, if it has been started and has
  not expired, and lets go of it. No other step of the connection has a session stored. -/
  hooks : ∀ who d', d.step (c, who) = some d' → ∃ es,
    (chronicle c x d d' (some (c, who))).entries = x.entries ++ es ∧
    (∀ s v, (s, .hooked v) ∈ es → who = .call s ∧ es = [(s, .hooked v)] ∧
      v.before = d.hub.sessions ∧ v.moment = d.hub.moment ∧
      d'.hub.sessions = v.result.1.release (c, s) ∧
      (v.IsActive → v.result = v.before.save v.session v.moment) ∧
      (¬v.IsActive → v.result = (v.before, .ok ()))) ∧
    ((∀ s v, (s, .hooked v) ∉ es) → d'.hub.sessions.store.stored ⊆ d.hub.sessions.store.stored)

theorem saves_first (h : Chronicled.Reachable c (d, x)) (hl : d.link? c = some l) :
    SavesFirst c d l x := by
  have hx := h.holds hl
  have hi := id_of_link? hl
  constructor
  case told => exact hx.recorded.told
  case posts => exact hx.posts
  case answers =>
    refine hx.sourced.posts.imp fun ⟨who, y⟩ n ⟨q, o, hn, hid, hs⟩ => ⟨q, o, hn, hid, ?_⟩
    cases who with
    | call s =>
        obtain ⟨ho, hq⟩ := hs
        obtain ⟨r, outcome, vs, he, hsv⟩ := (hx.recorded.told s).queued hq
        exact .inl ⟨s, r, outcome, vs, rfl, ho, he, hsv.sessions, hsv.kept, hsv.hidden⟩
    | requests => exact .inr ⟨rfl, fun s hos => (hs s hos).2⟩
    | _ => exact hs.elim
  case claims =>
    intro who d' hd es hes s outcome hc
    obtain ⟨l', hl', hs, -⟩ := step_own h.sound hl hd
    rw [chronicle_own _ hl hl'] at hes
    obtain rfl : l.entries d.hub l' who = es := List.append_cancel_left hes
    exact hi ▸ Link.step_claimed (h.sound.linked hl).1 hs hc
  case hooks =>
    intro who d' hd
    obtain ⟨l', hl', hs, -⟩ := step_own h.sound hl hd
    obtain ⟨hhook, hnone⟩ := Link.step_hooked (h.sound.linked hl).1 hx.recorded hs
    refine ⟨l.entries d.hub l' who, by rw [chronicle_own _ hl hl']; rfl, fun s v hv => ?_, hnone⟩
    obtain ⟨hw, hes, hb, hm, ha⟩ := hhook s v hv
    exact ⟨hw, hes, hb, hm, hi ▸ ha, Session.Manager.saveIfActive_of_active,
      Session.Manager.saveIfActive_of_not_active⟩

def starting (ending : Program) : Service where
  routes := { entries := [(.any, fun _ _ => .touch .start fun _ => ending)] }

def petition : Bytes := Frame.encode (Message.request ⟨.number 1, "work", none⟩).encode

def turns : List Actor :=
  [.reader, .reader, .reader, .requests, .requests] ++ List.replicate 5 (.call 0)

def saving (ending : Program) : Option (Dispatcher × Chronicle) :=
  Chronicled.follow ⟨"c"⟩ turns
    (Chronicled.served (starting ending) { store := { maxIdle := 9 } } ⟨"c"⟩ petition, {})

theorem saves_first_of_started : ∃ d x l, Chronicled.Reachable ⟨"c"⟩ (d, x) ∧
    d.link? ⟨"c"⟩ = some l ∧ d.hub.sessions.store.stored = [⟨⟨"c"⟩, 0⟩] ∧
    l.responses = [⟨.number 1, .ok .null⟩] ∧ SavesFirst ⟨"c"⟩ d l x := by
  have hs : ((saving (.finish (.ok .null))).bind fun y => (y.1.link? ⟨"c"⟩).map fun l =>
      (y.1.hub.sessions.store.stored, l.responses)) =
      some ([⟨⟨"c"⟩, 0⟩], [⟨.number 1, .ok .null⟩]) := by
    decide +kernel
  obtain ⟨⟨d, x⟩, hy, h⟩ := Option.bind_eq_some_iff.1 hs
  obtain ⟨l, hl, h⟩ := Option.map_eq_some_iff.1 h
  obtain ⟨hst, hr⟩ := Prod.mk.inj h
  have hreach := Chronicled.reachable_of_follow hy
  exact ⟨d, x, l, hreach, hl, hst, hr, saves_first hreach hl⟩

end Parley.Dispatcher
