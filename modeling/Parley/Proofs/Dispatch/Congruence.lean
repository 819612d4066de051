import Parley.Proofs.Dispatch.Reach
import Parley.Proofs.Flow.Commit
import Parley.Proofs.InFlight.Only
import Parley.Proofs.Session.Only

namespace Parley

theorem ConnectionId.session_inj {c d : ConnectionId} (h : c.session = d.session) : c = d := by
  cases c
  cases d
  cases h
  rfl

end Parley

namespace Parley.Dispatch

open Session (Handle Use)

def CallName.session (n : CallName) : SessionId := n.1.session

def Hub.only (c : ConnectionId) (h : Hub) : Hub where
  inflight := h.inflight.only c
  sessions := h.sessions.only c.session
  moment := h.moment
  now := h.now
  gates := h.gates

def Seen {α : Type} (c : ConnectionId) (x y : Hub × α) : Prop := x.1.only c = y.1.only c ∧ x.2 = y.2

variable {c : ConnectionId} {h g : Hub} {r s : InFlight TokenName} {m n : Session.Manager CallName}

namespace Hub

@[simp] theorem only_log (e : Log.Event) : (h.log e).only c = h.only c := rfl

@[simp] theorem only_logIf (b : Bool) (e : Log.Event) : (h.logIf b e).only c = h.only c := by
  cases b <;> rfl

@[simp] theorem only_logAll (es : List Log.Event) : (h.logAll es).only c = h.only c := by
  induction es generalizing h with
  | nil => rfl
  | cons e es ih => exact ih

theorem inflight_of_only (hh : h.only c = g.only c) : h.inflight.only c = g.inflight.only c :=
  congrArg Hub.inflight hh

theorem sessions_of_only (hh : h.only c = g.only c) :
    h.sessions.only c.session = g.sessions.only c.session :=
  congrArg Hub.sessions hh

theorem moment_of_only (hh : h.only c = g.only c) : h.moment = g.moment :=
  (congrArg Hub.moment hh : (h.only c).moment = (g.only c).moment)

theorem now_of_only (hh : h.only c = g.only c) : h.now = g.now :=
  (congrArg Hub.now hh : (h.only c).now = (g.only c).now)

theorem gates_of_only (hh : h.only c = g.only c) : h.gates = g.gates :=
  (congrArg Hub.gates hh : (h.only c).gates = (g.only c).gates)

theorem only_ext (hr : h.inflight.only c = g.inflight.only c)
    (hm : h.sessions.only c.session = g.sessions.only c.session) (ht : h.moment = g.moment)
    (hn : h.now = g.now) (hg : h.gates = g.gates) : h.only c = g.only c := by
  simp only [only, hr, hm, ht, hn, hg]

theorem only_setInflight (hh : h.only c = g.only c) (hr : r.only c = s.only c) :
    ({ h with inflight := r } : Hub).only c = ({ g with inflight := s } : Hub).only c := by
  change ({ h.only c with inflight := r.only c } : Hub) = { g.only c with inflight := s.only c }
  rw [hh, hr]

theorem only_setSessions (hh : h.only c = g.only c) (hm : m.only c.session = n.only c.session) :
    ({ h with sessions := m } : Hub).only c = ({ g with sessions := n } : Hub).only c := by
  change ({ h.only c with sessions := m.only c.session } : Hub) =
    { g.only c with sessions := n.only c.session }
  rw [hh, hm]

theorem only_tick (hh : h.only c = g.only c) : h.tick.only c = g.tick.only c := by
  change (h.only c).tick = (g.only c).tick
  rw [hh]

theorem only_fire (hh : h.only c = g.only c) (x : Scope) :
    (h.fire c x).only c = (g.fire c x).only c :=
  only_setInflight hh (by rw [InFlight.only_fire, InFlight.only_fire, inflight_of_only hh])

theorem isCancelled_congr (hh : h.only c = g.only c) {token : Flow.Token TokenName}
    (hn : token.name.1 = c) (ha : ∀ x ∈ token.ancestors, x.1 = c) :
    h.inflight.isCancelled token = g.inflight.isCancelled token := by
  rw [← InFlight.isCancelled_only hn ha, inflight_of_only hh, InFlight.isCancelled_only hn ha]

theorem isStopped_congr (hh : h.only c = g.only c) : h.isStopped c = g.isStopped c :=
  isCancelled_congr hh rfl (by simp [stopToken])

theorem callToken_congr (hh : h.only c = g.only c) (n : Nat) :
    h.inflight.isCancelled (callToken c n) = g.inflight.isCancelled (callToken c n) :=
  isCancelled_congr hh rfl (by simp [callToken, handlersToken, stopToken, Flow.Token.child])

end Hub

namespace Activity

variable {a : Handle}

theorem exec_congr (hh : h.only c = g.only c) (ha : a.id = c.session) (n : Nat)
    (program : Program) :
    Seen c (exec h (Hub.callToken c n) a program) (exec g (Hub.callToken c n) a program) := by
  cases program with
  | finish | panic | await | log | send => exact ⟨hh, rfl⟩
  | sleep ms ifDropped next => exact ⟨hh, by simp only [exec, Hub.now_of_only hh]⟩
  | probe next => exact ⟨hh, by simp only [exec, Hub.callToken_congr hh]⟩
  | touch edit next =>
      have hm := Hub.sessions_of_only hh
      refine ⟨Hub.only_setSessions hh (Session.Manager.only_edit hm a edit), ?_⟩
      have hs : h.sessions.store.only c.session = g.sessions.store.only c.session :=
        congrArg Session.Manager.store hm
      have hget : h.sessions.store.get? a = g.sessions.store.get? a := by
        rw [← Session.Store.get?_only ha, hs, Session.Store.get?_only ha]
      simp only [exec, touch, hget]

theorem step_congr (p : Peer Actor) (hh : h.only c = g.only c) (ha : a.id = c.session) (n : Nat)
    (activity : Activity) :
    Seen c (activity.step h p n (Hub.callToken c n) a)
      (activity.step g p n (Hub.callToken c n) a) := by
  cases activity with
  | running program =>
      obtain ⟨h1, h2⟩ := exec_congr hh ha n program
      exact ⟨h1, by simp only [step, h2]⟩
  | asleep wake ifDropped next => exact ⟨hh, by simp only [step, Hub.now_of_only hh]⟩
  | atGate gate ifDropped next => exact ⟨hh, by simp only [step, Hub.gates_of_only hh]⟩
  | sending x next =>
      simp only [step, Hub.now_of_only hh]
      split <;> exact ⟨hh, rfl⟩

theorem drop_congr (p : Peer Actor) (serial : Nat) (hh : h.only c = g.only c)
    (activity : Activity) :
    Seen c (activity.drop h p serial) (activity.drop g p serial) := by
  cases activity <;> exact ⟨hh, rfl⟩

end Activity

namespace Call

variable {k : Call}

/-- A call executes in the session of its connection, and until it has settled it holds what it is
going to save. -/
structure Holding (c : ConnectionId) (h : Hub) (k : Call) : Prop where
  session : ∀ activity deadline a, k.phase = .executing activity deadline a → a.id = c.session
  hooks : (∀ m, k.phase ≠ .replying m) → ∀ a ∈ k.commit.hooks, ((c, k.serial), a) ∈ h.sessions.holds

theorem Holding.congr (hk : k.Holding c h) (hh : g.sessions.holds = h.sessions.holds) :
    k.Holding c g :=
  ⟨hk.session, hh ▸ hk.hooks⟩

structure Fit (c : ConnectionId) (h : Hub) (k : Call) : Prop extends k.Holding c h where
  token : k.token = Hub.callToken c k.serial
  ticket : ∀ t, k.ticket = some t → t.connection = c

@[simp] theorem only_log (e : Log.Event) : (k.log h c e).only c = h.only c := rfl

theorem letGo_congr (hh : h.only c = g.only c) (ht : ∀ t, k.ticket = some t → t.connection = c) :
    (k.letGo h c).only c = (k.letGo g c).only c := by
  have hm := Session.Manager.only_release (Hub.sessions_of_only hh) (c, k.serial)
  have hs := Hub.only_setSessions hh hm
  simp only [letGo]
  cases hk : k.ticket with
  | none => exact hs
  | some t =>
      exact Hub.only_setInflight hs (InFlight.release_congr (Hub.inflight_of_only hh) (ht t hk)).1

theorem abandon_congr (hh : h.only c = g.only c) (ht : ∀ t, k.ticket = some t → t.connection = c) :
    (k.abandon h c).only c = (k.abandon g c).only c := by
  rw [abandon, abandon]
  split <;> exact letGo_congr hh ht

theorem only_logSessions (m : Session.Manager CallName) :
    (k.logSessions h c m).only c = h.only c := by
  simp only [logSessions]
  split <;> split <;> rfl

theorem resolve_congr (hh : h.only c = g.only c) (hm : h.sessions.Owned CallName.session)
    (hn : g.sessions.Owned CallName.session) : Seen c (k.resolve h c) (k.resolve g c) := by
  have hr := Session.Manager.resolve_resolved (Hub.sessions_of_only hh) hm.shared hn.shared h.moment
  have hg : g.moment = h.moment := (Hub.moment_of_only hh).symm
  have hl : (k.logSessions h c (h.sessions.resolve [c.session] c.session h.moment).1).tick.only c =
      (k.logSessions g c (g.sessions.resolve [c.session] c.session h.moment).1).tick.only c :=
    Hub.only_tick (by rw [only_logSessions, only_logSessions, hh])
  simp only [resolve, hg]
  generalize h.sessions.resolve [c.session] c.session h.moment = x at hr hl
  generalize g.sessions.resolve [c.session] c.session h.moment = y at hr hl
  cases hr with
  | failed he => exact ⟨Hub.only_setSessions hl he, rfl⟩
  | found ha he => exact ⟨Hub.only_setSessions hl (he _), rfl⟩

theorem conclude_congr (hh : h.only c = g.only c) (ht : ∀ t, k.ticket = some t → t.connection = c)
    (outcome : Except HandlerError Json) :
    Seen c (k.conclude h c outcome) (k.conclude g c outcome) := by
  have hi := Hub.inflight_of_only hh
  cases hk : k.ticket with
  | none =>
      cases outcome <;> simp only [conclude, hk, if_true] <;>
        exact ⟨Hub.only_setInflight hh hi, rfl⟩
  | some t =>
      obtain ⟨h1, h2⟩ := InFlight.claim_congr hi (ht t hk)
      have hs := Hub.only_setInflight hh h1
      cases outcome <;> simp only [conclude, hk, h2] <;> split
      all_goals first | exact ⟨hs, rfl⟩ | exact ⟨letGo_congr hs ht, rfl⟩

theorem saveAll_congr {as : List Handle} {who : CallName} (hh : h.only c = g.only c)
    (ha : ∀ a ∈ as, a.id = c.session) (hm : ∀ a ∈ as, (who, a) ∈ h.sessions.holds)
    (hn : ∀ a ∈ as, (who, a) ∈ g.sessions.holds) : Seen c (saveAll h as) (saveAll g as) := by
  induction as generalizing h g with
  | nil => exact ⟨hh, rfl⟩
  | cons a as ih =>
      have hin : a ∈ a :: as := List.mem_cons_self
      obtain ⟨h1, h2⟩ := Session.Manager.saveIfActive_congr (Hub.sessions_of_only hh) (ha a hin)
        (.inr ⟨who, hm a hin⟩) (.inr ⟨who, hn a hin⟩) h.moment
      have hs := Hub.only_setSessions (Hub.only_tick hh) h1
      obtain ⟨s, hs1⟩ := h.sessions.saveIfActive_fst a h.moment
      obtain ⟨t, ht1⟩ := g.sessions.saveIfActive_fst a h.moment
      simp only [saveAll, ← Hub.moment_of_only hh]
      rcases hx : h.sessions.saveIfActive a h.moment with ⟨x, e | u⟩ <;>
        rcases hy : g.sessions.saveIfActive a h.moment with ⟨y, e' | u'⟩ <;>
        simp only [hx, hy] at h2 hs hs1 ht1 <;> cases h2
      · exact ⟨hs, rfl⟩
      · refine ih hs (fun b hb => ha b (.tail _ hb)) (fun b hb => ?_) fun b hb => ?_
        · exact hs1 ▸ hm b (.tail _ hb)
        · exact ht1 ▸ hn b (.tail _ hb)

theorem settle_congr (hh : h.only c = g.only c) (hm : h.sessions.Owned CallName.session)
    (hk : k.Fit c h) (hk' : k.Fit c g) {outcome : Except HandlerError Json}
    (hp : k.phase = .concluded outcome) :
    Seen c (k.settle h c outcome) (k.settle g c outcome) := by
  have hr : ∀ m, k.phase ≠ .replying m := by simp [hp]
  have hhooks := Flow.Commit.hooks_start k.commit
  obtain ⟨h1, h2⟩ := saveAll_congr hh (fun a ha => hm.holds _ (hk.hooks hr a ha)) (hk.hooks hr)
    (hk'.hooks hr)
  rcases hx : saveAll h k.commit.hooks with ⟨x, e | u⟩ <;>
    rcases hy : saveAll g k.commit.hooks with ⟨y, e' | u'⟩ <;>
    simp only [hx, hy] at h1 h2 <;> cases h2 <;> simp only [settle, hhooks, hx, hy]
  · have hl := letGo_congr (h := k.log x c .saveFailed) (g := k.log y c .saveFailed) h1 hk.ticket
    cases ht : k.ticket <;> exact ⟨hl, rfl⟩
  · have hl := letGo_congr h1 hk.ticket
    cases ht : k.ticket <;> exact ⟨hl, rfl⟩

theorem start_congr (sv : Service) (hh : h.only c = g.only c)
    (hm : h.sessions.Owned CallName.session)
    (hn : g.sessions.Owned CallName.session) (ht : ∀ t, k.ticket = some t → t.connection = c) :
    Seen c (k.start sv h c) (k.start sv g c) := by
  obtain ⟨h1, h2⟩ := resolve_congr (k := k) hh hm hn
  obtain ⟨-, commit, hc⟩ := resolve_eq k h c
  rcases hx : k.resolve h c with ⟨x, i, e | a⟩ <;> rcases hy : k.resolve g c with ⟨y, j, e' | a'⟩ <;>
    simp only [hx, hy] at h1 h2 hc <;> cases h2 <;> subst hc <;> simp only [start, hx, hy]
  · exact conclude_congr (k := { k with commit }) h1 ht _
  · exact ⟨h1, by rw [Hub.now_of_only h1]⟩

/-- A step of a call depends on the part of its connection alone. -/
theorem step_congr (sv : Service) (p : Peer Actor) (hh : h.only c = g.only c)
    (hm : h.sessions.Owned CallName.session)
    (hn : g.sessions.Owned CallName.session) (hk : k.Fit c h) (hk' : k.Fit c g) :
    Option.Rel (Seen c) (k.step sv h p c) (k.step sv g p c) := by
  have hc : h.inflight.isCancelled k.token = g.inflight.isCancelled k.token := by
    rw [hk.token, Hub.callToken_congr hh]
  cases hp : k.phase with
  | fresh =>
      simp only [step, hp, hc]
      split
      · exact .some ⟨abandon_congr hh hk.ticket, rfl⟩
      · obtain ⟨h1, h2⟩ := start_congr sv hh hm hn hk.ticket
        exact .some ⟨h1, by rw [h2]⟩
  | executing activity deadline a =>
      have hdrop := Activity.drop_congr p k.serial hh activity
      simp only [step, hp, hc]
      split
      · obtain ⟨h1, h2⟩ := hdrop
        exact .some ⟨abandon_congr h1 hk.ticket, by rw [h2]⟩
      · obtain ⟨h1, h2⟩ := Activity.step_congr p hh
          (hk.session _ _ _ hp) k.serial activity
        rw [hk.token]
        rcases hx : activity.step h p k.serial (Hub.callToken c k.serial) a with ⟨x, q, r⟩
        rcases hy : activity.step g p k.serial (Hub.callToken c k.serial) a with ⟨y, q', r'⟩
        simp only [hx, hy] at h1 h2
        cases h2
        cases r with
        | moved b => exact .some ⟨h1, rfl⟩
        | ended outcome =>
            obtain ⟨h3, h4⟩ := conclude_congr h1 hk.ticket outcome
            exact .some ⟨h3, by rw [h4]⟩
        | panicked text =>
            obtain ⟨h3, h4⟩ := conclude_congr (h := k.log x c .handlerPanicked)
              (g := k.log y c .handlerPanicked) h1 hk.ticket (.error (Activity.panicError text))
            exact .some ⟨h3, by rw [h4]⟩
        | waiting =>
            simp only [Hub.now_of_only hh]
            split
            · obtain ⟨h1, h2⟩ := hdrop
              obtain ⟨h3, h4⟩ := conclude_congr h1 hk.ticket
                (.error (timedOut (sv.config.handlerTimeout.getD 0)))
              exact .some ⟨h3, by rw [h2, h4]⟩
            · exact .none
  | concluded outcome =>
      obtain ⟨h1, h2⟩ := settle_congr hh hm hk hk' hp
      simp only [step, hp]
      exact .some ⟨h1, by rw [h2]⟩
  | replying m =>
      simp only [step, hp]
      rcases p.outbound.offer (.call k.serial) m with ⟨outbound, _ | _ | _⟩
      · exact .some ⟨hh, rfl⟩
      · dsimp only
        split
        · exact .none
        · exact .some ⟨hh, rfl⟩
      · exact .some ⟨by simpa [Log.Event.unsent] using hh, rfl⟩

end Call

end Parley.Dispatch
