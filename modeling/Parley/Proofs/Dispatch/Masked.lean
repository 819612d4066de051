import Parley.Proofs.Dispatch.MaskedHub

namespace Parley

namespace Dispatch

open Session (Handle)

namespace Activity

variable {g h : Hub}

def masked : Activity → Activity
  | running p => running p.masked
  | asleep wake line next => asleep wake line next.masked
  | atGate gate line next => atGate gate line next.masked
  | sending x next => sending x fun o => (next o).masked

def Progress.masked : Progress → Progress
  | moved a => moved a.masked
  | waiting => waiting
  | ended o => ended (maskedOutcome o)
  | panicked _ => ended (.error (.internal ""))

@[simp] theorem isLeaving_masked (activity : Activity) :
    activity.masked.isLeaving = activity.isLeaving := by
  cases activity <;> rfl

@[simp] theorem masked_masked (activity : Activity) : activity.masked.masked = activity.masked := by
  cases activity <;> simp only [masked, Program.masked_masked]

theorem exec_masked (token : Flow.Token TokenName) (a : Handle) (hg : g.masked = h.masked)
    (p : Program) :
    (exec g token a p.masked).1.masked = (exec h token a p).1.masked ∧
      (exec g token a p.masked).2 = (exec h token a p).2.masked := by
  cases p with
  | finish | panic | send | await => exact ⟨hg, rfl⟩
  | sleep => exact ⟨hg, by simp only [exec, Program.masked, Hub.now_eq hg]; rfl⟩
  | log line next => exact ⟨Hub.masked_note hg line, rfl⟩
  | touch edit next =>
      refine ⟨Hub.masked_edit hg a edit, ?_⟩
      simp only [exec, Program.masked, touch, Hub.store_eq hg]
      rfl
  | probe next => exact ⟨hg, by simp only [exec, Program.masked, Hub.inflight_eq hg]; rfl⟩

theorem step_masked (token : Flow.Token TokenName) (a : Handle) (hg : g.masked = h.masked)
    (p : Peer Actor) (serial : Nat) (activity : Activity) :
    (activity.masked.step g p serial token a).1.masked =
        (activity.step h p serial token a).1.masked ∧
      (activity.masked.step g p serial token a).2.1 = (activity.step h p serial token a).2.1 ∧
      (activity.masked.step g p serial token a).2.2 =
        (activity.step h p serial token a).2.2.masked := by
  cases activity with
  | running program =>
      obtain ⟨h1, h2⟩ := exec_masked token a hg program
      exact ⟨h1, rfl, h2⟩
  | asleep wake line next =>
      refine ⟨hg, rfl, ?_⟩
      simp only [masked, step, Hub.now_eq hg]
      split <;> rfl
  | atGate gate line next =>
      refine ⟨hg, rfl, ?_⟩
      simp only [masked, step, Hub.gates_eq hg]
      split <;> rfl
  | sending x next =>
      rcases hp : p.step (.call serial) h.now x with ⟨q, y | _ | o⟩ <;>
        simp only [masked, step, Hub.now_eq hg, hp, true_and] <;> exact ⟨hg, rfl⟩

theorem drop_masked (hg : g.masked = h.masked) (p : Peer Actor) (serial : Nat)
    (activity : Activity) :
    (activity.masked.drop g p serial).1.masked = (activity.drop h p serial).1.masked ∧
      (activity.masked.drop g p serial).2 = (activity.drop h p serial).2 := by
  cases activity with
  | running | sending => exact ⟨hg, rfl⟩
  | asleep _ line | atGate _ line => exact ⟨Hub.masked_note hg line, rfl⟩

end Activity

def Phase.masked : Phase → Phase
  | fresh => fresh
  | executing activity deadline a => executing activity.masked deadline a
  | concluded o => concluded (maskedOutcome o)
  | replying m => replying m

@[simp] theorem Phase.masked_masked (phase : Phase) : phase.masked.masked = phase.masked := by
  cases phase <;> simp only [masked, Activity.masked_masked, maskedOutcome_masked]

/-- The service with handlers of whose failures nothing is told. -/
def Service.masked (sv : Service) : Service := { sv with routes := sv.routes.map Handler.masked }

namespace Call

variable {g h : Hub} {k : Call} {conn : ConnectionId} {o o' : Except HandlerError Json}

def masked (k : Call) : Call := { k with handler := k.handler.masked, phase := k.phase.masked }

@[simp] theorem masked_masked (k : Call) : k.masked.masked = k.masked := by
  simp only [masked, Handler.masked_masked, Phase.masked_masked]

theorem masked_goOn {phase phase' : Phase} (hp : phase.masked = phase'.masked) :
    ({ k.masked with phase } : Call).masked = ({ k with phase := phase' } : Call).masked := by
  simp only [masked, Handler.masked_masked, hp]

def Alike (x y : Hub × Option Call) : Prop :=
  x.1.masked = y.1.masked ∧ x.2.map masked = y.2.map masked

theorem letGo_masked (hg : g.masked = h.masked) :
    (k.masked.letGo g conn).masked = (k.letGo h conn).masked := by
  have hr := Hub.masked_release hg (conn, k.serial)
  have ht : k.masked.ticket = k.ticket := rfl
  simp only [letGo, ht]
  cases k.ticket with
  | none => exact hr
  | some t =>
      rw [Hub.inflight_eq hg]
      exact Hub.masked_setInflight hr _

theorem abandon_masked (hg : g.masked = h.masked) :
    (k.masked.abandon g conn).masked = (k.abandon h conn).masked := by
  refine letGo_masked ?_
  have ht : k.masked.ticket = k.ticket := rfl
  rw [ht]
  split <;> exact hg

theorem masked_logSessions (k : Call) (h : Hub) (m : Session.Manager CallName) :
    (k.logSessions h conn m).masked = h.masked := by
  simp only [logSessions]
  split <;> split <;> rfl

/-- Two outcomes that differ in what is masked are claimed alike. -/
theorem conclude_masked (hg : g.masked = h.masked) (ho : maskedOutcome o = maskedOutcome o') :
    Alike (k.masked.conclude g conn o) (k.conclude h conn o') := by
  have ht : k.masked.ticket = k.ticket := rfl
  have hkept (r : InFlight TokenName) := Hub.masked_setInflight hg r
  have hphase : ({ k.masked with phase := .concluded o } : Call).masked =
      ({ k with phase := .concluded o' } : Call).masked := masked_goOn (congrArg Phase.concluded ho)
  simp only [conclude, ht, Hub.inflight_eq hg]
  cases hk : k.ticket with
  | none =>
      simp only [if_true]
      refine ⟨?_, congrArg some (hk ▸ hphase)⟩
      rcases o with _ | _ <;> rcases o' with _ | _ <;> exact hkept _
  | some t =>
      dsimp only
      split
      · refine ⟨?_, congrArg some (hk ▸ hphase)⟩
        rcases o with _ | _ <;> rcases o' with _ | _ <;> exact hkept _
      · exact ⟨letGo_masked (hkept _), rfl⟩

theorem saveAll_masked (hg : g.masked = h.masked) (as : List Handle) :
    (saveAll g as).1.masked = (saveAll h as).1.masked ∧
      ((saveAll g as).2 = .ok () ↔ (saveAll h as).2 = .ok ()) := by
  induction as generalizing g h with
  | nil => exact ⟨hg, .rfl⟩
  | cons a as ih =>
      have hx := g.sessions.saveIfActive_masked a g.moment
      have hy := h.sessions.saveIfActive_masked a h.moment
      rw [Hub.sessions_eq hg, Hub.moment_eq hg] at hx
      have hm := hx.1.symm.trans hy.1
      have hok := hx.2.symm.trans hy.2
      simp only [saveAll, Hub.moment_eq hg]
      rcases hgs : g.sessions.saveIfActive a h.moment with ⟨x, e | u⟩ <;>
        rcases hhs : h.sessions.saveIfActive a h.moment with ⟨y, e' | u'⟩ <;>
        simp [hgs, hhs] at hm hok
      · exact ⟨Hub.masked_setSessions (Hub.masked_tick hg) hm, by simp⟩
      · exact ih (Hub.masked_setSessions (Hub.masked_tick hg) hm)

theorem answer_masked (id : RequestId) (o : Except HandlerError Json) :
    answer id (maskedOutcome o) = answer id o := by
  rcases o with e | v
  · exact congrArg (Message.failure id) e.body_masked
  · rfl

theorem settle_masked (hg : g.masked = h.masked) (o : Except HandlerError Json) :
    Alike (k.masked.settle g conn (maskedOutcome o)) (k.settle h conn o) := by
  have ht : k.masked.ticket = k.ticket := rfl
  have hc : k.masked.commit = k.commit := rfl
  have hreply (m : Message) : ({ k.masked with phase := .replying m } : Call).masked =
      ({ k with phase := .replying m } : Call).masked := masked_goOn rfl
  obtain ⟨hs, hok⟩ := saveAll_masked hg k.commit.start.1.hooks
  simp only [settle, ht, hc, answer_masked]
  rcases hgs : saveAll g k.commit.start.1.hooks with ⟨x, e | u⟩ <;>
    rcases hhs : saveAll h k.commit.start.1.hooks with ⟨y, e' | u'⟩ <;>
    simp [hgs, hhs] at hs hok
  · have hl : (k.masked.letGo (k.masked.log x conn .saveFailed) conn).masked =
        (k.letGo (k.log y conn .saveFailed) conn).masked := letGo_masked hs
    cases hk : k.ticket with
    | none => exact ⟨hl, rfl⟩
    | some t => exact ⟨hl, congrArg some (hk ▸ hreply _)⟩
  · cases hk : k.ticket with
    | none => exact ⟨letGo_masked hs, rfl⟩
    | some t => exact ⟨letGo_masked hs, congrArg some (hk ▸ hreply _)⟩

theorem resolve_masked (k : Call) (conn : ConnectionId) (hg : g.masked = h.masked) :
    (k.masked.resolve g conn).1.masked = (k.resolve h conn).1.masked ∧
      (k.masked.resolve g conn).2.1 = (k.resolve h conn).2.1.masked ∧
      (k.masked.resolve g conn).2.2.mapError (fun _ => ()) =
        (k.resolve h conn).2.2.mapError fun _ => () := by
  have hx := g.sessions.resolve_masked [conn.session] conn.session g.moment
  have hy := h.sessions.resolve_masked [conn.session] conn.session h.moment
  rw [Hub.sessions_eq hg, Hub.moment_eq hg] at hx
  have hlog (m n : Session.Manager CallName) : (k.masked.logSessions g conn m).tick.masked =
      (k.logSessions h conn n).tick.masked :=
    Hub.masked_tick ((masked_logSessions _ _ _).trans (hg.trans (masked_logSessions _ _ _).symm))
  obtain ⟨hm, hr⟩ := Prod.mk.inj (hx.symm.trans hy)
  simp only [resolve, Hub.moment_eq hg]
  rcases hgr : g.sessions.resolve [conn.session] conn.session h.moment with ⟨x, e | a⟩ <;>
    rcases hhr : h.sessions.resolve [conn.session] conn.session h.moment with ⟨y, e' | a'⟩ <;>
    simp only [hgr, hhr] at hm hr
  · exact ⟨Hub.masked_setSessions (hlog _ _) hm, rfl, rfl⟩
  · cases hr
  · cases hr
  · obtain rfl : a = a' := Except.ok.inj hr
    refine ⟨Hub.masked_setSessions (hlog _ _) ?_, rfl, rfl⟩
    change x.masked.hold (conn, k.serial) a = y.masked.hold (conn, k.serial) a
    rw [hm]

theorem start_masked (sv : Service) (hg : g.masked = h.masked) :
    Alike (k.masked.start sv.masked g conn) (k.start sv h conn) := by
  have hctx (c : Call) : c.masked.context sv.masked conn = c.context sv conn := by
    simp only [context, Service.masked, Route.Table.methods_map, Route.Table.size_map, masked]
  obtain ⟨hh, hk, hr⟩ := resolve_masked k conn hg
  rcases hgr : k.masked.resolve g conn with ⟨x, i, e | a⟩ <;>
    rcases hhr : k.resolve h conn with ⟨y, j, e' | a'⟩ <;> simp only [hgr, hhr] at hh hk hr <;>
    subst hk <;> simp only [start, hgr, hhr]
  · exact conclude_masked hh rfl
  · cases hr
  · cases hr
  · obtain rfl : a = a' := Except.ok.inj hr
    have hprogram : (j.masked.handler (j.context sv conn) j.params).masked =
        (j.handler (j.context sv conn) j.params).masked := Program.masked_masked _
    refine ⟨hh, ?_⟩
    rw [hctx, Hub.now_eq hh]
    refine congrArg some (masked_goOn ?_)
    exact congrArg (fun p => Phase.executing (.running p) _ a) hprogram

/-- A step of a call comes to the same, whatever is masked of it before. -/
theorem step_masked (sv : Service) (p : Peer Actor) (conn : ConnectionId)
    (hg : g.masked = h.masked) :
    Option.Rel (fun x y => Alike (x.1, x.2.2) (y.1, y.2.2) ∧ x.2.1 = y.2.1)
      (k.masked.step sv.masked g p conn) (k.step sv h p conn) := by
  have htoken : k.masked.token = k.token := rfl
  have hserial : k.masked.serial = k.serial := rfl
  cases hp : k.phase with
  | fresh =>
      have hp' : k.masked.phase = .fresh := by rw [masked, hp]; rfl
      simp only [step, hp, hp', htoken, Hub.inflight_eq hg]
      split
      · exact .some ⟨⟨abandon_masked hg, rfl⟩, rfl⟩
      · exact .some ⟨start_masked sv hg, rfl⟩
  | executing activity deadline a =>
      have hp' : k.masked.phase = .executing activity.masked deadline a := by rw [masked, hp]; rfl
      obtain ⟨hd, hdp⟩ := Activity.drop_masked hg p k.serial activity
      simp only [step, hp, hp', htoken, hserial, Hub.inflight_eq hg, Activity.isLeaving_masked]
      split
      · exact .some ⟨⟨abandon_masked hd, rfl⟩, hdp⟩
      · obtain ⟨h1, h2, h3⟩ := Activity.step_masked k.token a hg p k.serial activity
        rcases hx : activity.masked.step g p k.serial k.token a with ⟨x, q, r⟩
        rcases hy : activity.step h p k.serial k.token a with ⟨y, q', r'⟩
        simp only [hx, hy] at h1 h2 h3
        subst h2 h3
        cases r' with
        | moved b =>
            refine .some ⟨⟨h1, congrArg some (masked_goOn ?_)⟩, rfl⟩
            simp only [Phase.masked, Activity.masked_masked]
        | ended o => exact .some ⟨conclude_masked h1 (maskedOutcome_masked o), rfl⟩
        | panicked text => exact .some ⟨conclude_masked h1 rfl, rfl⟩
        | waiting =>
            simp only [Activity.Progress.masked, Hub.now_eq hg]
            split
            · exact .some ⟨conclude_masked hd rfl, hdp⟩
            · exact .none
  | concluded o =>
      have hp' : k.masked.phase = .concluded (maskedOutcome o) := by rw [masked, hp]; rfl
      simp only [step, hp, hp']
      exact .some ⟨settle_masked hg o, rfl⟩
  | replying m =>
      have hp' : k.masked.phase = .replying m := by rw [masked, hp]; rfl
      simp only [step, hp, hp', hserial]
      rcases p.outbound.offer (.call k.serial) m with ⟨outbound, _ | _ | _⟩
      · exact .some ⟨⟨hg, rfl⟩, rfl⟩
      · dsimp only
        split
        · exact .none
        · exact .some ⟨⟨hg, congrArg some k.masked_masked⟩, rfl⟩
      · exact .some ⟨⟨hg, rfl⟩, rfl⟩

end Call

end Dispatch

end Parley
