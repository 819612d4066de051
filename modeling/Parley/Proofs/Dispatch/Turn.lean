import Parley.Proofs.Dispatch.Job

namespace Parley

open Dispatch

namespace Dispatch

namespace Call

def job (k : Call) : Job := ⟨k.ticket, k.token, k.phase.stage⟩

def Tidy (k : Call) : Prop :=
  match k.phase with
  | .executing a _ _ => a.Plain
  | .replying m => ∃ t x, k.ticket = some t ∧ m = .response x ∧ x.id = t.id
  | _ => True

variable {sv : Service} {h h' : Hub} {p p' : Peer Actor} {conn : ConnectionId} {k : Call}
  {k' : Option Call} {outcome : Except HandlerError Json}

theorem Tidy.plain {activity : Activity} {deadline : Option Nat} {a : Session.Handle} (hk : k.Tidy)
    (hp : k.phase = .executing activity deadline a) : activity.Plain := by
  simpa only [Tidy, hp] using hk

theorem Tidy.replying {m : Message} (hk : k.Tidy) (hp : k.phase = .replying m) :
    ∃ t x, k.ticket = some t ∧ m = .response x ∧ x.id = t.id := by
  simpa only [Tidy, hp] using hk

inductive Course (sv : Service) (h : Hub) (p : Peer Actor) (conn : ConnectionId) (k : Call) :
    Hub → Peer Actor → Option Call → Prop
  | abandoned (hp : k.phase = .fresh) (hc : h.inflight.isCancelled k.token = true) :
      Course sv h p conn k (k.abandon h conn) p none
  | started (hp : k.phase = .fresh) (hc : ¬h.inflight.isCancelled k.token = true) :
      Course sv h p conn k (k.start sv h conn).1 p (k.start sv h conn).2
  | dropped {activity : Activity} {deadline : Option Nat} {a : Session.Handle}
      (hp : k.phase = .executing activity deadline a) (hc : h.inflight.isCancelled k.token = true)
      (hl : activity.isLeaving = false) :
      Course sv h p conn k (k.abandon (activity.drop h p k.serial).1 conn)
        (activity.drop h p k.serial).2 none
  | moved {activity b : Activity} {deadline : Option Nat} {a : Session.Handle} {g : Hub}
      {q : Peer Actor} (hp : k.phase = .executing activity deadline a)
      (hc : ¬h.inflight.isCancelled k.token = true ∨ activity.isLeaving = true)
      (ha : activity.step h p k.serial k.token a = (g, q, .moved b)) :
      Course sv h p conn k g q (some { k with phase := .executing b deadline a })
  | ended {activity : Activity} {deadline : Option Nat} {a : Session.Handle} {g : Hub}
      {q : Peer Actor} {o : Except HandlerError Json} (hp : k.phase = .executing activity deadline a)
      (hc : ¬h.inflight.isCancelled k.token = true)
      (ha : activity.step h p k.serial k.token a = (g, q, .ended o)) :
      Course sv h p conn k (k.conclude g conn o).1 q (k.conclude g conn o).2
  | panicked {activity : Activity} {deadline : Option Nat} {a : Session.Handle} {g : Hub}
      {q : Peer Actor} {text : Option String} (hp : k.phase = .executing activity deadline a)
      (hc : ¬h.inflight.isCancelled k.token = true)
      (ha : activity.step h p k.serial k.token a = (g, q, .panicked text)) :
      Course sv h p conn k
        (k.conclude (k.log g conn .handlerPanicked) conn (.error (Activity.panicError text))).1 q
        (k.conclude (k.log g conn .handlerPanicked) conn (.error (Activity.panicError text))).2
  | overdue {activity : Activity} {deadline : Option Nat} {a : Session.Handle} {o : HandlerError}
      (hp : k.phase = .executing activity deadline a)
      (hc : ¬h.inflight.isCancelled k.token = true)
      (ha : (activity.step h p k.serial k.token a).2.2 = .waiting)
      (hd : deadline.any (· ≤ h.now) = true) (ho : o = timedOut (sv.config.handlerTimeout.getD 0)) :
      Course sv h p conn k (k.conclude (activity.drop h p k.serial).1 conn (.error o)).1
        (activity.drop h p k.serial).2
        (k.conclude (activity.drop h p k.serial).1 conn (.error o)).2
  | settled {o : Except HandlerError Json} (hp : k.phase = .concluded o) :
      Course sv h p conn k (k.settle h conn o).1 p (k.settle h conn o).2
  | answered {m : Message} {outbound : Flow.Channel Actor Message} (hp : k.phase = .replying m)
      (ho : p.outbound.offer (.call k.serial) m = (outbound, .accepted)) :
      Course sv h p conn k h { p with outbound } none
  | waiting {m : Message} {outbound : Flow.Channel Actor Message} (hp : k.phase = .replying m)
      (ho : p.outbound.offer (.call k.serial) m = (outbound, .waiting)) :
      Course sv h p conn k h { p with outbound } (some k)
  | refused {m : Message} {outbound : Flow.Channel Actor Message} (hp : k.phase = .replying m)
      (ho : p.outbound.offer (.call k.serial) m = (outbound, .refused)) :
      Course sv h p conn k (Log.Event.unsent.foldl (fun h e => k.log h conn e) h)
        { p with outbound } none

theorem course_of_step (hs : k.step sv h p conn = some (h', p', k')) :
    Course sv h p conn k h' p' k' := by
  -- A handler that leaves a request goes on by its next step, whatever it is told.
  have hnot {activity : Activity} {a : Session.Handle} {r : Activity.Progress}
      (hc : ¬(h.inflight.isCancelled k.token && !activity.isLeaving) = true)
      (ha : (activity.step h p k.serial k.token a).2.2 = r) (hr : ∀ b, r ≠ .moved b) :
      ¬h.inflight.isCancelled k.token = true := by
    intro hk
    rw [hk, Bool.true_and, Bool.not_eq_true', Bool.not_eq_false] at hc
    obtain ⟨b, hb⟩ := activity.step_of_isLeaving hc h p k.serial k.token a
    exact hr b (ha.symm.trans hb)
  cases hp : k.phase with
  | fresh =>
      simp only [step, hp] at hs
      split at hs
      · next hc =>
        cases hs
        exact .abandoned hp hc
      · next hc =>
        cases hs
        exact .started hp hc
  | executing activity deadline a =>
      simp only [step, hp] at hs
      split at hs
      · next hc =>
        cases hs
        rw [Bool.and_eq_true, Bool.not_eq_true'] at hc
        exact .dropped hp hc.1 hc.2
      · next hc =>
        rcases ha : activity.step h p k.serial k.token a with ⟨g, q, b | _ | o | text⟩ <;>
          simp only [ha] at hs
        · cases hs
          refine .moved hp ?_ ha
          rwa [Bool.and_eq_true, not_and_or, Bool.not_eq_true', Bool.not_eq_false] at hc
        · split at hs
          · next hd =>
            cases hs
            exact .overdue hp (hnot hc (congrArg (·.2.2) ha) (by simp)) (by rw [ha]) hd rfl
          · cases hs
        · cases hs
          exact .ended hp (hnot hc (congrArg (·.2.2) ha) (by simp)) ha
        · cases hs
          exact .panicked hp (hnot hc (congrArg (·.2.2) ha) (by simp)) ha
  | concluded o =>
      simp only [step, hp] at hs
      cases hs
      exact .settled hp
  | replying m =>
      simp only [step, hp] at hs
      rcases ho : p.outbound.offer (.call k.serial) m with ⟨outbound, _ | _ | _⟩ <;>
        simp only [ho] at hs
      · cases hs
        exact .answered hp ho
      · split at hs <;> cases hs
        exact .waiting hp ho
      · cases hs
        exact .refused hp ho

@[simp] theorem inflight_log (e : Log.Event) : (k.log h conn e).inflight = h.inflight := rfl

theorem inflight_foldl (es : List Log.Event) :
    (es.foldl (fun h e => k.log h conn e) h).inflight = h.inflight := by
  induction es generalizing h with
  | nil => rfl
  | cons e es ih => exact ih

theorem inflight_letGo : (k.letGo h conn).inflight = k.job.release h.inflight := by
  cases ht : k.ticket <;> simp [letGo, Job.release, job, ht]

theorem inflight_abandon : (k.abandon h conn).inflight = k.job.release h.inflight := by
  unfold abandon
  rw [inflight_letGo]
  split <;> rfl

def Kept (k : Call) (k' : Option Call) : Prop := ∀ i, k' = some i → i.serial = k.serial ∧ i.Tidy

theorem conclude_turn {r : InFlight TokenName} (shut : Bool) (hr : h.inflight = r)
    (hk : k.phase.stage = .executing) :
    Turn r shut k.job (k.conclude h conn outcome).1.inflight
      ((k.conclude h conn outcome).2.map job) none ∧ k.Kept (k.conclude h conn outcome).2 := by
  subst hr
  cases ht : k.ticket with
  | none =>
      have hc : Turn h.inflight shut k.job _ _ _ := .concluded hk (by simp [job, ht])
      simp only [conclude, ht, if_true]
      refine ⟨?_, fun i hi => by cases hi; exact ⟨rfl, trivial⟩⟩
      cases outcome <;> simpa [Job.claim, job, ht, Phase.stage] using hc
  | some t =>
      cases hc : h.inflight.isClaimed t with
      | true =>
          have hd : Turn h.inflight shut k.job _ _ _ := .discarded hk ht hc
          simp only [conclude, ht, InFlight.claim_eq, hc, if_true, Bool.false_eq_true, if_false]
          exact ⟨by simpa [inflight_letGo] using hd, by simp [Kept]⟩
      | false =>
          have hd : Turn h.inflight shut k.job _ _ _ := .concluded hk
            (fun u hu => by simp only [job, ht, Option.some.injEq] at hu; rw [← hu, hc])
          simp only [conclude, ht, InFlight.claim_eq, hc, if_true, Bool.false_eq_true, if_false]
          refine ⟨?_, fun i hi => by cases hi; exact ⟨rfl, trivial⟩⟩
          cases outcome <;> simpa [Job.claim, job, ht, Phase.stage, InFlight.claim_eq, hc] using hd

theorem saveAll_inflight (as : List Session.Handle) :
    (saveAll h as).1.inflight = h.inflight := by
  induction as generalizing h with
  | nil => rfl
  | cons a as ih =>
      rcases hs : h.sessions.saveIfActive a h.moment with ⟨sessions, e | u⟩
      · simp [saveAll, hs]
      · simp only [saveAll, hs, ih]
        rfl

theorem settle_eq (k : Call) (h : Hub) (conn : ConnectionId) (outcome : Except HandlerError Json) :
    ∃ g result, g.inflight = h.inflight ∧ k.settle h conn outcome =
    (k.letGo g conn,
      k.ticket.map fun t => { k with phase := .replying (.response ⟨t.id, result⟩) }) := by
  have hi := saveAll_inflight (h := h) k.commit.start.1.hooks
  rcases hv : saveAll h k.commit.start.1.hooks with ⟨g, e | u⟩ <;> simp only [hv] at hi
  · refine ⟨k.log g conn .saveFailed, .error .internal, hi, ?_⟩
    cases ht : k.ticket <;> simp [settle, hv, ht, Message.failure]
  · refine ⟨g, outcome.mapError HandlerError.body, hi, ?_⟩
    cases ht : k.ticket <;> cases outcome <;> simp only [settle, hv, ht] <;> rfl

theorem settle_turn (shut : Bool) (hk : k.phase = .concluded outcome) :
    Turn h.inflight shut k.job (k.settle h conn outcome).1.inflight
      ((k.settle h conn outcome).2.map job) none ∧ k.Kept (k.settle h conn outcome).2 := by
  obtain ⟨g, result, hg, he⟩ := settle_eq k h conn outcome
  have hj : k.job.stage = .concluded := by rw [job, hk]; rfl
  rw [he, inflight_letGo, hg]
  cases k with
  | mk serial handler method params ticket token commit phase =>
      cases ticket with
      | none => exact ⟨.finished hj rfl, by simp [Kept]⟩
      | some t =>
          refine ⟨.settled (t := t) hj rfl rfl, fun i hi => ?_⟩
          cases hi
          exact ⟨rfl, t, _, rfl, rfl, rfl⟩

/-- Resolving its session leaves a call and the registry as they are. -/
theorem resolve_eq (k : Call) (h : Hub) (conn : ConnectionId) :
    (k.resolve h conn).1.inflight = h.inflight ∧
    ∃ commit, (k.resolve h conn).2.1 = { k with commit } := by
  have hl (m : Session.Manager CallName) : (k.logSessions h conn m).inflight = h.inflight := by
    simp only [logSessions]
    split <;> split <;> rfl
  rcases hr : h.sessions.resolve [conn.session] conn.session h.moment with ⟨m, e | a⟩ <;>
    simp only [resolve, hr]
  · exact ⟨hl m, k.commit, rfl⟩
  · exact ⟨hl m, _, rfl⟩

theorem start_turn (shut : Bool) (hk : k.phase.stage = .executing) :
    Turn h.inflight shut k.job (k.start sv h conn).1.inflight ((k.start sv h conn).2.map job) none ∧
      k.Kept (k.start sv h conn).2 := by
  obtain ⟨hi, commit, hc⟩ := resolve_eq k h conn
  rcases hr : k.resolve h conn with ⟨g, i, e | a⟩ <;> simp only [hr] at hi hc <;> subst hc <;>
    simp only [start, hr] <;> rw [← hi]
  · exact conclude_turn (k := { k with commit }) shut rfl hk
  · have hj : k.job = ⟨k.ticket, k.token, .executing⟩ := by rw [job, hk]
    refine ⟨?_, fun i hi => by cases hi; exact ⟨rfl, trivial⟩⟩
    rw [hj]
    exact .moved

/-- A step of a call is a turn, and adds to the write queue the response that the turn gives. -/
theorem step_turn (hk : k.Tidy) (hs : k.step sv h p conn = some (h', p', k')) :
    p'.outbound.shut = p.outbound.shut ∧ ∃ x, p'.responses = p.responses ++ x.toList ∧
      Turn h.inflight p.outbound.shut k.job h'.inflight (k'.map job) x ∧ k.Kept k' := by
  have hg : k.Kept none := by simp [Kept]
  have hplain {activity : Activity} {deadline : Option Nat} {a : Session.Handle}
      (hp : k.phase = .executing activity deadline a) :
      activity.Plain ∧ k.phase.stage = .executing := ⟨hk.plain hp, by rw [hp]; rfl⟩
  have hreply {m : Message} (hp : k.phase = .replying m) : ∃ x, m = .response x ∧
      k.job.stage = .replying (.response x) := by
    obtain ⟨t, x, -, rfl, -⟩ := hk.replying hp
    exact ⟨x, rfl, by rw [job, hp]; rfl⟩
  cases course_of_step hs with
  | abandoned hp hc =>
      exact ⟨rfl, none, by simp, inflight_abandon ▸ .abandoned (by rw [job, hp]; rfl) hc, hg⟩
  | started hp hc => exact ⟨rfl, none, by simp, start_turn _ (by rw [hp]; rfl)⟩
  | @dropped activity _ _ hp hc =>
      obtain ⟨h1, h2, h3⟩ := activity.drop_plain h p k.serial
      refine ⟨h2, none, by simp [h3], ?_, hg⟩
      rw [inflight_abandon, h1]
      exact .abandoned (hplain hp).2 hc
  | moved hp _ ha =>
      obtain ⟨h1, h2, h3, h4⟩ := Activity.step_plain (hplain hp).1 ha
      refine ⟨h2, none, by simp [h3], ?_, fun i hi => by cases hi; exact ⟨rfl, h4 _ rfl⟩⟩
      have hm : Turn h.inflight p.outbound.shut k.job _ _ _ := .moved
      simpa [h1, job, hp, Phase.stage] using hm
  | ended hp _ ha =>
      obtain ⟨h1, h2, h3, -⟩ := Activity.step_plain (hplain hp).1 ha
      exact ⟨h2, none, by simp [h3], conclude_turn _ h1 (hplain hp).2⟩
  | @panicked _ _ _ g _ _ hp _ ha =>
      obtain ⟨h1, h2, h3, -⟩ := Activity.step_plain (hplain hp).1 ha
      exact ⟨h2, none, by simp [h3],
        conclude_turn (h := k.log g conn .handlerPanicked) _ h1 (hplain hp).2⟩
  | @overdue activity _ _ _ hp =>
      obtain ⟨h1, h2, h3⟩ := activity.drop_plain h p k.serial
      exact ⟨h2, none, by simp [h3], conclude_turn _ h1 (hplain hp).2⟩
  | settled hp => exact ⟨rfl, none, by simp, settle_turn _ hp⟩
  | answered hp ho =>
      obtain ⟨x, rfl, hj⟩ := hreply hp
      obtain ⟨hu, hr⟩ := Peer.offered ho
      exact ⟨hu, some x, by simpa [Message.response?] using hr, .answered hj, hg⟩
  | waiting hp ho =>
      obtain ⟨x, rfl, hj⟩ := hreply hp
      obtain ⟨hu, hr⟩ := Peer.offered ho
      exact ⟨hu, none, by simpa using hr, .moved, fun i hi => by cases hi; exact ⟨rfl, hk⟩⟩
  | refused hp ho =>
      obtain ⟨x, rfl, hj⟩ := hreply hp
      obtain ⟨hu, hr⟩ := Peer.offered ho
      have hf := Flow.Channel.offer_refused p.outbound (.call k.serial) (.response x)
      rw [ho] at hf
      refine ⟨hu, none, by simpa using hr, ?_, hg⟩
      rw [inflight_foldl]
      exact .lost hj (hf.1 rfl)

end Call

end Dispatch

end Parley
