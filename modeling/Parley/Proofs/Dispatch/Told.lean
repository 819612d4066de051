import Parley.Proofs.Dispatch.Turn
import Parley.Proofs.Dispatch.Usage

namespace Parley.Session.Manager

variable {χ : Type} {m : Manager χ}

/-- Sessions are not stored by being looked for. -/
theorem stored_resolve (m : Manager χ) (id : SessionId) (now : Nat) :
    (m.resolve [id] id now).1.store.stored ⊆ m.store.stored := by
  have hshare (k : Manager χ) (a : Handle) : (k.share a).1.store = k.store := by
    rw [share]
    split
    · split <;> rfl
    · rfl
  have hfades := (Store.Fades.retrieve (s := m.store) id now).stored.subset
  rw [resolve_one]
  split
  · exact List.Subset.refl _
  · dsimp only
    split
    · rw [hshare]
      exact hfades
    · split
      · exact hfades
      · rw [hshare]
        exact hfades

theorem saveIfActive_of_active {a : Handle} {now : Nat}
    (h : (m.store.get? a).any isActive = true) : m.saveIfActive a now = m.save a now := if_pos h

theorem saveIfActive_of_not_active {a : Handle} {now : Nat}
    (h : ¬(m.store.get? a).any isActive = true) : m.saveIfActive a now = (m, .ok ()) := if_neg h

end Parley.Session.Manager

namespace Parley.Dispatch

open Session (Handle)

structure Visit where
  session : Handle
  moment : Nat
  before : Session.Manager CallName

namespace Visit

def result (v : Visit) : Session.Manager CallName × Except SessionError Unit :=
  v.before.saveIfActive v.session v.moment

def IsActive (v : Visit) : Prop :=
  (v.before.store.get? v.session).any Session.Manager.isActive = true

end Visit

def visits (h : Hub) : List Handle → List Visit
  | [] => []
  | a :: as =>
    let v : Visit := ⟨a, h.moment, h.sessions⟩
    v :: match v.result with
      | (sessions, .ok ()) => visits { h.tick with sessions } as
      | (_, .error _) => []

inductive Entry
  | resolved (session : Handle)
  | claimed (outcome : Except HandlerError Json)
  | hooked (visit : Visit)
  | queued (answer : Response)

def record (r : Option Handle) (outcome : Except HandlerError Json)
    (vs : List Visit) : List Entry :=
  r.toList.map .resolved ++ .claimed outcome :: vs.map .hooked

structure Saved (r : Option Handle) (outcome : Except HandlerError Json) (vs : List Visit)
    (answer : Except ErrorBody Json) : Prop where
  sessions : vs.map Visit.session = r.toList
  kept : (∀ v ∈ vs, v.result.2 = .ok ()) → answer = outcome.mapError HandlerError.body
  hidden : (∃ v ∈ vs, v.result.2 ≠ .ok ()) → answer = .error .internal

inductive Told : Option Call → List Entry → Prop
  | fresh {k : Call} (hp : k.phase = .fresh) (hc : k.commit = {}) : Told (some k) []
  | executing {k : Call} {activity : Activity} {deadline : Option Nat} {a : Handle}
      (hp : k.phase = .executing activity deadline a) (hc : k.commit.hooks = [a]) :
      Told (some k) [.resolved a]
  | concluded {k : Call} {outcome : Except HandlerError Json} {r : Option Handle}
      (hp : k.phase = .concluded outcome) (hc : k.commit.hooks = r.toList) :
      Told (some k) (record r outcome [])
  | replying {k : Call} {outcome : Except HandlerError Json} {r : Option Handle} {vs : List Visit}
      {x : Response} (hp : k.phase = .replying (.response x)) (hs : Saved r outcome vs x.outcome) :
      Told (some k) (record r outcome vs)
  | dropped (r : Option Handle) : Told none (r.toList.map .resolved)
  | unsent (r : Option Handle) (outcome : Except HandlerError Json) (vs : List Visit) :
      Told none (record r outcome vs)
  | answered {outcome : Except HandlerError Json} {r : Option Handle} {vs : List Visit}
      {x : Response} (hs : Saved r outcome vs x.outcome) :
      Told none (record r outcome vs ++ [.queued x])

namespace Told

variable {k : Call} {es : List Entry}

theorem of_fresh (ht : Told (some k) es) (hp : k.phase = .fresh) : es = [] ∧ k.commit = {} := by
  cases ht with
  | fresh _ hc => exact ⟨rfl, hc⟩
  | executing hq | concluded hq | replying hq => cases hp.symm.trans hq

theorem of_executing {activity : Activity} {deadline : Option Nat} {a : Handle}
    (ht : Told (some k) es) (hp : k.phase = .executing activity deadline a) :
    es = [.resolved a] ∧ k.commit.hooks = [a] := by
  cases ht with
  | executing hq hc =>
    cases hp.symm.trans hq
    exact ⟨rfl, hc⟩
  | fresh hq | concluded hq | replying hq => cases hp.symm.trans hq

theorem of_concluded {outcome : Except HandlerError Json} (ht : Told (some k) es)
    (hp : k.phase = .concluded outcome) :
    ∃ r, es = record r outcome [] ∧ k.commit.hooks = r.toList := by
  cases ht with
  | concluded hq hc =>
    cases hp.symm.trans hq
    exact ⟨_, rfl, hc⟩
  | fresh hq | executing hq | replying hq => cases hp.symm.trans hq

theorem of_replying {m : Message} (ht : Told (some k) es) (hp : k.phase = .replying m) :
    ∃ r outcome vs x, m = .response x ∧ es = record r outcome vs ∧
      Saved r outcome vs x.outcome := by
  cases ht with
  | replying hq hs =>
    cases hp.symm.trans hq
    exact ⟨_, _, _, _, rfl, rfl, hs⟩
  | fresh hq | executing hq | concluded hq => cases hp.symm.trans hq

end Told

namespace Call

def entries (h : Hub) (k : Call) (k' : Option Call) : List Entry :=
  match k.phase, k'.map Call.phase with
  | .fresh, some (.executing _ _ a) => [.resolved a]
  | .fresh, some (.concluded outcome) => [.claimed outcome]
  | .executing _ _ _, some (.concluded outcome) => [.claimed outcome]
  | .concluded _, _ => (visits h k.commit.start.1.hooks).map .hooked
  | _, _ => []

variable {sv : Service} {h h' : Hub} {p p' : Peer Actor} {conn : ConnectionId} {k : Call}
  {k' : Option Call} {outcome : Except HandlerError Json} {es : List Entry}

theorem saveAll_eq (h : Hub) (as : List Handle) :
    (saveAll h as).2 = .ok () ↔ ∀ v ∈ visits h as, v.result.2 = .ok () := by
  induction as generalizing h with
  | nil => simp [saveAll, visits]
  | cons a as ih =>
    rcases hs : h.sessions.saveIfActive a h.moment with ⟨sessions, e | _⟩
    · simp [saveAll, visits, Visit.result, hs]
    · simp [saveAll, visits, Visit.result, hs, ih]

theorem visits_singleton (h : Hub) (a : Handle) :
    visits h [a] = [⟨a, h.moment, h.sessions⟩] := by
  rw [visits]
  dsimp only
  split <;> rfl

theorem saveAll_singleton (h : Hub) (a : Handle) :
    (saveAll h [a]).1.sessions = (h.sessions.saveIfActive a h.moment).1 := by
  rcases hs : h.sessions.saveIfActive a h.moment with ⟨sessions, e | _⟩ <;> simp only [saveAll, hs]

theorem sessions_visits (h : Hub) (r : Option Handle) :
    (visits h r.toList).map Visit.session = r.toList := by
  cases r with
  | none => rfl
  | some a => rw [Option.toList_some, visits_singleton]; rfl

theorem settle_saved (h : Hub) (conn : ConnectionId) (outcome : Except HandlerError Json)
    {r : Option Handle} (hc : k.commit.hooks = r.toList) :
    (k.settle h conn outcome).2 = none ∨ ∃ i x, (k.settle h conn outcome).2 = some i ∧
      i.phase = .replying (.response x) ∧ Saved r outcome (visits h r.toList) x.outcome := by
  have hv := saveAll_eq h r.toList
  rw [settle, Flow.Commit.hooks_start, hc]
  cases ht : k.ticket with
  | none => exact .inl rfl
  | some t =>
    refine .inr ?_
    rcases hs : saveAll h r.toList with ⟨g, e | _⟩ <;> rw [hs] at hv
    · refine ⟨_, ⟨t.id, .error .internal⟩, rfl, rfl, sessions_visits h r, fun hall => ?_,
        fun _ => rfl⟩
      cases hv.2 hall
    · refine ⟨_, ⟨t.id, outcome.mapError HandlerError.body⟩, rfl, ?_, sessions_visits h r,
        fun _ => rfl, fun hfailed => ?_⟩
      · cases outcome <;> rfl
      · obtain ⟨v, hm, hne⟩ := hfailed
        exact absurd (hv.1 rfl v hm) hne

theorem call_resolve (k : Call) (h : Hub) (conn : ConnectionId) : (k.resolve h conn).2.1 =
    match (k.resolve h conn).2.2 with
    | .ok a => { k with commit := (k.commit.add a).1 }
    | .error _ => k := by
  rcases hr : h.sessions.resolve [conn.session] conn.session h.moment with ⟨m, e | a⟩ <;>
    simp only [resolve, hr]

/-- A call that has come to its end has claimed its outcome, or is gone. -/
theorem conclude_told {r : Option Handle} {i : Call} (hc : i.commit.hooks = r.toList) (g : Hub)
    (hclaimed : ∀ i, i.phase = .concluded outcome → k.entries h (some i) = [.claimed outcome])
    (hgone : k.entries h none = []) :
    Told (i.conclude g conn outcome).2
      (r.toList.map .resolved ++ k.entries h (i.conclude g conn outcome).2) := by
  obtain ⟨_, -, he | he⟩ := conclude_eq i g conn outcome <;> rw [he]
  · rw [hclaimed _ rfl]
    exact .concluded rfl hc
  · rw [hgone, List.append_nil]
    exact .dropped r

theorem turn_silent {r r' : InFlight TokenName} {shut : Bool} {j : Job} {o : Option Job}
    {x : Option Response} (ht : Turn r shut j r' o x) (hj : ∀ m, j.stage ≠ .replying m) :
    x = none := by
  cases ht with
  | answered h => exact absurd h (hj _)
  | _ => rfl

theorem start_told (hp : k.phase = .fresh) (hc : k.commit = {}) :
    Told (k.start sv h conn).2 (k.entries h (k.start sv h conn).2) := by
  have hi := call_resolve k h conn
  unfold start
  rcases hr : k.resolve h conn with ⟨g, i, e | a⟩ <;> rw [hr] at hi <;> dsimp only at hi ⊢ <;>
    rw [hi]
  · exact conclude_told (r := none) (by rw [hc]; rfl) g (fun i hi => by simp [entries, hp, hi])
      (by simp [entries, hp])
  · rw [show k.entries h (some _) = [.resolved a] by simp [entries, hp]]
    exact .executing rfl (by rw [hc]; rfl)

/-- What a step of a call comes to is written down. -/
theorem step_told (hk : k.Tidy) (ht : Told (some k) es)
    (hs : k.step sv h p conn = some (h', p', k')) :
    Told k' (es ++ k.entries h k' ++
      (p'.responses.drop p.responses.length).map .queued) := by
  obtain ⟨-, y, hr, hturn, -⟩ := step_turn hk hs
  -- Only a call that is about to answer queues a response.
  have hsilent (hp : ∀ m, k.phase ≠ .replying m) (ht' : Told k' (es ++ k.entries h k')) :
      Told k' (es ++ k.entries h k' ++ y.toList.map .queued) := by
    obtain rfl := turn_silent hturn fun m hm => by
      cases hph : k.phase <;> simp_all [job, Phase.stage]
    rwa [Option.toList_none, List.map_nil, List.append_nil]
  have hend {activity : Activity} {deadline : Option Nat} {a : Handle}
      (hp : k.phase = .executing activity deadline a) (g : Hub) (o : Except HandlerError Json) :
      Told (k.conclude g conn o).2 (es ++ k.entries h (k.conclude g conn o).2) := by
    obtain ⟨rfl, hc⟩ := ht.of_executing hp
    exact conclude_told (r := some a) hc g (fun i hi => by simp [entries, hp, hi])
      (by simp [entries, hp])
  have hqueued {m : Message} {outbound : Flow.Channel Actor Message} {answer : Flow.Channel.Answer}
      (ho : p.outbound.offer (.call k.serial) m = (outbound, answer))
      (hp' : p' = { p with outbound }) :
      y.toList = if answer = .accepted then m.response?.toList else [] := by
    have hx := (Peer.offered ho).2
    rw [← hp', hr] at hx
    split_ifs at hx ⊢
    · exact List.append_cancel_left hx
    · exact List.append_right_eq_self.1 hx
  rw [hr, List.drop_left]
  cases course_of_step hs with
  | abandoned hp =>
    obtain ⟨rfl, -⟩ := ht.of_fresh hp
    refine hsilent (by simp [hp]) ?_
    rw [show k.entries h none = [] by simp [entries, hp]]
    exact .dropped none
  | started hp =>
    obtain ⟨rfl, hc⟩ := ht.of_fresh hp
    exact hsilent (by simp [hp]) (start_told hp hc)
  | @dropped _ _ a hp =>
    obtain ⟨rfl, -⟩ := ht.of_executing hp
    refine hsilent (by simp [hp]) ?_
    rw [show k.entries h none = [] by simp [entries, hp]]
    exact .dropped (some a)
  | @moved _ b deadline a _ _ hp =>
    obtain ⟨rfl, hc⟩ := ht.of_executing hp
    refine hsilent (by simp [hp]) ?_
    rw [show k.entries h (some { k with phase := .executing b deadline a }) = [] by
      simp [entries, hp]]
    exact .executing rfl hc
  | ended hp | panicked hp | overdue hp => exact hsilent (by simp [hp]) (hend hp _ _)
  | @settled outcome hp =>
    obtain ⟨r, rfl, hc⟩ := ht.of_concluded hp
    refine hsilent (by simp [hp]) ?_
    rw [show k.entries h _ = (visits h r.toList).map .hooked by
      simp [entries, hp, Flow.Commit.hooks_start, hc]]
    rw [record, List.map_nil, List.append_assoc, List.singleton_append, ← record]
    rcases settle_saved h conn outcome hc with hnone | ⟨i, y, hi, hy, hsv⟩
    · rw [hnone]
      exact .unsent r outcome _
    · rw [hi]
      exact .replying hy hsv
  | answered hp ho =>
    obtain ⟨r, outcome, vs, x, rfl, rfl, hsv⟩ := ht.of_replying hp
    rw [show k.entries h none = [] by simp [entries, hp], List.append_nil, hqueued ho rfl]
    exact .answered hsv
  | waiting hp ho =>
    obtain ⟨r, outcome, vs, x, rfl, rfl, hsv⟩ := ht.of_replying hp
    rw [show k.entries h (some k) = [] by simp [entries, hp], List.append_nil, hqueued ho rfl]
    simpa using Told.replying hp hsv
  | refused hp ho =>
    obtain ⟨r, outcome, vs, x, rfl, rfl, hsv⟩ := ht.of_replying hp
    rw [show k.entries h none = [] by simp [entries, hp], List.append_nil, hqueued ho rfl]
    simpa using Told.unsent r outcome vs

/-- An outcome that a call can claim: its session could not be resolved, or its handler has ended,
has panicked, or has waited for too long. -/
inductive Ends (sv : Service) (h : Hub) (p : Peer Actor) (conn : ConnectionId) (k : Call) :
    Except HandlerError Json → Prop
  | unresolved {e : SessionError} (hp : k.phase = .fresh)
      (hr : (k.resolve h conn).2.2 = .error e) : Ends sv h p conn k (.error (.ofSession e))
  | ended {activity : Activity} {deadline : Option Nat} {a : Handle}
      {outcome : Except HandlerError Json} (hp : k.phase = .executing activity deadline a)
      (hr : (activity.step h p k.serial k.token a).2.2 = .ended outcome) : Ends sv h p conn k outcome
  | panicked {activity : Activity} {deadline : Option Nat} {a : Handle} {text : Option String}
      (hp : k.phase = .executing activity deadline a)
      (hr : (activity.step h p k.serial k.token a).2.2 = .panicked text) :
      Ends sv h p conn k (.error (Activity.panicError text))
  | overdue {activity : Activity} {deadline : Option Nat} {a : Handle}
      (hp : k.phase = .executing activity deadline a)
      (hr : (activity.step h p k.serial k.token a).2.2 = .waiting)
      (hd : deadline.any (· ≤ h.now) = true) :
      Ends sv h p conn k (.error (timedOut (sv.config.handlerTimeout.getD 0)))

theorem conclude_phase {i j : Call} {g : Hub} {o : Except HandlerError Json}
    (hj : (i.conclude g conn o).2 = some j) : j.phase = .concluded o := by
  obtain ⟨_, -, he | he⟩ := conclude_eq i g conn o <;> rw [he] at hj <;> cases hj
  rfl

theorem claimed_ends (hs : k.step sv h p conn = some (h', p', k'))
    (hc : .claimed outcome ∈ k.entries h k') : k.Ends sv h p conn outcome := by
  obtain ⟨hne, i, hk, hi⟩ : (∀ o, k.phase ≠ .concluded o) ∧
      ∃ i, k' = some i ∧ i.phase = .concluded outcome := by
    unfold entries at hc
    split at hc <;> simp_all
  have hout {o : Except HandlerError Json} {g : Hub} {j : Call}
      (hj : (j.conclude g conn o).2 = some i) : o = outcome :=
    Phase.concluded.inj ((conclude_phase hj).symm.trans hi)
  cases course_of_step hs with
  | started hp =>
    rcases hr : k.resolve h conn with ⟨g, j, e | a⟩ <;> simp only [start, hr] at hk
    · obtain rfl := hout hk
      exact .unresolved hp (by rw [hr])
    · cases hk
      cases hi
  | ended hp _ ha =>
    obtain rfl := hout hk
    exact .ended hp (by rw [ha])
  | panicked hp _ ha =>
    obtain rfl := hout hk
    exact .panicked hp (by rw [ha])
  | overdue hp _ ha hd ho =>
    obtain rfl := hout hk
    exact ho ▸ .overdue hp ha hd
  | settled hp => exact absurd hp (hne _)
  | moved | waiting =>
    cases hk
    simp_all
  | abandoned | dropped | answered | refused => cases hk

end Call

end Parley.Dispatch
