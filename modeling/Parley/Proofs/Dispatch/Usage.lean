import Parley.Proofs.Dispatch.Part

namespace Parley.Dispatch

open Session (Handle Use)
open Relation (ReflTransGen)

theorem mem_hooks_add {η : Type} {x : Flow.Commit η} {a b : η} (h : b ∈ (x.add a).1.hooks) :
    b ∈ x.hooks ∨ b = a := by
  rw [Flow.Commit.add] at h
  split at h
  · exact (List.mem_append.1 h).imp_right List.mem_singleton.1
  · exact .inl h

structure Hub.Goes (n : CallName) (h h' : Hub) : Prop where
  uses : ReflTransGen (Use n n.session) h.sessions h'.sessions
  moment : h.moment ≤ h'.moment
  now : h'.now = h.now
  gates : h'.gates = h.gates

namespace Hub.Goes

variable {n : CallName} {h g k : Hub} {who : CallName × Handle}

theorem refl (n : CallName) (h : Hub) : Goes n h h := ⟨.refl, Nat.le_refl _, rfl, rfl⟩

theorem trans (hg : Goes n h g) (hk : Goes n g k) : Goes n h k :=
  ⟨hg.uses.trans hk.uses, Nat.le_trans hg.moment hk.moment, hk.now.trans hg.now,
    hk.gates.trans hg.gates⟩

theorem use {m : Session.Manager CallName} (hu : Use n n.session h.sessions m) :
    Goes n h { h with sessions := m } :=
  ⟨.single hu, Nat.le_refl _, rfl, rfl⟩

theorem owned (hg : Goes n h g) (hm : h.sessions.Owned CallName.session) :
    g.sessions.Owned CallName.session := by
  obtain ⟨hu, -⟩ := hg
  generalize g.sessions = m at hu
  induction hu with
  | refl => exact hm
  | tail _ hu ih => exact hu.owned ih

theorem holds (hg : Goes n h g) (hx : who ∈ h.sessions.holds) (hn : who.1 ≠ n) :
    who ∈ g.sessions.holds := by
  obtain ⟨hu, -⟩ := hg
  generalize g.sessions = m at hu
  induction hu with
  | refl => exact hx
  | tail _ hu ih => exact hu.holds ih hn

theorem only {id : SessionId} (hg : Goes n h g) (hm : h.sessions.Owned CallName.session)
    (hi : n.session ≠ id) : g.sessions.only id = h.sessions.only id := by
  obtain ⟨hu, -⟩ := hg
  generalize g.sessions = m at hu
  suffices m.Owned CallName.session ∧ m.only id = h.sessions.only id from this.2
  induction hu with
  | refl => exact ⟨hm, rfl⟩
  | tail _ hu ih => exact ⟨hu.owned ih.1, (hu.only ih.1 hi).trans ih.2⟩

end Hub.Goes

def Hub.Still (h h' : Hub) : Prop :=
  ∃ inflight journal events, h' = { h with inflight, journal, events }

namespace Hub

variable {h g : Hub}

theorem Still.refl (h : Hub) : h.Still h := ⟨_, _, _, rfl⟩

theorem Still.goes (hs : h.Still g) (n : CallName) : Goes n h g := by
  obtain ⟨_, _, _, rfl⟩ := hs
  exact ⟨.refl, Nat.le_refl _, rfl, rfl⟩

end Hub

namespace Call

variable {c : ConnectionId} {sv : Service} {h h' g : Hub} {p p' : Peer Actor} {k : Call}
  {k' : Option Call} {a : Handle} {n : Nat}

structure Goes (c : ConnectionId) (h : Hub) (k : Call) (h' : Hub) (k' : Option Call) : Prop where
  goes : h.Goes (c, k.serial) h'
  holding : ∀ i, k' = some i → i.serial = k.serial ∧ i.Holding c h'

theorem Goes.after (hg : h.Goes (c, k.serial) g) (hk : k.Goes c g h' k') : k.Goes c h h' k' :=
  ⟨hg.trans hk.goes, hk.holding⟩

theorem goes_exec (ha : a.id = c.session) (token : Flow.Token TokenName) (program : Program) :
    h.Goes (c, n) (Activity.exec h token a program).1 ∧
      (Activity.exec h token a program).1.sessions.holds = h.sessions.holds := by
  cases program with
  | touch edit next => exact ⟨.use (.edited ha edit), rfl⟩
  | _ => exact ⟨Hub.Still.goes ⟨_, _, _, rfl⟩ _, rfl⟩

theorem goes_activity (ha : a.id = c.session) (token : Flow.Token TokenName) (activity : Activity) :
    h.Goes (c, n) (activity.step h p n token a).1 ∧
      (activity.step h p n token a).1.sessions.holds = h.sessions.holds := by
  cases activity with
  | running program => exact goes_exec ha token program
  | asleep | atGate => exact ⟨.refl _ _, rfl⟩
  | sending x next =>
      simp only [Activity.step]
      split <;> exact ⟨.refl _ _, rfl⟩

theorem still_drop (activity : Activity) : h.Still (activity.drop h p n).1 := by
  cases activity <;> exact ⟨_, _, _, rfl⟩

theorem goes_letGo : h.Goes (c, k.serial) (k.letGo h c) := by
  have hu := Hub.Goes.use (n := (c, k.serial)) (h := h) .released
  simp only [letGo]
  cases k.ticket with
  | none => exact hu
  | some t => exact hu.trans (Hub.Still.goes ⟨_, _, _, rfl⟩ _)

theorem goes_abandon : k.Goes c h (k.abandon h c) none := by
  refine ⟨?_, fun i hi => by cases hi⟩
  rw [abandon]
  split
  · exact (Hub.Still.goes ⟨_, _, _, rfl⟩ _).trans goes_letGo
  · exact goes_letGo

theorem conclude_eq (k : Call) (h : Hub) (c : ConnectionId) (outcome : Except HandlerError Json) :
    ∃ g, h.Still g ∧ (k.conclude h c outcome = (g, some { k with phase := .concluded outcome }) ∨
      k.conclude h c outcome = (k.letGo g c, none)) := by
  obtain ⟨serial, handler, method, params, _ | t, token, commit, phase⟩ := k <;>
    simp only [conclude, if_true]
  · exact ⟨_, by cases outcome <;> exact ⟨_, _, _, rfl⟩, .inl rfl⟩
  · split
    · exact ⟨_, by cases outcome <;> exact ⟨_, _, _, rfl⟩, .inl rfl⟩
    · exact ⟨_, ⟨_, _, _, rfl⟩, .inr rfl⟩

theorem Holding.still (hk : k.Holding c h) (hs : h.Still g) : k.Holding c g := by
  obtain ⟨_, _, _, rfl⟩ := hs
  exact hk.congr rfl

theorem goes_conclude (hk : k.Holding c h) (hp : k.phase.stage = .executing)
    (outcome : Except HandlerError Json) :
    k.Goes c h (k.conclude h c outcome).1 (k.conclude h c outcome).2 := by
  obtain ⟨g, hs, he | he⟩ := conclude_eq k h c outcome <;> rw [he]
  · refine ⟨hs.goes _, fun i hi => ?_⟩
    cases hi
    exact ⟨rfl, by simp, fun _ => (hk.still hs).hooks fun m hm => by simp [hm, Phase.stage] at hp⟩
  · exact ⟨(hs.goes _).trans goes_letGo, fun i hi => by cases hi⟩

theorem goes_saveAll {as : List Handle} (ha : ∀ a ∈ as, a.id = c.session) :
    h.Goes (c, n) (saveAll h as).1 := by
  induction as generalizing h with
  | nil => exact .refl _ _
  | cons a as ih =>
      have ht : h.Goes (c, n) h.tick := ⟨.refl, Nat.le_succ _, rfl, rfl⟩
      have hu := ht.trans (.use (.saved (ha a List.mem_cons_self) h.moment))
      rcases hx : h.sessions.saveIfActive a h.moment with ⟨x, e | u⟩ <;>
        simp only [Hub.tick, hx] at hu <;> simp only [saveAll, hx]
      · exact hu
      · exact hu.trans (ih fun b hb => ha b (.tail _ hb))

theorem goes_settle (hm : h.sessions.Owned CallName.session) (hk : k.Holding c h)
    {outcome : Except HandlerError Json} (hp : k.phase = .concluded outcome) :
    k.Goes c h (k.settle h c outcome).1 (k.settle h c outcome).2 := by
  have hhooks : ∀ a ∈ k.commit.start.1.hooks, a.id = c.session := by
    intro a ha
    rw [Flow.Commit.hooks_start] at ha
    exact hm.holds _ (hk.hooks (by simp [hp]) a ha)
  have hs := goes_saveAll (h := h) (n := k.serial) hhooks
  have hg : h.Goes (c, k.serial) (k.settle h c outcome).1 := by
    simp only [settle]
    split <;> refine hs.trans (Hub.Goes.trans (Hub.Still.goes ?_ _) goes_letGo) <;>
      split <;> exact ⟨_, _, _, rfl⟩
  refine ⟨hg, fun i hi => ?_⟩
  obtain ⟨_, result, -, he⟩ := settle_eq k h c outcome
  rw [he] at hi
  obtain ⟨t, -, rfl⟩ := Option.map_eq_some_iff.1 hi
  exact ⟨rfl, by simp, fun hr => absurd rfl (hr _)⟩

theorem goes_resolve (hm : h.sessions.Owned CallName.session)
    (hk : ∀ a ∈ k.commit.hooks, ((c, k.serial), a) ∈ h.sessions.holds) :
    h.Goes (c, k.serial) (k.resolve h c).1 ∧
      (∀ a ∈ (k.resolve h c).2.1.commit.hooks, ((c, k.serial), a) ∈ (k.resolve h c).1.sessions.holds) ∧
      ∀ a, (k.resolve h c).2.2 = .ok a → a.id = c.session := by
  have hl (m : Session.Manager CallName) :
      h.Goes (c, k.serial) { (k.logSessions h c m).tick with sessions := h.sessions } := by
    simp only [logSessions]
    split <;> split <;> exact ⟨.refl, Nat.le_succ _, rfl, rfl⟩
  have hu : Use (c, k.serial) c.session h.sessions
      (h.sessions.resolve [c.session] c.session h.moment).1 := .resolved h.moment
  have hholds := Session.Manager.holds_resolve (m := h.sessions) c.session h.moment
  rcases hr : h.sessions.resolve [c.session] c.session h.moment with ⟨m, e | a⟩ <;>
    simp only [hr] at hu hholds <;> simp only [resolve, hr]
  · exact ⟨(hl m).trans (.use hu), hholds ▸ hk, fun _ ha => by cases ha⟩
  · have ha : a.id = c.session := Session.Manager.id_of_resolve hm.shared (congrArg Prod.snd hr)
    refine ⟨((hl m).trans (.use hu)).trans (.use (.held ha)), fun b hb => ?_, fun _ hb => ?_⟩
    · rcases mem_hooks_add hb with hb | rfl
      · exact List.mem_append_left _ (hholds ▸ hk b hb)
      · exact List.mem_append_right _ (List.mem_singleton_self _)
    · cases hb; exact ha

theorem goes_start (hm : h.sessions.Owned CallName.session) (hk : k.Holding c h)
    (hp : k.phase = .fresh) :
    k.Goes c h (k.start sv h c).1 (k.start sv h c).2 := by
  obtain ⟨h1, h2, h3⟩ := goes_resolve hm (hk.hooks (by simp [hp]))
  obtain ⟨-, commit, hc⟩ := resolve_eq k h c
  rcases hr : k.resolve h c with ⟨g, i, e | a⟩ <;> simp only [hr] at h1 h2 h3 hc <;> subst hc <;>
    simp only [start, hr]
  · obtain ⟨hg, hi⟩ := goes_conclude (k := { k with commit }) ⟨by simp [hp], fun _ => h2⟩
      (by simp [hp, Phase.stage]) (.error (.ofSession e))
    exact ⟨h1.trans hg, hi⟩
  · refine ⟨h1, fun i hi => ?_⟩
    cases hi
    exact ⟨rfl, fun _ _ b hb => by cases hb; exact h3 a rfl, fun _ => h2⟩

/-- A step of a call uses the session of its connection, and the call goes on to hold it. -/
theorem goes_step (hm : h.sessions.Owned CallName.session) (hk : k.Holding c h)
    (hs : k.step sv h p c = some (h', p', k')) : k.Goes c h h' k' := by
  have hst {activity : Activity} {deadline : Option Nat} {a : Handle}
      (hp : k.phase = .executing activity deadline a) : k.phase.stage = .executing := by rw [hp]; rfl
  have hgo {activity : Activity} {deadline : Option Nat} {a : Handle} {g : Hub} {q : Peer Actor}
      {r : Activity.Progress} (hp : k.phase = .executing activity deadline a)
      (hr : activity.step h p k.serial k.token a = (g, q, r)) :
      h.Goes (c, k.serial) g ∧ g.sessions.holds = h.sessions.holds := by
    have hg := goes_activity (h := h) (n := k.serial) (p := p) (hk.session _ _ _ hp) k.token activity
    rwa [hr] at hg
  cases course_of_step hs with
  | abandoned => exact goes_abandon
  | started hp => exact goes_start hm hk hp
  | @dropped activity _ _ hp =>
      have hd := still_drop (h := h) (n := k.serial) (p := p) activity
      exact .after (hd.goes _) goes_abandon
  | moved hp _ hr =>
      obtain ⟨hg, hh⟩ := hgo hp hr
      refine ⟨hg, fun i hi => ?_⟩
      cases hi
      exact ⟨rfl, fun _ _ _ hb => by cases hb; exact hk.session _ _ _ hp,
        fun _ => hh ▸ hk.hooks (by simp [hp])⟩
  | ended hp _ hr =>
      obtain ⟨hg, hh⟩ := hgo hp hr
      exact .after hg (goes_conclude (hk.congr hh) (hst hp) _)
  | @panicked _ _ _ g _ _ hp _ hr =>
      obtain ⟨hg, hh⟩ := hgo hp hr
      have hl : g.Still (k.log g c .handlerPanicked) := ⟨_, _, _, rfl⟩
      exact .after (hg.trans (hl.goes _)) (goes_conclude ((hk.congr hh).still hl) (hst hp) _)
  | @overdue activity _ _ _ hp =>
      have hd := still_drop (h := h) (n := k.serial) (p := p) activity
      exact .after (hd.goes _) (goes_conclude (hk.still hd) (hst hp) _)
  | settled hp => exact goes_settle hm hk hp
  | answered => exact ⟨.refl _ _, fun i hi => by cases hi⟩
  | waiting => exact ⟨.refl _ _, fun i hi => by cases hi; exact ⟨rfl, hk⟩⟩
  | refused =>
      refine ⟨Hub.Still.goes ?_ _, fun i hi => by cases hi⟩
      exact ⟨_, _, _, rfl⟩

end Call

namespace Link

variable {sv : Service} {h h' : Hub} {l l' : Link} {m : Message} {who : Actor}

def Holding (h : Hub) (l : Link) : Prop := ∀ n k, l.call? n = some k → k.Holding l.id h

/-- What a step of a connection makes of the sessions, and that its calls go on to hold theirs. -/
structure Goes (h : Hub) (l : Link) (h' : Hub) (l' : Link) : Prop where
  goes : ∃ n, h.Goes (l.id, n) h'
  id : l'.id = l.id
  holding : l.Holding h → l'.Holding h'

theorem Goes.still (hs : h.Still h') (hi : l'.id = l.id) (hc : l'.calls = l.calls) :
    Goes h l h' l' := by
  refine ⟨⟨0, hs.goes _⟩, hi, fun hl n k hk => ?_⟩
  rw [call?, hc] at hk
  exact hi ▸ (hl n k hk).still hs

theorem still_publish (sv : Service) (body : Bytes) : h.Still (publish sv h l body).1 := by
  simp only [publish]
  split <;> split <;> exact ⟨_, _, _, rfl⟩

theorem still_stepReader (hs : stepReader sv h l = some (h', l')) : h.Still h' := by
  cases stepReader_course hs with
  | abandoned | moved | stopped | filled => exact .refl h
  | skipped | published => exact still_publish ..
  | ended => exact ⟨_, _, _, rfl⟩

theorem still_stepWriter (hs : stepWriter sv h l = some (h', l')) : h.Still h' := by
  cases (stepWriter_course hs).2 with
  | left | written => exact .refl h
  | skipped | failed => exact ⟨_, _, _, rfl⟩

theorem HandleCourse.still (hc : HandleCourse sv h l m h' l') : h.Still h' := by
  cases hc with
  | missed =>
      simp only [Hub.logIf]
      split <;> exact ⟨_, _, _, rfl⟩
  | notified | response => exact .refl h
  | _ => exact ⟨_, _, _, rfl⟩

theorem still_stepRequests (hs : stepRequests sv h l = some (h', l')) : h.Still h' := by
  cases stepRequests_course hs with
  | ended | received | posted | waiting => exact .refl h
  | handled _ hh => exact hh.still
  | refused => exact ⟨_, _, _, rfl⟩

theorem still_stepResponses (hs : stepResponses h l = some (h', l')) : h.Still h' := by
  cases (stepResponses_course hs).2 with
  | ended | skipped => exact .refl h
  | fulfilled =>
      simp only [Hub.logIf]
      split <;> exact ⟨_, _, _, rfl⟩

theorem still_stepSupervisor (hs : stepSupervisor h l = some (h', l')) : h.Still h' := by
  cases stepSupervisor_course hs with
  | reader | requests | responses | emptied | closed => exact .refl h
  | _ => exact ⟨_, _, _, rfl⟩

/-- A call that the pump starts has nothing to hold yet. -/
theorem HandleCourse.calls (hc : HandleCourse sv h l m h' l') : l'.calls = l.calls ∨
    ∃ k : Call, k.phase = .fresh ∧ k.commit = {} ∧ k.serial = l.numbered ∧
      l'.calls = l.calls ++ [k] := by
  cases hc with
  | begun | notified => exact .inr ⟨_, rfl, rfl, rfl, rfl⟩
  | _ => exact .inl rfl

theorem calls_stepRequests (hs : stepRequests sv h l = some (h', l')) : l'.calls = l.calls ∨
    ∃ k : Call, k.phase = .fresh ∧ k.commit = {} ∧ k.serial = l.numbered ∧
      l'.calls = l.calls ++ [k] := by
  cases stepRequests_course hs with
  | ended | received | posted | waiting | refused => exact .inl rfl
  | handled _ hh => exact hh.calls

theorem goes_stepRequests (hs : stepRequests sv h l = some (h', l')) : Goes h l h' l' := by
  have hst := still_stepRequests hs
  obtain ⟨_, _, _, _, _, hl⟩ := stepRequests_footprint hs
  have hi : l'.id = l.id := by rw [hl]; rfl
  refine ⟨⟨0, hst.goes _⟩, hi, fun hh n k hk => ?_⟩
  rw [hi]
  rcases calls_stepRequests hs with hc | ⟨i, hp, hnew, -, hc⟩ <;> rw [call?, hc] at hk
  · exact (hh n k hk).still hst
  · rw [List.find?_append, Option.or_eq_some_iff] at hk
    rcases hk with hk | ⟨-, hk⟩
    · exact (hh n k hk).still hst
    · obtain rfl : i = k := List.mem_singleton.1 (List.mem_of_find?_eq_some hk) |>.symm
      exact ⟨by simp [hp], by simp [hnew]⟩

theorem goes_stepCall {n : Nat} (hm : h.sessions.Owned CallName.session) (hl : l.Holding h)
    (hs : stepCall sv h l n = some (h', l')) : Goes h l h' l' := by
  obtain ⟨k, q, k', hk, hn, hc, rfl⟩ := stepCall_course hs
  obtain ⟨hg, hh⟩ := Call.goes_step hm (hl n k hk) hc
  refine ⟨⟨k.serial, hg⟩, rfl, fun _ s i hi => ?_⟩
  change ((replaced l.calls n k').find? fun d => d.serial = s) = some i at hi
  rw [find?_replaced (Option.isSome_iff_exists.2 ⟨k, hk⟩) fun j hj => (hh j hj).1.trans hn] at hi
  split at hi
  · exact (hh i hi).2
  · next hsn =>
    obtain ⟨h1, h2⟩ := hl s i hi
    have his : i.serial = s := Link.serial_of_call? hi
    refine ⟨h1, fun hr a ha => hg.holds (h2 hr a ha) fun he => hsn ?_⟩
    rw [← his, ← hn]
    exact (Prod.mk.inj he).2

/-- A step of a connection uses its own session alone, and its calls go on to hold theirs. -/
theorem goes_step (hm : h.sessions.Owned CallName.session) (hl : l.Holding h)
    (hs : l.step sv h who = some (h', l')) : Goes h l h' l' := by
  cases who with
  | writer =>
      obtain ⟨_, _, _, rfl, -⟩ := stepWriter_footprint hs
      exact .still (still_stepWriter hs) rfl rfl
  | reader =>
      obtain ⟨-, _, _, _, rfl⟩ := stepReader_footprint hs
      exact .still (still_stepReader hs) rfl rfl
  | requests => exact goes_stepRequests hs
  | responses =>
      obtain ⟨-, _, _, _, rfl⟩ := stepResponses_footprint hs
      exact .still (still_stepResponses hs) rfl rfl
  | supervisor =>
      obtain ⟨_, _, rfl⟩ := stepSupervisor_footprint hs
      exact .still (still_stepSupervisor hs) rfl rfl
  | call n => exact goes_stepCall hm hl hs
  | caller n =>
      simp only [step, stepCaller, Option.map_eq_some_iff, Prod.mk.injEq] at hs
      obtain ⟨d, -, rfl, rfl⟩ := hs
      exact .still (.refl h) rfl rfl

end Link

end Parley.Dispatch
