import Parley.Proofs.Dispatch.Told

namespace Parley.Dispatch

open Session (Handle)

namespace Call

variable {sv : Service} {h h' : Hub} {p p' : Peer Actor} {conn : ConnectionId} {k : Call}
  {k' : Option Call} {outcome : Except HandlerError Json} {es : List Entry}

theorem stored_letGo (h : Hub) : (k.letGo h conn).sessions.store = h.sessions.store := by
  unfold letGo
  split <;> rfl

theorem stored_abandon (h : Hub) : (k.abandon h conn).sessions.store = h.sessions.store := by
  unfold abandon
  rw [stored_letGo]
  split <;> rfl

theorem stored_conclude (h : Hub) :
    (k.conclude h conn outcome).1.sessions.store = h.sessions.store := by
  obtain ⟨g, hg, he | he⟩ := conclude_eq k h conn outcome <;> obtain ⟨_, _, _, rfl⟩ := hg <;>
    rw [he]
  exact stored_letGo _

theorem stored_start (h : Hub) :
    (k.start sv h conn).1.sessions.store.stored ⊆ h.sessions.store.stored := by
  have hr := Session.Manager.stored_resolve h.sessions conn.session h.moment
  unfold start resolve
  rcases hm : h.sessions.resolve [conn.session] conn.session h.moment with ⟨m, e | a⟩ <;>
    rw [hm] at hr <;> dsimp only
  · rw [stored_conclude]
    exact hr
  · exact hr

theorem stored_activity (activity : Activity) (n : Nat) (token : Flow.Token TokenName)
    (a : Handle) :
    (activity.step h p n token a).1.sessions.store.stored = h.sessions.store.stored := by
  cases activity with
  | running program => cases program <;> rfl
  | asleep | atGate => rfl
  | sending x next =>
    simp only [Activity.step]
    split <;> rfl

theorem sessions_settle (h : Hub) (conn : ConnectionId) (outcome : Except HandlerError Json)
    {r : Option Handle} (hc : k.commit.hooks = r.toList) :
    (k.settle h conn outcome).1.sessions =
      (saveAll h r.toList).1.sessions.release (conn, k.serial) := by
  rw [settle, Flow.Commit.hooks_start, hc]
  cases ht : k.ticket <;> rcases saveAll h r.toList with ⟨g, e | _⟩ <;>
    simp [letGo, ht, log, Hub.log]

theorem stored_drop (activity : Activity) (n : Nat) :
    (activity.drop h p n).1.sessions.store = h.sessions.store := by
  obtain ⟨_, _, _, he⟩ := still_drop (h := h) (p := p) (n := n) activity
  rw [he]

theorem not_hooked (hp : ∀ o, k.phase ≠ .concluded o) (v : Visit) :
    .hooked v ∉ k.entries h k' := by
  unfold entries
  split <;> simp_all

theorem stored_step (hp : ∀ o, k.phase ≠ .concluded o)
    (hs : k.step sv h p conn = some (h', p', k')) :
    h'.sessions.store.stored ⊆ h.sessions.store.stored := by
  have ha {activity : Activity} {a : Handle} {g : Hub} {q : Peer Actor} {r : Activity.Progress}
      (hr : activity.step h p k.serial k.token a = (g, q, r)) :
      g.sessions.store.stored ⊆ h.sessions.store.stored := by
    have hstored := stored_activity (h := h) (p := p) activity k.serial k.token a
    rw [hr] at hstored
    exact hstored ▸ List.Subset.refl _
  cases course_of_step hs with
  | abandoned =>
    rw [stored_abandon]
    exact List.Subset.refl _
  | started => exact stored_start h
  | dropped =>
    rw [stored_abandon, stored_drop]
    exact List.Subset.refl _
  | moved _ _ hr => exact ha hr
  | ended _ _ hr =>
    rw [stored_conclude]
    exact ha hr
  | panicked _ _ hr =>
    have hg := ha hr
    rw [stored_conclude]
    exact hg
  | overdue =>
    rw [stored_conclude, stored_drop]
    exact List.Subset.refl _
  | settled hq => exact absurd hq (hp _)
  | answered | waiting | refused => exact List.Subset.refl _

/-- A step of a call runs the hook on the sessions as they are, and lets go of the session; or it
has no session stored. -/
theorem step_hooked (ht : Told (some k) es) (hs : k.step sv h p conn = some (h', p', k')) :
    (∀ v, .hooked v ∈ k.entries h k' → k.entries h k' = [.hooked v] ∧ v.before = h.sessions ∧
      v.moment = h.moment ∧ h'.sessions = v.result.1.release (conn, k.serial)) ∧
    ((∀ v, .hooked v ∉ k.entries h k') →
      h'.sessions.store.stored ⊆ h.sessions.store.stored) := by
  cases ht with
  | @concluded _ outcome r hp hc =>
    have he : k.entries h k' = (visits h r.toList).map .hooked := by
      simp [entries, hp, Flow.Commit.hooks_start, hc]
    have hsettle := sessions_settle h conn outcome hc
    simp only [step, hp] at hs
    cases hs
    rw [he, hsettle]
    cases r with
    | none => exact ⟨fun v hv => (List.not_mem_nil hv).elim, fun _ => List.Subset.refl _⟩
    | some a =>
      rw [Option.toList_some, visits_singleton]
      refine ⟨fun v hv => ?_, fun hn => absurd (List.mem_singleton_self _) (hn _)⟩
      obtain rfl := Entry.hooked.inj (List.mem_singleton.1 hv)
      exact ⟨rfl, rfl, rfl, by rw [saveAll_singleton]; rfl⟩
  | fresh hp | executing hp | replying hp =>
    have hne (o : Except HandlerError Json) : k.phase ≠ .concluded o := by simp [hp]
    exact ⟨fun v hv => absurd hv (not_hooked hne v), fun _ => stored_step hne hs⟩

end Call

end Parley.Dispatch
