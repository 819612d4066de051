import Parley.Proofs.Dispatch.Source

namespace Parley.Dispatch

namespace Link

variable {sv : Service} {h h' : Hub} {l l' : Link} {who : Actor} {x : Chronicle}

theorem bare_entries {k : Call} {k' : Option Call} (hk : k.phase.stage = .executing)
    (hk' : k'.map Call.job = none ∨ k'.map Call.job = some k.job) : Bare (k.entries h k') := by
  have hne (outcome : Except HandlerError Json) : k'.map Call.phase ≠ some (.concluded outcome) := by
    intro hc
    obtain ⟨i, rfl, hi⟩ := Option.map_eq_some_iff.1 hc
    have hj : i.job = k.job := by simpa using hk'
    have hst := (congrArg Job.stage hj).trans hk
    simp [Call.job, hi, Phase.stage] at hst
  unfold Call.entries
  split
  · exact fun e he => ⟨_, List.mem_singleton.1 he⟩
  · next hc => exact absurd hc (hne _)
  · next hc => exact absurd hc (hne _)
  · next hp => rw [hp] at hk; cases hk
  · exact fun e he => absurd he List.not_mem_nil

theorem entries_stepCall {n : Nat} (ht : l.Tidy) (hs : l.step sv h (.call n) = some (h', l')) :
    ∃ k k' y, l.call? n = some k ∧
      (k.Tidy ∧ ∃ p', k.step sv h l.desk.peer l.id = some (h', p', k')) ∧ l'.call? n = k' ∧
      Turn h.inflight l.desk.peer.outbound.shut k.job h'.inflight (k'.map Call.job) y ∧
      l'.responses = l.responses ++ y.toList ∧
      l.entries h l' (.call n) = (k.entries h k' ++ y.toList.map Entry.queued).map (n, ·) := by
  obtain ⟨k, p', k', hk, hkt, -, hc, -, hres, hcall⟩ := stepCall_eq_some ht hs
  obtain ⟨-, y, hr, hturn, -⟩ := Call.step_turn hkt hc
  have hk' : l'.call? n = k' := (hcall n).trans (if_pos rfl)
  have hy : l'.responses = l.responses ++ y.toList := hres.trans hr
  refine ⟨k, k', y, hk, ⟨hkt, p', hc⟩, hk', hturn, hy, ?_⟩
  simp only [entries, hk, hk', hy, List.drop_left]

theorem goes_diary (ht : l.Tidy) (hv : (l.view h).Sound l.id)
    (hs : l.step sv h who = some (h', l')) :
    View.Goes l.id (l.view h) (l'.view h') (l.deed l' who) x.diary (x.observe h l l' who).diary where
  kept hx := by
    rw [diary_observe]
    exact List.mem_append_left _ hx
  bare {s} hg hb := by
    rw [diary_observe]
    by_cases hw : who = .call s
    · subst hw
      obtain ⟨k, k', y, hk, -, -, hturn, -, he⟩ := entries_stepCall ht hs
      have hj : (l.view h).job s = some k.job := by simp [view, hk]
      obtain ⟨rfl, -, hk'⟩ := hg.turn hv hj hturn
      rw [he, noted_map, if_pos rfl, Option.toList_none, List.map_nil, List.append_nil]
      exact fun e he => (List.mem_append.1 he).elim (hb e) (bare_entries (hg.2 _ hj).1 hk' e)
    · rw [noted_aside hw, List.append_nil]
      exact hb
  taking {m} he := by
    obtain ⟨rfl, -⟩ := deed_eq_take he
    funext s
    rw [diary_observe, noted_aside (by simp), List.append_nil]
  queued {s y} he hr := by
    obtain rfl := deed_eq_post he
    obtain ⟨k, k', z, -, -, -, -, hz, he⟩ := entries_stepCall ht hs
    have hy : z.toList = [y] := List.append_cancel_left (hz.symm.trans hr)
    rw [diary_observe, he, noted_map, if_pos rfl, hy]
    simp

theorem still_step (hw : ∀ n, who ≠ .call n) (hs : l.step sv h who = some (h', l')) :
    h.Still h' := by
  cases who with
  | writer => exact still_stepWriter hs
  | reader => exact still_stepReader hs
  | requests => exact still_stepRequests hs
  | responses => exact still_stepResponses hs
  | supervisor => exact still_stepSupervisor hs
  | call n => exact absurd rfl (hw n)
  | caller n =>
      simp only [step, stepCaller, Option.map_eq_some_iff, Prod.mk.injEq] at hs
      obtain ⟨d, -, rfl, -⟩ := hs
      exact .refl h

theorem who_of_mem_entries {e : Entry} (he : (s, e) ∈ l.entries h l' who) : who = .call s := by
  by_contra hw
  have he : e ∈ noted (l.entries h l' who) s := List.mem_filterMap.2 ⟨_, he, by simp⟩
  rw [noted_aside hw] at he
  exact List.not_mem_nil he

theorem step_claimed {outcome : Except HandlerError Json} (ht : l.Tidy)
    (hs : l.step sv h who = some (h', l')) (hc : (s, .claimed outcome) ∈ l.entries h l' who) :
    who = .call s ∧ ∃ k, l.call? s = some k ∧ k.Ends sv h l.desk.peer l.id outcome := by
  obtain rfl := who_of_mem_entries hc
  obtain ⟨k, k', y, hk, ⟨-, p', hstep⟩, -, -, -, he⟩ := entries_stepCall ht hs
  refine ⟨rfl, k, hk, Call.claimed_ends hstep ?_⟩
  rw [he] at hc
  simpa using hc

/-- A step that runs a hook does nothing else with the sessions than what that comes to, and letting
go. A step that runs none has no session stored. -/
theorem step_hooked (ht : l.Tidy) (hr : l.Recorded x.diary) (hs : l.step sv h who = some (h', l')) :
    (∀ s v, (s, .hooked v) ∈ l.entries h l' who → who = .call s ∧
      l.entries h l' who = [(s, .hooked v)] ∧ v.before = h.sessions ∧ v.moment = h.moment ∧
      h'.sessions = v.result.1.release (l.id, s)) ∧
    ((∀ s v, (s, .hooked v) ∉ l.entries h l' who) →
      h'.sessions.store.stored ⊆ h.sessions.store.stored) := by
  by_cases hw : ∃ n, who = .call n
  · obtain ⟨n, rfl⟩ := hw
    obtain ⟨k, k', y, hk, ⟨-, p', hc⟩, -, hturn, -, he⟩ := entries_stepCall ht hs
    have hn : k.serial = n := Link.serial_of_call? hk
    obtain ⟨hhook, hnone⟩ := Call.step_hooked (hk ▸ hr.told n) hc
    refine ⟨fun s v hv => ?_, fun hno => hnone fun v hv => hno n v (by simp [he, hv])⟩
    obtain rfl := Actor.call.inj (who_of_mem_entries hv)
    have hv : .hooked v ∈ k.entries h k' := by
      rw [he] at hv
      simpa using hv
    obtain ⟨hone, hbefore, hmoment, hafter⟩ := hhook v hv
    obtain ⟨outcome, hp⟩ : ∃ outcome, k.phase = .concluded outcome := by
      by_contra hne
      exact Call.not_hooked (fun o ho => hne ⟨o, ho⟩) v hv
    obtain rfl := Call.turn_silent hturn (by simp [Call.job, hp, Phase.stage])
    refine ⟨rfl, ?_, hbefore, hmoment, hn ▸ hafter⟩
    rw [he, hone]
    rfl
  · obtain ⟨_, _, _, rfl⟩ := still_step (fun n hn => hw ⟨n, hn⟩) hs
    exact ⟨fun s v hv => (hw ⟨s, who_of_mem_entries hv⟩).elim, fun _ => List.Subset.refl _⟩

end Link

end Parley.Dispatch
