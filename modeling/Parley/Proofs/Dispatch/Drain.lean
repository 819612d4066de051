import Parley.Proofs.Dispatch.Arrival

namespace Parley.Flow.Fanout

variable {α : Type} {f g : Fanout α} {s : Subscriber α} {i id : Nat}

theorem receive_closed (h : f.receive id = (g, .closed)) (hs : f.subscriber? id = some s) :
    g = f ∧ s.queue.queue = [] ∧ s.registered = false := by
  simp only [receive, hs] at h
  split at h
  · cases h
  · next hn =>
    split at h
    · cases h
    · next hr =>
      cases h
      simp only [Bool.or_eq_true, not_or, Bool.not_eq_true] at hr
      exact ⟨rfl, List.head?_eq_none_iff.1 hn, hr.1⟩

theorem receive_other {x : Received α} (h : f.receive id = (g, x)) (hi : id ≠ i) :
    g.subscriber? i = f.subscriber? i := by
  simp only [receive] at h
  split at h
  · cases h
    rfl
  · split at h
    · cases h
      rw [subscriber?_update, if_neg hi]
    · split at h <;> cases h <;> rfl

end Parley.Flow.Fanout

namespace Parley.Dispatch.Link

variable {sv : Service} {h h' : Hub} {l l' : Link} {who : Actor} {a : Ledger} {p : Prop} {pump : Nat}
  {s : Flow.Subscriber Message} {f : Flow.Fanout Message} {x : Flow.Fanout.Received Message}

def IsEmptied (l : Link) (pump : Nat) : Prop :=
  l.reader = .done ∧ ∀ s, l.fanout.subscriber? pump = some s → s.queue.queue = []

/-- When a pump has ended nothing is left for it. -/
structure Drained (l : Link) : Prop where
  requests : l.requests = .done → l.IsEmptied requestQueue
  responses : l.responsesDone = true → l.IsEmptied responseQueue

theorem Feeding.closed (hf : l.Feeding p a) (hp : pump ∈ pumps)
    (hx : l.fanout.receive pump = (f, .closed)) : f = l.fanout ∧ l.IsEmptied pump := by
  obtain ⟨passed, hh, -⟩ := hf.heard hp
  obtain ⟨s, hs, hsh, -⟩ := hh.given
  obtain ⟨hfan, hq, hreg⟩ := Flow.Fanout.receive_closed hx hs
  refine ⟨hfan, ?_, fun t ht => Option.some.inj (ht.symm.trans hs) ▸ hq⟩
  rcases hf with ⟨r, hr⟩ | ⟨-, hd, -⟩
  · by_contra hd
    have hmem := ((hr.sound.each pump s (hr.fanout ▸ hs)).registered hsh).2 (hr.members hd ▸ hp)
    rw [hreg] at hmem
    cases hmem
  · exact hd

/-- What one pump receives is no concern of the other. -/
theorem IsEmptied.receive {id : Nat} (he : l.IsEmptied pump) (hx : l.fanout.receive id = (f, x))
    (hi : id ≠ pump) (hfan : l'.fanout = f) (hr : l'.reader = l.reader) : l'.IsEmptied pump := by
  rw [IsEmptied, hr, hfan, Flow.Fanout.receive_other hx hi]
  exact he

theorem IsEmptied.idle (he : l.IsEmptied pump) (hfan : l'.fanout = l.fanout)
    (hr : l'.reader = l.reader) : l'.IsEmptied pump := by
  rw [IsEmptied, hr, hfan]
  exact he

theorem stepRequests_fanout (hs : stepRequests sv h l = some (h', l')) :
    l'.fanout = l.fanout ∨ ∃ x, l.fanout.receive requestQueue = (l'.fanout, x) := by
  cases stepRequests_course hs with
  | ended _ hx | received _ hx => exact .inr ⟨_, hx⟩
  | handled _ _ hk => exact .inl hk.1
  | posted | waiting | refused => exact .inl rfl

theorem stepResponses_fanout (hs : stepResponses h l = some (h', l')) : l.responsesDone = false ∧
    ∃ x, l.fanout.receive responseQueue = (l'.fanout, x) := by
  obtain ⟨hd, hc⟩ := stepResponses_course hs
  refine ⟨hd, ?_⟩
  cases hc with
  | ended hx | fulfilled hx | skipped _ hx => exact ⟨_, hx⟩

theorem HandleCourse.not_done {m : Message}
    (hc : HandleCourse sv h { l with requests := .taking } m h' l') : l'.requests ≠ .done := by
  cases hc <;> simp [spawn, reply]

namespace Drained

theorem next_reader (hd : l.Drained) (hs : stepReader sv h l = some (h', l')) : l'.Drained := by
  have hlive : l.reader ≠ .done := fun hr => by simp [stepReader, hr] at hs
  obtain ⟨-, _, _, _, rfl⟩ := stepReader_footprint hs
  exact ⟨fun hq => absurd (hd.requests hq).1 hlive, fun hq => absurd (hd.responses hq).1 hlive⟩

theorem next_requests (hd : l.Drained) (hf : l.Feeding p a)
    (hs : stepRequests sv h l = some (h', l')) :
    l'.Drained := by
  refine ⟨fun hq => ?_, fun hq => ?_⟩
  · cases stepRequests_course hs with
    | ended _ hx =>
        obtain ⟨rfl, he⟩ := hf.closed List.mem_cons_self hx
        exact he.idle rfl rfl
    | received | posted | refused => cases hq
    | handled _ hh => exact absurd hq hh.not_done
    | waiting hp => exact absurd (hp.symm.trans hq) (by simp)
  · have hfan := stepRequests_fanout hs
    obtain ⟨_, _, _, _, _, rfl⟩ := stepRequests_footprint hs
    rcases hfan with hfan | ⟨x, hx⟩
    · exact (hd.responses hq).idle hfan rfl
    · exact (hd.responses hq).receive hx (by decide) rfl rfl

theorem next_responses (hd : l.Drained) (hf : l.Feeding p a)
    (hs : stepResponses h l = some (h', l')) :
    l'.Drained := by
  obtain ⟨hlive, x, hx⟩ := stepResponses_fanout hs
  refine ⟨fun hq => ?_, fun hq => ?_⟩
  · obtain ⟨-, _, _, _, rfl⟩ := stepResponses_footprint hs
    exact (hd.requests hq).receive hx (by decide) rfl rfl
  · have hmem : responseQueue ∈ pumps := List.mem_cons_of_mem _ List.mem_cons_self
    cases (stepResponses_course hs).2 with
    | ended hclosed =>
        obtain ⟨rfl, he⟩ := hf.closed hmem hclosed
        exact he.idle rfl rfl
    | fulfilled | skipped => exact absurd (hlive.symm.trans hq) (by simp)

theorem step (hd : l.Drained) (hf : l.Feeding p a) (hs : l.step sv h who = some (h', l')) :
    l'.Drained := by
  by_cases hr : who = .reader
  · subst hr
    exact hd.next_reader hs
  · by_cases hq : who = .requests
    · subst hq
      exact hd.next_requests hf hs
    · by_cases hw : who = .responses
      · subst hw
        exact hd.next_responses hf hs
      · obtain ⟨hfan, hrd, hreq, hres⟩ := step_fanout hr hq hw hs
        exact ⟨fun h => (hd.requests (hreq ▸ h)).idle hfan hrd,
          fun h => (hd.responses (hres ▸ h)).idle hfan hrd⟩

end Drained

theorem drained_attach (sv : Service) (c : ConnectionId) : (attach sv c).Drained := ⟨nofun, nofun⟩

end Parley.Dispatch.Link

namespace Parley.Dispatcher

open Dispatch

variable {c : ConnectionId} {x : Dispatcher × Ledger} {l : Link}

theorem Reachable.drained (h : Reachable c x) (hl : x.1.link? c = some l) : l.Drained := by
  refine h.invariant (I := fun _ l _ => l.Drained) hl (fun sv _ => Link.drained_attach sv c) ?_
  intro y z t m m' hy hn hz hm hm' hd
  obtain ⟨l', e, w, hp⟩ := hn.passes hy.accounted.sound hm
  obtain rfl : l' = m' := Option.some.inj (hp.link.symm.trans hm')
  rcases hp.origin with ⟨who, -, hs, -⟩ | ⟨⟨_, _, _, _, _, _, _, rfl⟩, -⟩
  · exact hd.step (hy.feeding hm) hs
  · exact ⟨fun h => (hd.requests h).idle rfl rfl, fun h => (hd.responses h).idle rfl rfl⟩

end Parley.Dispatcher
