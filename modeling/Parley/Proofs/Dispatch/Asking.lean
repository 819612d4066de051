import Parley.Proofs.Dispatch.Books

namespace Parley

namespace Peer

variable {κ : Type} [DecidableEq κ] {p : Peer κ} {who : κ} {now : Nat} {x : Exchange} {a : Awaited}

theorem event_registered (h : (p.step who now x).2.event x = .registered a) :
    ∃ spec, x = .fresh (.request spec) := by
  rcases hs : p.step who now x with ⟨q, r⟩
  rw [hs] at h
  cases step_course hs with
  | @registered spec => exact ⟨spec, rfl⟩
  | @lined _ o => cases o <;> cases h
  | @inLine _ o => cases o <;> cases h
  | unencodable | encoded | unregistered | sent | unsent | queued | refused | answered
  | gone | timedOut | waiting | left => cases h

end Peer

namespace Dispatch

theorem Leaves.requests {p p' : Peer Actor} (h : Leaves p p') : p'.requests = p.requests := by
  obtain ⟨outbound, rfl, -, -, x, hi⟩ := h
  rw [Peer.requests, hi, List.filterMap_append, Peer.requests]
  cases x <;> simp [Message.request?]

namespace Link

variable {sv : Service} {h h' : Hub} {l l' : Link} {who : Actor} {k : Docket}
  {asked : List (RequestSpec × Awaited)}

theorem event_registered {a : Awaited} (he : l.event h who = .registered a) :
    ∃ spec, l.errand? who = some (.fresh (.request spec)) := by
  cases who with
  | writer | reader | requests | supervisor => cases he
  | responses =>
      simp only [event] at he
      split at he <;> cases he
  | call n =>
      simp only [event] at he
      split at he
      · next i hi =>
        simp only [Call.event] at he
        split at he
        · next x hx =>
          split at he
          · cases he
          · obtain ⟨spec, rfl⟩ := Peer.event_registered he
            exact ⟨spec, by simp [errand?, hi, hx]⟩
        · cases he
      · cases he
  | caller n =>
      simp only [event] at he
      split at he
      · next x hx =>
        obtain ⟨spec, rfl⟩ := Peer.event_registered he
        exact ⟨spec, hx⟩
      · cases he

theorem asking_eq_nil (he : ∀ a, l.event h who ≠ .registered a) : l.asking h who = [] := by
  unfold asking
  split
  · exact Exchange.asking_eq_nil he
  · rfl

theorem registered_record (k : Docket) (p : Pending Nat) (h : Hub) (l : Link) (who : Actor) :
    (k.record p (l.event h who)).registered = k.registered ++ (l.asking h who).map (·.2) := by
  cases he : l.event h who with
  | registered a =>
      obtain ⟨spec, hx⟩ := event_registered he
      simp [Docket.record, asking, hx, he, Exchange.asking]
  | quiet | processed | ended | lapsed => simp [Docket.record, asking_eq_nil, he]

def Asking (l : Link) (asked : List (RequestSpec × Awaited)) : Prop :=
  l.desk.peer.Asking l.errand? asked

theorem Asking.leaves (ha : l.Asking asked) (hp : Leaves l.desk.peer l'.desk.peer)
    (hf : ∀ {who m o}, l'.errand? who = some (.queueing m o) → l.errand? who = some (.queueing m o)) :
    l'.Asking asked := by
  have hr := hp.requests
  obtain ⟨outbound, hp, -⟩ := hp
  exact Peer.Asking.congr ha hr (by rw [hp]) (by rw [hp]; exact fun hc => hc) hf

/-- The errands stay as they are, and no request is queued. -/
theorem Asking.same (ha : l.Asking asked) (hf : l'.errand? = l.errand?)
    (hr : l'.desk.peer.requests = l.desk.peer.requests)
    (hn : l'.desk.peer.nextId = l.desk.peer.nextId)
    (hc : l'.desk.peer.pending.closed = false → l.desk.peer.pending.closed = false) :
    l'.Asking asked :=
  Peer.Asking.congr ha hr hn hc fun h => hf ▸ h

theorem Asking.writer (ha : l.Asking asked) (hs : stepWriter sv h l = some (h', l')) :
    l'.Asking asked := by
  have hr : (l.setOutbound l.desk.peer.outbound.take).desk.peer.requests = l.desk.peer.requests :=
    congrArg (List.filterMap Message.request?) Flow.Channel.items_take
  cases (stepWriter_course hs).2 with
  | left => exact ha.same rfl rfl rfl fun hc => hc
  | skipped | written | failed => exact ha.same rfl hr rfl fun hc => hc

theorem Asking.requests (ha : l.Asking asked) (ht : l.Tidy)
    (hs : stepRequests sv h l = some (h', l')) : l'.Asking asked := by
  obtain ⟨hl, hf⟩ := stepRequests_leaves ht hs
  exact ha.leaves hl fun hw => hf ▸ hw

theorem Asking.responses (ha : l.Asking asked) (hs : stepResponses h l = some (h', l')) :
    l'.Asking asked := by
  have hc (r : Response) : (l.desk.peer.pending.fulfill r).1.closed = l.desk.peer.pending.closed := by
    unfold Pending.fulfill
    split <;> rfl
  cases (stepResponses_course hs).2 with
  | ended | skipped => exact ha.same rfl rfl rfl fun hq => hq
  | fulfilled => exact ha.same rfl rfl rfl fun hq => (hc _).symm.trans hq

theorem Asking.supervisor (ha : l.Asking asked) (hs : stepSupervisor h l = some (h', l')) :
    l'.Asking asked := by
  cases stepSupervisor_course hs with
  | closed => exact ha.same rfl rfl rfl fun hc => by cases hc
  | _ => exact ha.same rfl rfl rfl fun hc => hc

theorem Asking.call {n : Nat} (ha : l.Asking asked) (ht : l.Tidy) (hv : l.errands.Slotted k)
    (hk : k.registered = asked.map (·.2)) (hs : stepCall sv h l n = some (h', l'))
    (hauto : ∀ e ∈ l.asking h (.call n), e.1.id = none) :
    l'.Asking (asked ++ l.asking h (.call n)) := by
  obtain ⟨i, i', hti, rfl, hc, hx, hev, hf⟩ := stepCall_exchange ht hs
  rw [Link.Asking, hf]
  rcases Call.step_exchange hti hc with ⟨x, r, he, hr, hw, hevent, hk'⟩ | ⟨he, hl, hk'⟩
  · have hask : l.asking h (.call i.serial) = x.asking (r.event x) := by
      simp only [asking, hx, he, hev, hevent]
    rw [hask] at hauto ⊢
    rw [hk']
    exact Peer.Asking.step ha hv hk (hx.trans he) hr hw hauto
  · rw [asking_eq_nil (by simp [hev, he]), List.append_nil]
    have hr := hl.requests
    obtain ⟨outbound, hp, -⟩ := hl
    refine Peer.Asking.goes ha hr (fun hc => ?_) fun ho => ?_
    · rw [hp] at hc ⊢
      exact ⟨hc, rfl⟩
    · rcases hk' with hk' | ⟨-, errand, hk'⟩ <;> rw [hk'] at ho <;> cases ho

theorem Asking.step (ha : l.Asking asked) (ht : l.Tidy) (hv : l.errands.Slotted k)
    (hk : k.registered = asked.map (·.2)) (hs : l.step sv h who = some (h', l'))
    (hauto : ∀ e ∈ l.asking h who, e.1.id = none) : l'.Asking (asked ++ l.asking h who) := by
  have hnone (he : ∀ a, l.event h who ≠ .registered a) (hl : l'.Asking asked) :
      l'.Asking (asked ++ l.asking h who) := by
    rwa [asking_eq_nil he, List.append_nil]
  cases who with
  | writer => exact hnone (by simp [event]) (ha.writer hs)
  | reader =>
      obtain ⟨-, _, _, _, rfl⟩ := stepReader_footprint hs
      exact hnone (by simp [event]) (ha.same rfl rfl rfl fun hc => hc)
  | requests => exact hnone (by simp [event]) (ha.requests ht hs)
  | responses =>
      refine hnone (fun a he => ?_) (ha.responses hs)
      simp only [event] at he
      split at he <;> cases he
  | supervisor => exact hnone (by simp [event]) (ha.supervisor hs)
  | call n => exact ha.call ht hv hk hs hauto
  | caller n =>
      obtain ⟨x, r, hx, hr, hw, he, hf⟩ := stepCaller_exchange hs
      have hask : l.asking h (.caller n) = x.asking (r.event x) := by simp only [asking, hx, he]
      rw [hask] at hauto ⊢
      rw [Asking, hf]
      exact Peer.Asking.step ha hv hk hx hr hw hauto

theorem asking_attach (sv : Service) (c : ConnectionId) : (attach sv c).Asking [] := by
  refine .empty rfl rfl fun who m o => ?_
  cases who <;> simp [errand?, call?, attach]

theorem Asking.aside (ha : l.Asking asked) (hl : l.Aside l') : l'.Asking asked := by
  cases hl with
  | same => exact ha
  | send errand =>
      have hf := errand?_desk (l := l) _ (lookup_send l.desk (.caller l.numbered) errand)
      refine Peer.Asking.congr ha rfl rfl (fun hc => hc) fun {who m o} hw => ?_
      rcases update_eq_some.1 (hf ▸ hw) with ⟨rfl, hx⟩ | ⟨-, hx⟩
      · rcases Option.or_eq_some_iff.1 hx with hx | ⟨-, hx⟩
        · exact hx
        · cases hx
      · exact hx
  | abort n =>
      have hf := errand?_desk (l := l) (l.desk.drop (.caller n)) fun u => lookup_remove
      refine ha.leaves ⟨_, rfl, rfl, rfl, none, by simp⟩ fun {who m o} hw => ?_
      rcases update_eq_some.1 (hf ▸ hw) with ⟨-, hx⟩ | ⟨-, hx⟩
      · cases hx
      · exact hx
  | outside ho =>
      obtain ⟨_, _, _, _, rfl⟩ := ho
      exact ha.same rfl rfl rfl fun hc => hc

end Link

end Dispatch

namespace Dispatcher.Booked

open Dispatch

variable {c : ConnectionId} {l : Link} {x : Dispatcher × Books}

/-- All requests have got their ids from the connection. -/
def Automatic (asked : List (RequestSpec × Awaited)) : Prop := ∀ e ∈ asked, e.1.id = none

theorem Reachable.registered (h : Reachable c x) (hl : x.1.link? c = some l) :
    x.2.docket.registered = x.2.asked.map (·.2) := by
  refine h.invariant (I := fun _ b => b.docket.registered = b.asked.map (·.2)) hl (fun _ => rfl) ?_ ?_
  · intro y d' m m' who hy hm hz hm' hs hb
    simp only [Link.registered_record, hb, List.map_append]
  · exact fun _ hb => hb

/-- Requests that get their ids from the connection are counted. -/
theorem Reachable.asking (h : Reachable c x) (hl : x.1.link? c = some l)
    (ha : Automatic x.2.asked) : l.Asking x.2.asked := by
  refine h.invariant (I := fun l b => Automatic b.asked → l.Asking b.asked) hl
    (fun sv _ => Link.asking_attach sv c) ?_ (fun hl hb ha => (hb ha).aside hl) ha
  intro y d' m m' who hy hm hz hm' hs hb ha
  exact (hb fun e he => ha e (List.mem_append_left _ he)).step (hy.sound.linked hm).1
    (hy.docketed.sound.errands hm).slotted (hy.registered hm) hs fun e he =>
      ha e (List.mem_append_right _ he)

end Dispatcher.Booked

end Parley
