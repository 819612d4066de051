import Parley.Proofs.Dispatch.Hooks
import Parley.Proofs.Server.Watching

namespace Parley

open Dispatch

namespace Dispatch

theorem Outer.numbered (f : Outer) (l : Link) : (f.change l).numbered = l.numbered := by
  obtain ⟨_, _, _, _, h⟩ := f.outside l
  rw [h]

namespace Link

variable {sv : Service} {h h' : Hub} {l l' : Link} {m : Message} {who : Actor} {k : Call}

/-- A call that is started has the handler that its method resolves to. -/
theorem HandleCourse.routed (hc : HandleCourse sv h l m h' l') (hk : k ∈ l'.calls) :
    k ∈ l.calls ∨ sv.routes.resolve k.method = .ok k.handler := by
  have hspawn {call : Nat → Call} (hk : k ∈ (l.spawn call).calls)
      (hc : sv.routes.resolve (call l.numbered).method = .ok (call l.numbered).handler) :
      k ∈ l.calls ∨ sv.routes.resolve k.method = .ok k.handler := by
    rcases List.mem_append.1 hk with hk | hk
    · exact .inl hk
    · rw [List.mem_singleton.1 hk]
      exact .inr hc
  cases hc with
  | begun hr | notified _ hr => exact hspawn hk hr
  | _ => exact .inl hk

theorem routed_step (hw : ∀ n, who ≠ .call n) (hs : l.step sv h who = some (h', l'))
    (hk : k ∈ l'.calls) : k ∈ l.calls ∨ sv.routes.resolve k.method = .ok k.handler := by
  by_cases hr : who = .requests
  · subst hr
    cases stepRequests_course hs with
    | ended | received | posted | waiting | refused => exact .inl hk
    | handled _ hh => exact hh.routed hk
  · rw [calls_aside hr hw hs] at hk
    exact .inl hk

theorem call?_step {n : Nat} (ht : l.Tidy) (hw : ∀ n, who ≠ .call n)
    (hs : l.step sv h who = some (h', l')) (hk : l'.call? n = some k) :
    l.call? n = some k ∨ k.phase = .fresh ∧ k.commit = {} ∧ l.numbered = n ∧
      sv.routes.resolve k.method = .ok k.handler := by
  have hn := serial_of_call? hk
  have hmem := List.mem_of_find?_eq_some hk
  rcases calls_step hw hs with hc | ⟨i, hp, hc, hi, hcalls⟩
  · rw [call?, hc] at hk
    exact .inl hk
  · rw [call?, hcalls, List.find?_append] at hk
    rcases Option.or_eq_some_iff.1 hk with hk | ⟨-, hk⟩
    · exact .inl hk
    · obtain rfl : i = k := (List.mem_singleton.1 (List.mem_of_find?_eq_some hk)).symm
      refine .inr ⟨hp, hc, hi.symm.trans hn, (routed_step hw hs hmem).resolve_left fun hold => ?_⟩
      have := (ht.calls i hold).2
      omega

end Link

end Dispatch

namespace Dispatcher

variable {d d' : Dispatcher} {c : ConnectionId} {e : Event}

/-- What else happens than steps of the calls of `c`: it may start some, and leaves their session.
-/
structure Aside (c : ConnectionId) (d d' : Dispatcher) : Prop where
  sessions : ∃ failing, d'.hub.sessions = { d.hub.sessions with failing }
  calls : ∀ {n k}, d'.call? c n = some k → d.call? c n = some k ∨
    k.phase = .fresh ∧ k.commit = {} ∧ d.numbered c = n ∧
      d.service.routes.resolve k.method = .ok k.handler
  stay : ∀ {n k}, d.call? c n = some k → d'.call? c n = some k
  numbered : d.numbered c ≤ d'.numbered c

namespace Aside

theorem of_link? (hl : d'.link? c = d.link? c)
    (hs : ∃ failing, d'.hub.sessions = { d.hub.sessions with failing }) : Aside c d d' :=
  ⟨hs, fun hk => .inl (by rwa [Dispatcher.call?, ← hl]), fun hk => by rwa [Dispatcher.call?, hl],
    Nat.le_of_eq (by rw [Dispatcher.numbered, Dispatcher.numbered, hl])⟩

theorem refl (c : ConnectionId) (d : Dispatcher) : Aside c d d := of_link? rfl ⟨_, rfl⟩

theorem edit {f : Link → Link} (hi : ∀ l : Link, (f l).id = l.id)
    (hc : ∀ l : Link, (f l).calls = l.calls) (hn : ∀ l : Link, l.numbered ≤ (f l).numbered) :
    Aside c d (d.edit c f) := by
  have hl : (d.edit c f).link? c = (d.link? c).map f := by rw [link?_edit hi, if_pos rfl]
  have hcall {n : Nat} : (d.edit c f).call? c n = d.call? c n := by
    rw [Dispatcher.call?, hl, Dispatcher.call?]
    cases d.link? c with
    | none => rfl
    | some l =>
        simp only [Option.map_some, Option.bind_some, Link.call?]
        rw [hc]
  refine ⟨⟨_, by rw [hub_edit]⟩, fun hk => .inl (hcall ▸ hk), fun hk => hcall.trans hk, ?_⟩
  rw [Dispatcher.numbered, Dispatcher.numbered, hl]
  cases d.link? c with
  | none => exact Nat.le_refl _
  | some l => exact hn l

theorem step {who : Actor} (hd : d.Orderly) (hw : ∀ n, who ≠ .call n)
    (hs : d.step (c, who) = some d') : Aside c d d' := by
  obtain ⟨l, -, -, hl, -⟩ := step_eq_some hs
  obtain ⟨l', hl', hstep, -⟩ := step_own hd.sound hl hs
  have ht := (hd.sound.linked hl).1
  obtain ⟨_, _, _, hstill⟩ := Link.still_step hw hstep
  refine ⟨⟨_, by rw [hstill]⟩, fun {n k} hk => ?_, fun {n k} hk => ?_, ?_⟩
  · rw [Dispatcher.call?, hl', Option.bind_some] at hk
    rw [Dispatcher.call?, hl, Option.bind_some, numbered_eq hl]
    exact Link.call?_step ht hw hstep hk
  · rw [Dispatcher.call?, hl, Option.bind_some] at hk
    rw [Dispatcher.call?, hl', Option.bind_some]
    rcases Link.calls_step hw hstep with hcalls | ⟨i, -, -, -, hcalls⟩
    · rwa [Link.call?, hcalls]
    · rw [Link.call?, hcalls, List.find?_append]
      exact Option.or_eq_some_iff.2 (.inl hk)
  · rw [numbered_eq hl, numbered_eq hl']
    exact Link.numbered_step ht hstep

theorem attach (hl : d.link? c = none) : Aside c d (d.attach c) := by
  have hl' : (d.attach c).link? c = some (.attach d.service c) := by simp [link?_attach, hl]
  refine ⟨⟨_, rfl⟩, fun hk => ?_, fun hk => ?_, ?_⟩
  · rw [Dispatcher.call?, hl'] at hk
    cases hk
  · rw [Dispatcher.call?, hl] at hk
    cases hk
  · rw [Dispatcher.numbered, hl]
    exact Nat.zero_le _

theorem happen (hd : d.Orderly) (he : e.of?.all (· = c) = true) (hw : ∀ n, e ≠ .step c (.call n)) :
    Aside c d (d.happen e) := by
  cases e with
  | step c' who =>
      obtain rfl : c' = c := by simpa [Event.of?] using he
      cases hs : d.step (c', who) with
      | none => simpa [Dispatcher.happen, hs] using refl c' d
      | some d' =>
          rw [Dispatcher.happen, hs, Option.getD_some]
          exact .step hd (fun n hn => hw n (hn ▸ rfl)) hs
  | attach c' =>
      obtain rfl : c' = c := by simpa [Event.of?] using he
      by_cases hl : d.link? c' = none
      · simpa [Dispatcher.happen, hl] using attach hl
      · simpa [Dispatcher.happen, hl] using refl c' d
  | send c' errand =>
      obtain rfl : c' = c := by simpa [Event.of?] using he
      exact .edit (fun _ => rfl) (fun _ => rfl) fun l => Nat.le_succ _
  | abort c' n =>
      obtain rfl : c' = c := by simpa [Event.of?] using he
      exact .edit (fun _ => rfl) (fun _ => rfl) fun _ => Nat.le_refl _
  | outside c' f =>
      obtain rfl : c' = c := by simpa [Event.of?] using he
      exact .edit f.id f.calls fun l => Nat.le_of_eq (f.numbered l).symm
  | close | openGate | advance | elapse | fail => exact .of_link? rfl ⟨_, rfl⟩

end Aside

end Dispatcher

end Parley
