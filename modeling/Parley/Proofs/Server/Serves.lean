import Parley.Proofs.Dispatch.Warned
import Parley.Proofs.Server.Advance
import Parley.Proofs.Server.Aside

namespace Parley.Dispatcher

open Dispatch

variable {d d' : Dispatcher} {c : ConnectionId} {n : Nat} {k : Call} {k' : Option Call} {ts : Touches}
  {e : Event} {l' : Link}

/-- A dispatcher to which nothing has happened but for the connection `c`. -/
structure Serves (c : ConnectionId) (d : Dispatcher) (ts : Touches) : Prop where
  orderly : d.Orderly
  route : d.service.routes.resolve Server.Builtin.sessionMethod = .ok Server.Builtin.session
  shows : d.hub.sessions.Shows c.session ts.value
  stands : ∀ {n k}, d.call? c n = some k → k.Stands c d.hub.sessions ts
  routed : ∀ {n k}, d.call? c n = some k → d.service.routes.resolve k.method = .ok k.handler
  warned : ∀ {l}, d.link? c = some l → (l.view d.hub).Warned c
  known : ∀ t ∈ ts, t.1 < d.numbered c

theorem serves_start {service : Service}
    (hr : service.routes.resolve Server.Builtin.sessionMethod = .ok Server.Builtin.session)
    (maxIdle : Nat) : Serves c (ofService service maxIdle) [] where
  orderly := ⟨sound_serving _ _, ⟨List.nodup_nil, by simp [ofService, serving]⟩, fun hl => by cases hl⟩
  route := hr
  shows := Session.Manager.shows_empty _ _
  stands hk := by cases hk
  routed hk := by cases hk
  warned hl := by cases hl
  known t ht := by cases ht

structure Turns (c : ConnectionId) (n : Nat) (ts : Touches) (d d' : Dispatcher) (k : Call)
    (k' : Option Call) : Prop where
  advances : k.Advances c ts d'.hub k'
  calls : ∀ s, d'.call? c s = if s = n then k' else d.call? c s
  numbered : d'.numbered c = d.numbered c
  holds : ∀ {s a}, s ≠ n → ((c, s), a) ∈ d.hub.sessions.holds → ((c, s), a) ∈ d'.hub.sessions.holds

theorem Turns.other {i : Call} {s : Nat} (ht : Turns c n ts d d' k k')
    (hs : d'.call? c s = some i) :
    s = n ∧ k' = some i ∨ s ≠ n ∧ d.call? c s = some i := by
  rw [ht.calls] at hs
  split at hs
  · next heq => exact .inl ⟨heq, hs⟩
  · next hne => exact .inr ⟨hne, hs⟩

theorem striking?_of_purge {s : Supervisor} {t : Ticket TokenName} {ts : List (Ticket TokenName)}
    (h : s.purge = .firing t ts) : t ∈ s.striking? := by
  cases s <;> cases h
  rfl

namespace Serves

theorem handler (h : Serves c d ts) (hc : Calm c d) (hk : d.call? c n = some k) :
    k.handler = Server.Builtin.session := by
  obtain ⟨_, -, -, hu⟩ := hc.call hk
  have hr := h.routed hk
  rw [hu.method, h.route] at hr
  exact (Except.ok.inj hr).symm

/-- A call that is open has not been cancelled, and so nobody else has claimed its outcome. -/
theorem uncancelled (h : Serves c d ts) (hc : Calm c d) (hk : d.call? c n = some k)
    (ho : k.isOpen = true) : d.hub.inflight.isCancelled k.token = false ∧
      ∀ t, k.ticket = some t → d.hub.inflight.isClaimed t = false := by
  obtain ⟨l, hl, hk, hu⟩ := hc.call hk
  obtain ⟨hn, hstrike⟩ := hu.uncancelled ho
  rw [Link.serial_of_call? hk] at hn hstrike
  have hv := (h.orderly.sound.linked hl).2
  have hj : (l.view d.hub).job n = some k.job := by simp [Link.view, hk]
  have hst : k.job.stage = .executing := by
    unfold Call.isOpen at ho
    split at ho
    · next hp => simp [Call.job, hp, Phase.stage]
    · next hp => simp [Call.job, hp, Phase.stage]
    · cases ho
  have htoken : k.token = Hub.callToken c n := hv.token hj
  refine ⟨htoken ▸ hn, fun t ht => ?_⟩
  by_contra hcl
  rw [Bool.not_eq_false, InFlight.isClaimed, decide_eq_true_iff, (hv.ticket hj ht).1] at hcl
  rcases (h.warned hl).cancelled hj ht hst hcl with hcancelled | ⟨us, hp⟩
  · exact Bool.false_ne_true (hn.symm.trans hcancelled)
  · exact hstrike t (striking?_of_purge hp) (hv.ticket hj ht).2.1

theorem turns (h : Serves c d ts) (hc : Calm c d) (hk : d.call? c n = some k)
    (hs : d.step (c, .call n) = some d') : ∃ k', Turns c n ts d d' k k' := by
  have hhandler := h.handler hc hk
  have hopen := h.uncancelled hc hk
  have hstands := h.stands hk
  have htimely (hfresh : k.isFresh = true) : d.hub.sessions.store.Timely d.hub.moment := by
    obtain ⟨_, -, -, hu⟩ := hc.call hk
    exact h.shows.timely (hu.timely hfresh)
  obtain ⟨l, hl, hk⟩ := call?_eq_some.1 hk
  obtain ⟨l', hl', hstep, -⟩ := step_own h.orderly.sound hl hs
  obtain ⟨i, p', k', hi, -, hn, hcall, hnum, -, hcalls⟩ :=
    Link.stepCall_eq_some (h.orderly.sound.linked hl).1 hstep
  obtain rfl : k = i := Option.some.inj (hk.symm.trans hi)
  have hid := id_of_link? hl
  rw [hid] at hcall
  refine ⟨k', hstands.step hhandler h.shows hc.able htimely hopen hcall, fun s => ?_, ?_,
    fun {s a} hsn ha => ?_⟩
  · rw [call?, hl', Option.bind_some, hcalls, call?, hl, Option.bind_some]
  · rw [numbered_eq hl, numbered_eq hl', hnum]
  · have hg := (Call.goes_step h.orderly.owned (hid ▸ h.orderly.holding hl n k hk) hcall).goes
    exact hg.holds ha fun he => hsn ((Prod.mk.inj he).2.trans hn)

theorem goes (h : Serves c d ts) (hc : Calm c d) (hk : d.call? c n = some k) (hn : k.left ≠ 0) :
    ∃ d', d.step (c, .call n) = some d' := by
  have hstands := h.stands hk
  have hopen := fun ho => (h.uncancelled hc hk ho).1
  obtain ⟨l, hl, hk⟩ := call?_eq_some.1 hk
  have hgoes : (k.step d.service d.hub l.desk.peer c).isSome = true := hstands.goes hn hopen
  obtain ⟨x, hx⟩ := Option.isSome_iff_exists.1 hgoes
  rw [← id_of_link? hl] at hx
  rw [Link.call?] at hk
  simp only [step, hl, Link.step, Link.stepCall, hk, hx, Option.bind_eq_bind, Option.bind_some]
  exact ⟨_, rfl⟩

theorem warned_happen (h : Serves c d ts) (e : Event) (hl' : (d.happen e).link? c = some l') :
    (l'.view (d.happen e).hub).Warned c := by
  rcases next_happen d e with he | ⟨t, hn⟩
  · rw [he] at hl' ⊢
    exact h.warned hl'
  · cases hl : d.link? c with
    | none =>
        obtain rfl := (hn.blank h.orderly.sound hl).2.2 l' hl'
        rw [attached_view]
        exact ⟨(fun hj => by cases hj), fun ht => by cases ht⟩
    | some l => exact hn.warned h.orderly.sound hl (h.warned hl) hl'

theorem aside (h : Serves c d ts) (ha : Aside c d (d.happen e)) : Serves c (d.happen e) ts where
  orderly := h.orderly.happen e
  route := by rw [service_happen]; exact h.route
  shows := by
    obtain ⟨failing, hs⟩ := ha.sessions
    rw [hs]
    exact h.shows.fail failing
  stands {n k} hk := by
    rcases ha.calls hk with hold | ⟨hp, hc, hn, -⟩
    · obtain ⟨failing, hs⟩ := ha.sessions
      have hk : k.Stands c (d.happen e).hub.sessions (ts ++ []) :=
        (h.stands hold).aside rfl fun a ha => by rw [hs]; exact ha
      rwa [List.append_nil] at hk
    · refine .fresh hp hc (Touches.noted_eq_nil fun t ht => ?_)
      have := h.known t ht
      rw [serial_of_call? hk]
      omega
  routed hk := by
    rw [service_happen]
    exact (ha.calls hk).elim h.routed fun hnew => hnew.2.2.2
  warned hl := h.warned_happen e hl
  known t ht := Nat.lt_of_lt_of_le (h.known t ht) ha.numbered

theorem turned (h : Serves c d ts) (hk : d.call? c n = some k)
    (ht : Turns c n ts d (d.happen e) k k') :
    Serves c (d.happen e) (ts ++ (k.touch? ts).toList) := by
  have hn := serial_of_call? hk
  have htouch {t : Nat × Option (String × Json)} (ht : t ∈ (k.touch? ts).toList) : t.1 = n :=
    (Call.of_touch? (Option.mem_toList.1 ht)).2.trans hn
  refine ⟨h.orderly.happen e, by rw [service_happen]; exact h.route, ht.advances.shows,
    fun {s i} hi => ?_, fun {s i} hi => ?_, h.warned_happen e, fun t ht' => ?_⟩
  · rcases ht.other hi with ⟨-, hi⟩ | ⟨hne, hi⟩
    · exact ht.advances.stands i hi
    · have his := serial_of_call? hi
      refine (h.stands hi).aside (Touches.noted_eq_nil fun t ht' he => hne ?_) fun a ha => ?_
      · rw [← his, ← he, htouch ht']
      · exact ht.holds (his.symm ▸ hne) ha
  · rw [service_happen]
    rcases ht.other hi with ⟨-, hi⟩ | ⟨-, hi⟩
    · obtain ⟨_, _, rfl⟩ := ht.advances.kept i hi
      have hr := h.routed hk
      exact hr
    · exact h.routed hi
  · rw [ht.numbered]
    rcases List.mem_append.1 ht' with ht' | ht'
    · exact h.known t ht'
    · rw [htouch ht']
      exact h.orderly.lt_numbered hk

/-- Either a call of the connection takes a step, or its session is not touched. -/
theorem course (h : Serves c d ts) (hc : Calm c d) (he : e.of?.all (· = c) = true) :
    touch? c ts d e = none ∧ Aside c d (d.happen e) ∨ ∃ n k k', d.call? c n = some k ∧
      touch? c ts d e = k.touch? ts ∧ Turns c n ts d (d.happen e) k k' := by
  by_cases hw : ∃ n, e = .step c (.call n)
  · obtain ⟨n, rfl⟩ := hw
    have htouch : touch? c ts d (.step c (.call n)) = (d.call? c n).bind (Call.touch? ts) := by
      simp [touch?]
    cases hs : d.step (c, .call n) with
    | none =>
        refine .inl ⟨?_, by simpa [Dispatcher.happen, hs] using Aside.refl c d⟩
        rw [htouch]
        cases hk : d.call? c n with
        | none => rfl
        | some k =>
            refine Call.touch?_of_not_open (Bool.eq_false_iff.2 fun ho => ?_)
            have hl := Call.isOpen_iff_left.1 ho
            obtain ⟨d', hd'⟩ := h.goes hc hk (by omega)
            cases hs.symm.trans hd'
    | some d' =>
        obtain ⟨l, -, -, hl, -⟩ := step_eq_some hs
        obtain ⟨l', -, hstep, -⟩ := step_own h.orderly.sound hl hs
        obtain ⟨k, -, -, hk, -⟩ := Link.stepCall_eq_some (h.orderly.sound.linked hl).1 hstep
        have hk : d.call? c n = some k := call?_eq_some.2 ⟨l, hl, hk⟩
        obtain ⟨k', ht⟩ := h.turns hc hk hs
        refine .inr ⟨n, k, k', hk, by rw [htouch, hk, Option.bind_some], ?_⟩
        rwa [Dispatcher.happen, hs, Option.getD_some]
  · refine .inl ⟨?_, .happen h.orderly he fun n hn => hw ⟨n, hn⟩⟩
    unfold touch?
    split
    · next c' n =>
      rw [if_neg]
      rintro rfl
      exact hw ⟨n, rfl⟩
    · rfl

theorem happen (h : Serves c d ts) (hc : Calm c d) (he : e.of?.all (· = c) = true) :
    Serves c (d.happen e) (ts ++ (touch? c ts d e).toList) := by
  rcases h.course hc he with ⟨hw, ha⟩ | ⟨n, k, k', hk, hw, ht⟩
  · rw [hw, Option.toList_none, List.append_nil]
    exact h.aside ha
  · rw [hw]
    exact h.turned hk ht

end Serves

end Parley.Dispatcher
