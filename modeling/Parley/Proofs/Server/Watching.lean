import Parley.Proofs.Dispatch.Isolation
import Parley.Proofs.Server.Attributes

namespace Parley

open Dispatch

def Dispatch.Supervisor.striking? : Supervisor → Option (Ticket TokenName)
  | firing t _ => some t
  | _ => none

theorem Session.Manager.Shows.timely {χ : Type} {m : Manager χ} {id : SessionId} {ms : Json.Members}
    {now : Nat} (h : m.Shows id ms) (ht : (m.store.only id).Timely now) : m.store.Timely now := by
  intro a ha x hx
  have hid : a.id = id := h.own (.inl ha)
  exact ht a (by simpa [Store.only] using ⟨ha, hid⟩) x (by rwa [Store.get?_only hid])

namespace Dispatcher

variable {d g : Dispatcher} {c : ConnectionId} {n : Nat} {k : Call} {ts : Touches} {e : Event}
  {l : Link}

def call? (d : Dispatcher) (c : ConnectionId) (n : Nat) : Option Call :=
  (d.link? c).bind fun l => l.call? n

def numbered (d : Dispatcher) (c : ConnectionId) : Nat := ((d.link? c).map Link.numbered).getD 0

def touch? (c : ConnectionId) (ts : Touches) (d : Dispatcher) :
    Event → Option (Nat × Option (String × Json))
  | .step c' (.call n) => if c' = c then (d.call? c n).bind (Call.touch? ts) else none
  | _ => none

def touches (c : ConnectionId) (ts : Touches) : Dispatcher → List Event → Touches
  | _, [] => ts
  | d, e :: es => touches c (ts ++ (touch? c ts d e).toList) (d.happen e) es

def wish? (c : ConnectionId) (d : Dispatcher) (e : Event) : Option (Nat × Json.Members) :=
  ((d.happen e).call? c (d.numbered c)).bind fun k => k.set?.map (d.numbered c, ·)

def wishes (c : ConnectionId) : Dispatcher → List Event → Wishes
  | _, [] => []
  | d, e :: es => (wish? c d e).toList ++ wishes c (d.happen e) es

def Throughout (p : Dispatcher → Prop) : Dispatcher → List Event → Prop
  | d, [] => p d
  | d, e :: es => p d ∧ Throughout p (d.happen e) es

instance decidableThroughout (p : Dispatcher → Prop) [DecidablePred p] :
    (d : Dispatcher) → (es : List Event) → Decidable (Throughout p d es)
  | d, [] => inferInstanceAs (Decidable (p d))
  | d, e :: es =>
    have := decidableThroughout p (d.happen e) es
    inferInstanceAs (Decidable (p d ∧ Throughout p (d.happen e) es))

theorem throughout_and {p q : Dispatcher → Prop} {es : List Event} (hp : Throughout p d es)
    (hq : Throughout q d es) : Throughout (fun d => p d ∧ q d) d es := by
  induction es generalizing d with
  | nil => exact ⟨hp, hq⟩
  | cons e es ih => exact ⟨⟨hp.1, hq.1⟩, ih hp.2 hq.2⟩

/-- A call of the route may take its next step: it has not been cancelled, nor is it being
cancelled, and if it is about to get its session then that is not idle for too long. -/
structure Unhurt (c : ConnectionId) (h : Hub) (l : Link) (k : Call) : Prop where
  method : k.method = Server.Builtin.sessionMethod
  uncancelled : k.isOpen = true → h.inflight.isCancelled (Hub.callToken c k.serial) = false ∧
    ∀ t ∈ l.supervisor.striking?, t.token ≠ Hub.callToken c k.serial
  timely : k.isFresh = true → (h.sessions.store.only c.session).Timely h.moment

/-- The store can do everything, and all calls of `c` are of the route and may go on. -/
structure Calm (c : ConnectionId) (d : Dispatcher) : Prop where
  able : d.hub.sessions.failing = []
  calls : ∀ l ∈ d.link? c, ∀ k ∈ l.calls, Unhurt c d.hub l k

instance (c : ConnectionId) (h : Hub) (l : Link) (k : Call) : Decidable (Unhurt c h l k) :=
  decidable_of_iff (k.method = Server.Builtin.sessionMethod ∧
      (k.isOpen = true → h.inflight.isCancelled (Hub.callToken c k.serial) = false ∧
        ∀ t ∈ l.supervisor.striking?, t.token ≠ Hub.callToken c k.serial) ∧
      (k.isFresh = true → (h.sessions.store.only c.session).Timely h.moment))
    ⟨fun ⟨hm, hn, ht⟩ => ⟨hm, hn, ht⟩, fun h => ⟨h.method, h.uncancelled, h.timely⟩⟩

instance (c : ConnectionId) : DecidablePred (Calm c) := fun d =>
  decidable_of_iff
    (d.hub.sessions.failing = [] ∧ ∀ l ∈ d.link? c, ∀ k ∈ l.calls, Unhurt c d.hub l k)
    ⟨fun ⟨ha, hk⟩ => ⟨ha, hk⟩, fun h => ⟨h.able, h.calls⟩⟩

def OneAtATime (c : ConnectionId) (d : Dispatcher) : Prop :=
  ∀ l ∈ d.link? c, ∀ k ∈ l.calls, ∀ i ∈ l.calls, k.isOpen = true → i.isOpen = true →
    k.serial = i.serial

instance (c : ConnectionId) : DecidablePred (OneAtATime c) := fun d =>
  inferInstanceAs (Decidable (∀ l ∈ d.link? c, ∀ k ∈ l.calls, ∀ i ∈ l.calls,
    k.isOpen = true → i.isOpen = true → k.serial = i.serial))

theorem call?_eq_some : d.call? c n = some k ↔ ∃ l, d.link? c = some l ∧ l.call? n = some k :=
  Option.bind_eq_some_iff

theorem serial_of_call? (hk : d.call? c n = some k) : k.serial = n := by
  obtain ⟨l, -, hk⟩ := call?_eq_some.1 hk
  exact Link.serial_of_call? hk

theorem numbered_eq (hl : d.link? c = some l) : d.numbered c = l.numbered := by
  rw [numbered, hl]
  rfl

theorem Orderly.lt_numbered (hd : d.Orderly) (hk : d.call? c n = some k) : n < d.numbered c := by
  obtain ⟨l, hl, hk⟩ := call?_eq_some.1 hk
  rw [numbered_eq hl]
  exact Link.serial_of_call? hk ▸ ((hd.sound.linked hl).1.call hk).2

theorem Orderly.call?_numbered (hd : d.Orderly) : d.call? c (d.numbered c) = none := by
  by_contra hk
  obtain ⟨k, hk⟩ := Option.ne_none_iff_exists'.1 hk
  exact Nat.lt_irrefl _ (hd.lt_numbered hk)

theorem Calm.call (hc : Calm c d) (hk : d.call? c n = some k) :
    ∃ l, d.link? c = some l ∧ l.call? n = some k ∧ Unhurt c d.hub l k := by
  obtain ⟨l, hl, hk⟩ := call?_eq_some.1 hk
  exact ⟨l, hl, hk, hc.calls l hl k (List.mem_of_find?_eq_some hk)⟩

theorem OneAtATime.call {i : Call} {s : Nat} (h : OneAtATime c d) (hk : d.call? c n = some k)
    (hi : d.call? c s = some i) (hko : k.isOpen = true) (hio : i.isOpen = true) : n = s := by
  obtain ⟨l, hl, hk⟩ := call?_eq_some.1 hk
  obtain ⟨l', hl', hi⟩ := call?_eq_some.1 hi
  obtain rfl : l = l' := Option.some.inj (hl.symm.trans hl')
  rw [← Link.serial_of_call? hk, ← Link.serial_of_call? hi]
  exact h l hl k (List.mem_of_find?_eq_some hk) i (List.mem_of_find?_eq_some hi) hko hio

namespace Same

theorem call? (hs : Same c d g) : d.call? c n = g.call? c n := by
  rw [Dispatcher.call?, hs.link, Dispatcher.call?]

theorem calm (hs : Same c d g) (hc : Calm c d) : Calm c g := by
  have hm := Hub.sessions_of_only hs.hub
  have hf : (d.hub.sessions.only c.session).failing = (g.hub.sessions.only c.session).failing :=
    congrArg Session.Manager.failing hm
  have ht : d.hub.sessions.store.only c.session = g.hub.sessions.store.only c.session :=
    congrArg Session.Manager.store hm
  refine ⟨hf.symm.trans hc.able, fun l hl k hk => ?_⟩
  obtain ⟨hmethod, hn, htimely⟩ := hc.calls l (hs.link ▸ hl) k hk
  refine ⟨hmethod, by rwa [← Hub.callToken_congr hs.hub], fun hfresh => ?_⟩
  rw [← ht, ← Hub.moment_of_only hs.hub]
  exact htimely hfresh

theorem oneAtATime (hs : Same c d g) (h : OneAtATime c d) : OneAtATime c g := by
  rw [OneAtATime, ← hs.link]
  exact h

theorem touch? (hs : Same c d g) : Dispatcher.touch? c ts d e = Dispatcher.touch? c ts g e := by
  unfold Dispatcher.touch?
  simp only [hs.call?]

theorem numbered (hs : Same c d g) : d.numbered c = g.numbered c := by
  rw [Dispatcher.numbered, hs.link, Dispatcher.numbered]

theorem wish? (hs : Same c d g) (hd : d.Orderly) (hg : g.Orderly)
    (he : e.of?.all (· = c) = true) : Dispatcher.wish? c d e = Dispatcher.wish? c g e := by
  rw [Dispatcher.wish?, (hs.happen hd hg he).call?, hs.numbered, Dispatcher.wish?]

end Same

theorem touch?_of_aside (he : ¬e.of?.all (· = c) = true) : touch? c ts d e = none := by
  obtain ⟨c', hof, hc⟩ := of?_of_aside he
  unfold touch?
  split
  · cases hof
    rw [if_neg hc]
  · rfl

theorem wish?_of_link? (hd : d.Orderly) (hl : (d.happen e).link? c = d.link? c) :
    wish? c d e = none := by
  have hcall : (d.happen e).call? c (d.numbered c) = d.call? c (d.numbered c) := by
    rw [call?, hl, call?]
  rw [wish?, hcall, hd.call?_numbered, Option.bind_none]

theorem wish?_eq_some {q : Nat × Json.Members} : wish? c d e = some q ↔
    q.1 = d.numbered c ∧ ∃ k, (d.happen e).call? c q.1 = some k ∧ k.set? = some q.2 := by
  obtain ⟨n, set⟩ := q
  simp only [wish?, Option.bind_eq_some_iff, Option.map_eq_some_iff, Prod.mk.injEq]
  constructor
  · rintro ⟨k, hk, set, hset, rfl, rfl⟩
    exact ⟨rfl, k, hk, hset⟩
  · rintro ⟨rfl, k, hk, hset⟩
    exact ⟨k, hk, set, hset, rfl, rfl⟩

/-- What holds of a connection step by step when it is alone holds of it when it is not. -/
theorem run_of_happen {P : Dispatcher → Touches → Wishes → Prop} {Q : Dispatcher → Prop}
    (hP : ∀ g ts qs, P g ts qs → g.Orderly) (hQ : ∀ d g, Same c d g → Q d → Q g)
    (hstep : ∀ g ts qs e, P g ts qs → Q g → e.of?.all (· = c) = true →
      P (g.happen e) (ts ++ (touch? c ts g e).toList) (qs ++ (wish? c g e).toList))
    (qs : Wishes) (hs : Same c d g) (hd : d.Orderly) (hg : P g ts qs) (es : List Event)
    (hq : Throughout Q d es) : ∃ g', Same c (d.run es) g' ∧
      P g' (touches c ts d es) (qs ++ wishes c d es) ∧ (d.run es).Orderly ∧ Q (d.run es) := by
  induction es generalizing d g ts qs with
  | nil => exact ⟨g, hs, by rwa [touches, wishes, List.append_nil], hd, hq⟩
  | cons e es ih =>
      obtain ⟨hq, hqs⟩ := hq
      rw [touches, wishes, ← List.append_assoc]
      have horderly := hP g ts qs hg
      by_cases he : e.of?.all (· = c) = true
      · refine ih _ (hs.happen hd horderly he) (hd.happen e) ?_ hqs
        rw [hs.touch?, hs.wish? hd horderly he]
        exact hstep g ts qs e hg (hQ d g hs hq) he
      · obtain ⟨c', hc', hc⟩ := of?_of_aside he
        have hnext := hstep g ts qs (.elapse ((d.happen e).hub.moment - d.hub.moment)) hg
          (hQ d g hs hq) rfl
        rw [wish?_of_link? horderly rfl] at hnext
        refine ih _ (hs.apart hd hc' hc) (hd.happen e) ?_ hqs
        rw [touch?_of_aside he, wish?_of_link? hd (hd.apart hc' hc).1]
        exact hnext

end Dispatcher

end Parley
