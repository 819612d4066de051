import Parley.Proofs.Dispatch.Endurance

namespace Parley.Dispatcher

open Dispatch

variable {d g : Dispatcher} {c : ConnectionId} {l : Link} {x : Chronicle} {s : Nat} {k : Call}
  {b : ErrorBody}

theorem custom_queued {i n : Nat} {q : Request} {y : Response} (h : Chronicled.Reachable c (d, x))
    (hl : d.link? c = some l) (hi : x.ledger.answers[i]? = some n) (hy : l.responses[i]? = some y)
    (hn : x.ledger.taken[n]? = some (.request q, some s))
    (hc : .claimed (.error (.custom b)) ∈ x.diary s)
    (hv : ∀ v, .hooked v ∈ x.diary s → v.result.2 = .ok ()) : y = ⟨q.id, .error b⟩ := by
  have hx := h.holds hl
  obtain ⟨⟨who, z⟩, hp, q', o, hn', hid, hs⟩ := forall₂_getElem? hx.sourced.posts.flip hi
  cases hn.symm.trans hn'
  obtain rfl : z = y := by
    rw [← hx.posts, List.getElem?_map, hp] at hy
    exact Option.some.inj hy
  cases who with
  | call s' =>
      obtain ⟨ho, hq⟩ := hs
      obtain rfl := Option.some.inj ho
      obtain ⟨r, outcome, vs, he, hsv⟩ := (hx.recorded.told s).queued hq
      rw [he] at hc hv
      obtain rfl : Except.error (.custom b) = outcome := by simpa [record] using hc
      have hout := hsv.kept fun v hmem => hv v (by simp [record, hmem])
      obtain ⟨id, out⟩ := z
      cases hid
      cases hout
      rfl
  | requests =>
      obtain ⟨a, ha⟩ := (hs s rfl).2 _ hc
      cases ha
  | _ => exact hs.elim

theorem step_call {h' : Hub} {p' : Peer Actor} {k' : Option Call} (hd : d.Sound)
    (hl : d.link? c = some l) (hk : l.call? s = some k)
    (hs : k.step d.service d.hub l.desk.peer l.id = some (h', p', k')) :
    ∃ d' l', d.step (c, .call s) = some d' ∧ d'.link? c = some l' ∧ l'.call? s = k' ∧
      l'.desk.peer = p' := by
  have hn : k.serial = s := Link.serial_of_call? hk
  have hi : l.id = c := id_of_link? hl
  have hstep : l.step d.service d.hub (.call s) =
      some (h', { l.setPeer p' with calls := Link.replaced l.calls s k' }) := by
    simp only [Link.call?] at hk
    simp only [Link.step, Link.stepCall, hk, hs, Option.bind_eq_bind, Option.bind_some]
    cases k' <;> rfl
  obtain ⟨-, -, -, -, hkept⟩ :=
    Call.step_turn ((hd.linked hl).1.call hk).1 hs
  refine ⟨_, _, step_of_link hl hstep, link?_put_self hl hi, ?_, rfl⟩
  exact (Link.find?_replaced (by rw [← Link.call?, hk]; rfl)
    fun i hi => (hkept i hi).1.trans hn).trans (if_pos rfl)

theorem step_custom {t : Ticket TokenName} (hd : d.Sound) (hl : d.link? c = some l)
    (hk : l.call? s = some k) (ht : k.ticket = some t)
    (hp : k.phase = .concluded (.error (.custom b))) :
    ∃ d' l', d.step (c, .call s) = some d' ∧ d'.link? c = some l' ∧
      ((Call.saveAll d.hub k.commit.hooks).2 = .ok () →
        l'.call? s = some { k with phase := .replying (.response ⟨t.id, .error b⟩) }) := by
  have hstep : k.step d.service d.hub l.desk.peer l.id =
      some ((k.settle d.hub l.id (.error (.custom b))).1, l.desk.peer,
        (k.settle d.hub l.id (.error (.custom b))).2) := by
    simp only [Call.step, hp]
  obtain ⟨d', l', hd', hl', hk', -⟩ := step_call hd hl hk hstep
  refine ⟨d', l', hd', hl', fun hsaved => hk'.trans ?_⟩
  rw [← Flow.Commit.hooks_start] at hsaved
  rcases hg : Call.saveAll d.hub k.commit.start.1.hooks with ⟨g, e | _⟩
  · rw [hg] at hsaved
    cases hsaved
  · simp only [Call.settle, ht, hg]
    rfl

theorem step_replying_call {m : Message} (hd : d.Sound) (hl : d.link? c = some l)
    (hk : l.call? s = some k) (hp : k.phase = .replying m)
    (hs : l.desk.peer.outbound.shut = false)
    (hr : l.desk.peer.outbound.place (.call s) < l.desk.peer.outbound.room) :
    ∃ d' l', d.step (c, .call s) = some d' ∧ d'.link? c = some l' ∧
      l'.desk.peer.outbound.items = l.desk.peer.outbound.items ++ [m] := by
  have hn : k.serial = s := Link.serial_of_call? hk
  have ha := Flow.Channel.offer_accepted m hs hr
  have hitems := Flow.Channel.items_offer l.desk.peer.outbound (.call s) m
  rw [if_pos ha] at hitems
  rcases ho : l.desk.peer.outbound.offer (.call s) m with ⟨outbound, answer⟩
  rw [ho] at ha hitems
  obtain rfl : answer = .accepted := ha
  have hstep : k.step d.service d.hub l.desk.peer l.id =
      some (d.hub, { l.desk.peer with outbound }, none) := by
    simp only [Call.step, hp, hn, ho]
  obtain ⟨d', l', hd', hl', -, hpeer⟩ := step_call hd hl hk hstep
  exact ⟨d', l', hd', hl', by rw [hpeer]; exact hitems⟩

theorem Next.call_kept {d' : Dispatcher} {t : Option Task} (hn : Next d t d') (hd : d.Sound)
    (hl : d.link? c = some l) (hk : l.call? s = some k) (ht : t ≠ some (c, .call s)) :
    ∃ l', d'.link? c = some l' ∧ l'.call? s = some k := by
  obtain ⟨l', hl', ⟨who, rfl, hs⟩ | ⟨-, ha⟩⟩ := hn.own_or_aside hd hl <;> refine ⟨l', hl', ?_⟩
  · by_cases hw : ∃ n, who = .call n
    · obtain ⟨n, rfl⟩ := hw
      obtain ⟨_, _, _, -, -, -, -, -, -, hcall⟩ := Link.stepCall_eq_some (hd.linked hl).1 hs
      rw [hcall, if_neg fun he => ht (by rw [he]), hk]
    · rcases Link.calls_step (fun n hn => hw ⟨n, hn⟩) hs with hc | ⟨i, -, -, -, hc⟩
      · rw [Link.call?, hc]
        exact hk
      · rw [Link.call?, hc, List.find?_append, ← Link.call?, hk]
        rfl
  · cases ha with
    | same | send | abort => exact hk
    | outside h =>
        obtain ⟨_, _, _, _, rfl⟩ := h
        exact hk

def queued (d : Dispatcher) (c : ConnectionId) : Option (List Message) :=
  (d.link? c).map fun l => l.desk.peer.outbound.items

theorem queued_masked (d : Dispatcher) (c : ConnectionId) : d.masked.queued c = d.queued c := by
  rw [queued, link?_masked, Option.map_map]
  rfl

theorem queued_eq (hm : d.masked = g.masked) (c : ConnectionId) : d.queued c = g.queued c := by
  rw [← queued_masked, hm, queued_masked]

/-- A custom failure is not hidden, on a connection of which the chronicle `x` has been kept. -/
structure Candid (c : ConnectionId) (d : Dispatcher) (l : Link) (x : Chronicle) : Prop where
  /-- The response to a request for which a custom failure has been claimed and no hook has
  failed. -/
  answered : ∀ {i n s : Nat} {q : Request} {y : Response} {b : ErrorBody},
    x.ledger.answers[i]? = some n → l.responses[i]? = some y →
    x.ledger.taken[n]? = some (.request q, some s) →
    .claimed (.error (.custom b)) ∈ x.diary s →
    (∀ v, .hooked v ∈ x.diary s → v.result.2 = .ok ()) → y = ⟨q.id, .error b⟩
  /-- Nothing but its own steps takes from a call what it has come to. -/
  kept : ∀ {s : Nat} {k : Call} {t : Option Task} {d' : Dispatcher}, l.call? s = some k →
    Next d t d' → t ≠ some (c, .call s) → ∃ l', d'.link? c = some l' ∧ l'.call? s = some k
  /-- A call that has claimed a custom failure runs its hooks, and is about to queue the failure
  once they have succeeded. -/
  claimed : ∀ {s : Nat} {k : Call} {t : Ticket TokenName} {b : ErrorBody}, l.call? s = some k →
    k.ticket = some t → k.phase = .concluded (.error (.custom b)) →
    ∃ d' l', d.step (c, .call s) = some d' ∧ d'.link? c = some l' ∧
      ((Call.saveAll d.hub k.commit.hooks).2 = .ok () →
        l'.call? s = some { k with phase := .replying (.response ⟨t.id, .error b⟩) })
  /-- What a call is about to queue is queued as soon as there is room for it. -/
  replying : ∀ {s : Nat} {k : Call} {m : Message}, l.call? s = some k → k.phase = .replying m →
    l.desk.peer.outbound.shut = false →
    l.desk.peer.outbound.place (.call s) < l.desk.peer.outbound.room →
    ∃ d' l', d.step (c, .call s) = some d' ∧ d'.link? c = some l' ∧
      l'.desk.peer.outbound.items = l.desk.peer.outbound.items ++ [m]

/-- Two dispatchers that differ only in failures of their handlers and of their stores, other than
custom ones, take the same steps and queue the same messages, whatever happens to both. A custom
failure is queued as it is. -/
theorem failures_hidden :
    (∀ {d g : Dispatcher} {xs ys : List (Event × Recast)}, d.masked = g.masked →
      xs.map Prod.fst = ys.map Prod.fst → (∀ x ∈ xs, x.1.IsBlind) →
      (∀ c, (d.endure xs).queued c = (g.endure ys).queued c) ∧
        ∀ t, ((d.endure xs).step t).isSome = ((g.endure ys).step t).isSome) ∧
    ∀ {c : ConnectionId} {d : Dispatcher} {l : Link} {x : Chronicle},
      Chronicled.Reachable c (d, x) → d.link? c = some l → Candid c d l x := by
  constructor
  · intro d g xs ys hm hxy hb
    have hend := endure_masked hm hxy hb
    refine ⟨queued_eq hend, fun t => ?_⟩
    have hs := step_masked hend t
    generalize (d.endure xs).step t = x at hs
    generalize (g.endure ys).step t = y at hs
    cases hs <;> rfl
  · intro c d l x h hl
    exact ⟨custom_queued h hl, fun hk hn ht => hn.call_kept h.sound hl hk ht,
      step_custom h.sound hl, step_replying_call h.sound hl⟩

def Recast.refusing (text : String) : Recast where
  change d := { d with hub := { d.hub with
    sessions := { d.hub.sessions with refusal := fun _ => .store text } } }
  masked _ := rfl

def sent (bytes : Bytes) : Outer where
  change l := l.receive bytes
  outside _ := ⟨_, _, _, _, rfl⟩

theorem blind_sent (bytes : Bytes) : (sent bytes).IsBlind := fun _ _ => rfl

def attended : List Event :=
  [.fail [.save], .attach ⟨"c"⟩, .outside ⟨"c"⟩ (sent petition)] ++ turns.map (.step ⟨"c"⟩)

theorem blind_attended : ∀ e ∈ attended, e.IsBlind := by
  intro e he
  rcases List.mem_append.1 he with he | he
  · simp only [List.mem_cons, List.not_mem_nil, or_false] at he
    obtain rfl | rfl | rfl := he
    · trivial
    · trivial
    · exact blind_sent petition
  · obtain ⟨who, -, rfl⟩ := List.mem_map.1 he
    trivial

/-- A handler fails, or panics, and its session cannot be saved for one reason or another. -/
theorem failures_hidden_of_panic :
    let xs := attended.map (·, Recast.refusing "disk full")
    let ys := attended.map (·, Recast.refusing "no such disk")
    let d := serving (starting (.finish (.error (.internal "secret")))) { store := { maxIdle := 9 } }
    let g := serving (starting (.panic (some "oops"))) { store := { maxIdle := 9 } }
    (d.endure xs).queued ⟨"c"⟩ = some [.failure (.number 1) .internal] ∧
      (g.endure ys).queued ⟨"c"⟩ = (d.endure xs).queued ⟨"c"⟩ ∧
      ∃ x l f, l.responses = [⟨.number 1, .error ⟨4, "not today", none⟩⟩] ∧
        Candid ⟨"c"⟩ f l x := by
  intro xs ys d g
  have hm : g.masked = d.masked := by
    simp only [d, g, masked, serving, starting, Service.masked, Route.Table.map]
    rfl
  have hxy : ys.map Prod.fst = xs.map Prod.fst := by
    simp only [xs, ys, List.map_map, Function.comp_def]
  have hb : ∀ y ∈ ys, y.1.IsBlind := fun y hy => by
    obtain ⟨e, he, rfl⟩ := List.mem_map.1 hy
    exact blind_attended e he
  refine ⟨by decide +kernel, (failures_hidden.1 hm hxy hb).1 _, ?_⟩
  have hs : ((saving (.finish (.error (.custom ⟨4, "not today", none⟩)))).bind fun y =>
      (y.1.link? ⟨"c"⟩).map Link.responses) =
      some [⟨.number 1, .error ⟨4, "not today", none⟩⟩] := by
    decide +kernel
  obtain ⟨⟨f, x⟩, hy, h⟩ := Option.bind_eq_some_iff.1 hs
  obtain ⟨l, hl, hr⟩ := Option.map_eq_some_iff.1 h
  exact ⟨x, l, f, hr, failures_hidden.2 (Chronicled.reachable_of_follow hy) hl⟩

end Parley.Dispatcher
