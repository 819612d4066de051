import Parley.Proofs.Dispatch.Tally

namespace Parley.Dispatch

variable {c : ConnectionId} {v w : View} {e : Deed} {m : Message} {x : Response}

def duplicateBody : ErrorBody := ⟨-32600, "duplicate request id", none⟩

/-- A pump holds an answer because it has just taken a message, or it has held it before. -/
theorem Change.replying (hc : Change c v e w) (hw : w.pump = .replying m) :
    v.pump = .replying m ∨ ∃ n, e = .take n := by
  cases hc with
  | ended | received | posted | unsent => cases hw
  | handled => exact .inr ⟨_, rfl⟩
  | _ => exact .inl hw

theorem Change.queued (hc : Change c v e w) (hr : w.responses = v.responses ++ [x]) :
    v.pump = .replying (.response x) ∨ ∃ s, e = .post (.call s) := by
  cases hc with
  | handled _ hw => cases hw <;> simp at hr
  | posted hp =>
      cases List.append_cancel_left hr
      exact .inl hp
  | @turned s j r o y hj ht =>
      cases y with
      | none => simp at hr
      | some y => exact .inr ⟨s, rfl⟩
  | _ => simp at hr

namespace Link

variable {sv : Service} {h h' : Hub} {l l' : Link} {who : Actor}

theorem HandleCourse.not_duplicate (hc : HandleCourse sv h l m h' l') (hp : l.requests = .taking)
    (hf : ∀ q, m = .request q → h.inflight.lookup l.id q.id = none) (id : RequestId) :
    l'.requests ≠ .replying (.failure id duplicateBody) := by
  cases hc with
  | unknown =>
      simp [reply, Message.failure, ErrorBody.methodNotFound, duplicateBody, Code.methodNotFound]
  | ambiguous => simp [reply, Message.failure, Link.ambiguous, duplicateBody, Code.internalError]
  | duplicate hr hb =>
      rw [InFlight.begin?_eq_none, hf _ rfl] at hb
      cases hb
  | cancelled =>
      simp [reply, Message.failure, ErrorBody.cancelled, duplicateBody, Code.requestCancelled]
  | begun | malformed | missed | unrouted | notified | response => simp [spawn, hp]

theorem handle_begin {q : Request} {handler : Handler} (ht : l.Tidy)
    (hr : sv.routes.resolve q.method = .ok handler) (hf : h.inflight.lookup l.id q.id = none) :
    ∃ k t, (handle sv h l (.request q)).2.call? l.numbered = some k ∧ k.phase = .fresh ∧
      k.ticket = some t ∧ t.id = q.id ∧ (handle sv h l (.request q)).2.id = l.id := by
  rcases hb : h.inflight.begin? l.id q.id (Hub.callToken l.id l.numbered) with _ | ⟨r, t⟩
  · rw [InFlight.begin?_eq_none, hf] at hb
    cases hb
  · obtain ⟨-, htk, -⟩ := InFlight.begin?_eq_some.1 hb
    have hnew : (l.calls.find? fun k => k.serial = l.numbered) = none := by
      simp only [List.find?_eq_none, decide_eq_true_eq]
      exact fun k hk => Nat.ne_of_lt (ht.calls k hk).2
    let k : Call :=
      { serial := l.numbered, handler, method := q.method, params := q.params, ticket := some t
        token := Hub.callToken l.id l.numbered }
    simp only [handle, handleRequest, hr, hb]
    refine ⟨k, t, ?_, rfl, rfl, by rw [htk], rfl⟩
    simp [call?, spawn, List.find?_append, hnew, k]

end Link

end Parley.Dispatch

namespace Parley.Dispatcher

open Dispatch

variable {d d' : Dispatcher} {c : ConnectionId} {l l' : Link} {a : Ledger} {t : Option Task}
  {x y z : Dispatcher × Ledger}

/-- By the step from `x` to `y` the reader reads no request whose id an earlier one has that has no
response yet. So it is if the peer waits for the response before it uses the id again, since what it
sends is read later, and what has been answered stays so. -/
def Sequential (c : ConnectionId) (x y : Dispatcher × Ledger) : Prop :=
  Audited c x y ∧ ∀ (i j : Nat) p q, i < j → (wanted x.2.read).length ≤ j →
    (wanted y.2.read)[i]? = some (.request p) → (wanted y.2.read)[j]? = some (.request q) →
      p.id = q.id → i ∈ x.2.answers

def SequentiallyReachable (c : ConnectionId) (x : Dispatcher × Ledger) : Prop :=
  ∃ service sessions, Relation.ReflTransGen (Sequential c) (serving service sessions, {}) x

theorem getElem?_of_isPrefix {α : Type} {ms ns : List α} {i : Nat} {m : α} (h : ms <+: ns)
    (hi : ms[i]? = some m) : ns[i]? = some m := by
  obtain ⟨rest, rfl⟩ := h
  rw [List.getElem?_append_left (List.getElem?_eq_some_iff.1 hi).1, hi]

theorem account_prefix (c : ConnectionId) (a : Ledger) (d d' : Dispatcher) (t : Option Task) :
    a.read <+: (account c a d d' t).read ∧ a.answers <+: (account c a d d' t).answers := by
  have hpost (who : Actor) : a.answers <+: (a.post who).answers := by
    cases who <;> simp [Ledger.post]
  cases t with
  | none => exact ⟨List.prefix_refl _, List.prefix_refl _⟩
  | some t =>
      simp only [account]
      split
      · split
        · refine ⟨List.prefix_append _ _, ?_⟩
          simp only [Ledger.observe, Ledger.record]
          split
          · exact List.prefix_refl _
          · exact List.prefix_refl _
          · exact hpost _
        · exact ⟨List.prefix_refl _, List.prefix_refl _⟩
      · exact ⟨List.prefix_refl _, List.prefix_refl _⟩

theorem Audited.grows (h : Audited c x y) : wanted x.2.read <+: wanted y.2.read ∧
    x.2.answers <+: y.2.answers := by
  obtain ⟨t, -, hy⟩ := h
  obtain ⟨hr, ha⟩ := account_prefix c x.2 x.1 y.1 t
  rw [← hy] at hr ha
  exact ⟨hr.filter _, ha⟩

theorem Runs.grows (h : Runs c x y) : wanted x.2.read <+: wanted y.2.read ∧
    x.2.answers <+: y.2.answers := by
  induction h with
  | refl => exact ⟨List.prefix_refl _, List.prefix_refl _⟩
  | tail _ h ih => exact ⟨ih.1.trans h.grows.1, ih.2.trans h.grows.2⟩

theorem Runs.sequential (h : Runs c x y)
    (hu : ∀ (i j : Nat) p q, i < j → (wanted y.2.read)[i]? = some (.request p) →
      (wanted y.2.read)[j]? = some (.request q) → p.id = q.id → i ∈ x.2.answers) :
    Relation.ReflTransGen (Sequential c) x y := by
  induction h with
  | refl => exact .refl
  | @tail y z hr hn ih =>
      refine (ih fun i j p q hij hi hj => hu i j p q hij ?_ ?_).tail ⟨hn, ?_⟩
      · exact getElem?_of_isPrefix hn.grows.1 hi
      · exact getElem?_of_isPrefix hn.grows.1 hj
      · intro i j p q hij _ hi hj hid
        exact (Runs.grows hr).2.subset (hu i j p q hij hi hj hid)

theorem SequentiallyReachable.reachable (h : SequentiallyReachable c x) : Reachable c x := by
  obtain ⟨service, sessions, h⟩ := h
  exact ⟨service, sessions, Relation.ReflTransGen.mono (fun _ _ h => h.1) _ _ h⟩

theorem SequentiallyReachable.answered (h : SequentiallyReachable c x) {i j : Nat} {p q : Request}
    (hij : i < j) (hi : (wanted x.2.read)[i]? = some (.request p))
    (hj : (wanted x.2.read)[j]? = some (.request q)) (hid : p.id = q.id) : i ∈ x.2.answers := by
  obtain ⟨service, sessions, h⟩ := h
  induction h with
  | refl => simp [wanted] at hi
  | @tail y z hy hn ih =>
      obtain ⟨hp, ha⟩ := hn.1.grows
      by_cases hlt : j < (wanted y.2.read).length
      · have hold {k : Nat} (hk : k ≤ j) : (wanted z.2.read)[k]? = (wanted y.2.read)[k]? := by
          obtain ⟨ms, hms⟩ := hp
          rw [← hms, List.getElem?_append_left (Nat.lt_of_le_of_lt hk hlt)]
        rw [hold (Nat.le_of_lt hij)] at hi
        rw [hold (Nat.le_refl _)] at hj
        exact ha.subset (ih hi hj)
      · exact ha.subset (hn.2 i j p q hij (Nat.not_lt.1 hlt) hi hj hid)

theorem SequentiallyReachable.free {q : Request} (h : SequentiallyReachable c (d, a))
    (hl : d.link? c = some l) (hm : l.inHand? = some (.request q)) :
    d.hub.inflight.lookup c q.id = none := by
  have hr := h.reachable
  have hv := (hr.accounted.sound.linked hl).2
  have ht := hr.tallied hl
  have hread := hr.inHand? hl hm
  cases hk : d.hub.inflight.lookup c q.id with
  | none => rfl
  | some t =>
      obtain ⟨hmem, htc, hid⟩ := InFlight.lookup_some hk
      obtain ⟨s, j, hj, hjt, -⟩ := hv.entry hmem htc
      obtain ⟨n, p, hn, hp⟩ := ht.known.job hj hjt
      have hlt : n < a.taken.length := (List.getElem?_eq_some_iff.1 hn).1
      -- An entry is that of an earlier request, which has its response and so no entry.
      have hans : n ∈ a.answers := by
        refine h.answered (i := n) (j := a.taken.length) (p := p) (q := q) hlt ?_ ?_ (hp.trans hid)
        · refine getElem?_of_isPrefix hread (getElem?_of_isPrefix (List.prefix_append _ _) ?_)
          rw [List.getElem?_map, hn]
          rfl
        · refine getElem?_of_isPrefix hread ?_
          simp
      exact absurd (hv.ticket hj hjt).2.1 (ht.no_entry hv hn (.inl hans) hmem htc)

theorem SequentiallyReachable.not_duplicate (h : SequentiallyReachable c x)
    (hl : x.1.link? c = some l) (id : RequestId) :
    l.requests ≠ .replying (.failure id duplicateBody) := by
  obtain ⟨service, sessions, h⟩ := h
  induction h generalizing l with
  | refl => cases hl
  | @tail y z hy hn ih =>
      have hsy : SequentiallyReachable c y := ⟨service, sessions, hy⟩
      have hd := hsy.reachable.accounted.sound
      obtain ⟨t, hn, -⟩ := hn.1
      cases hm : y.1.link? c with
      | none =>
          obtain rfl := (hn.blank hd hm).2.2 l hl
          simp [Link.attach]
      | some m =>
          obtain ⟨l', e, w, hp⟩ := hn.passes hd hm
          obtain rfl : l' = l := Option.some.inj (hp.link.symm.trans hl)
          intro hrep
          rcases hp.change.replying (hp.like.pump.symm.trans hrep) with hrep | ⟨n, rfl⟩
          · exact ih hm hrep
          · rcases hp.origin with ⟨who, -, hs, he, -⟩ | ⟨-, he, -⟩
            · obtain ⟨rfl, htk⟩ := Link.deed_eq_take he.symm
              rw [Link.step_handling _ _ htk] at hs
              refine (Link.handle_course (Option.some.inj hs)).not_duplicate rfl (fun q hq => ?_) id hrep
              subst hq
              have hi : m.id = c := id_of_link? hm
              exact hi.symm ▸ hsy.free hm htk
            · cases he

/-- If the peer uses an id again only when the request that had it before has its response, whatever
that is, then no request is refused as a duplicate, and each that has a handler is begun. The entry
of a request that has its response is out of the registry. -/
theorem ids_reusable (h : SequentiallyReachable c (d, a)) (hl : d.link? c = some l) :
    (∀ id, l.requests ≠ .replying (.failure id duplicateBody)) ∧
    (∀ who d' l' x, d.step (c, who) = some d' → d'.link? c = some l' →
      l'.responses = l.responses ++ [x] → x.outcome = .error duplicateBody → ∃ s, who = .call s) ∧
    (∀ q handler, l.inHand? = some (.request q) → d.service.routes.resolve q.method = .ok handler →
      ∃ d' l' k t, d.step (c, .requests) = some d' ∧ d'.link? c = some l' ∧
        l'.call? l.numbered = some k ∧ k.phase = .fresh ∧ k.ticket = some t ∧ t.id = q.id) ∧
    ∀ n q s, a.taken[n]? = some (.request q, some s) → n ∈ a.answers →
      ∀ t ∈ d.hub.inflight.ofConnection c, t.token ≠ Hub.callToken c s := by
  have hr := h.reachable
  have hd := hr.accounted.sound
  have hi := id_of_link? hl
  obtain ⟨htidy, hv⟩ := hd.linked hl
  refine ⟨fun id => h.not_duplicate hl id, ?_, ?_, ?_⟩
  · intro who d' l' x hs hl' hq hx
    obtain ⟨m, hm, -, hsteps⟩ := step_own hd hl hs
    obtain rfl : m = l' := Option.some.inj (hm.symm.trans hl')
    rcases hsteps.change.queued hq with hp | ⟨s, hpost⟩
    · obtain ⟨id, outcome⟩ := x
      obtain rfl : outcome = .error duplicateBody := hx
      exact absurd hp (h.not_duplicate hl id)
    · exact ⟨s, Link.deed_eq_post hpost⟩
  · intro q handler hm hroute
    have hstep := Link.step_handling d.service d.hub hm
    obtain ⟨k, t, hk, hp, ht, hid, hid'⟩ := Link.handle_begin (h := d.hub)
      (l := { l with requests := .taking }) ⟨htidy.calls, htidy.callers, by simp⟩ hroute
        (hi.symm ▸ h.free hl hm)
    exact ⟨_, _, k, t, step_of_link hl hstep, link?_put_self hl (hid'.trans hi), hk, hp, ht, hid⟩
  · intro n q s hn hans t ht
    obtain ⟨ht, htc⟩ := InFlight.mem_ofConnection.1 ht
    exact (hr.tallied hl).no_entry hv hn (.inl hans) ht htc

def resumed : Option ((Dispatcher × Ledger) × (Dispatcher × Ledger)) :=
  let request := Message.request ⟨.number 1, "work", none⟩
  let service : Service := { routes := { entries := [(.any, fun _ _ => .done .null)] } }
  let reading : List Move := [.act .reader, .act .reader, .act .reader]
  let calling : List Move := [.act (.call 0), .act (.call 0), .act (.call 0), .act (.call 0)]
  let start := ((serving service { store := { maxIdle := 0 } }).attach ⟨"c"⟩, {})
  (follow ⟨"c"⟩ (.arrive (Frame.encode request.encode) :: reading ++
    [.act .requests, .act .requests] ++ calling) start).bind fun x =>
      (follow ⟨"c"⟩ (reading ++ .arrive (Frame.encode request.encode) :: reading ++ [.act .requests])
        x).map fun y => (x, y)

theorem ids_reusable_of_resumed : ∃ d a l q, SequentiallyReachable ⟨"c"⟩ (d, a) ∧
    d.link? ⟨"c"⟩ = some l ∧ a.taken = [(.request q, some 0)] ∧ l.inHand? = some (.request q) ∧
      ∃ d' l' k t, d.step (⟨"c"⟩, .requests) = some d' ∧ d'.link? ⟨"c"⟩ = some l' ∧
        l'.call? l.numbered = some k ∧ k.phase = .fresh ∧ k.ticket = some t ∧ t.id = q.id := by
  let request : Request := ⟨.number 1, "work", none⟩
  have hs : (resumed.bind fun (x, y) => (y.1.link? ⟨"c"⟩).bind fun l =>
      (y.1.service.routes.resolve "work").toOption.map fun _ => decide
        (x.2.read = [.request request] ∧ x.2.answers = [0] ∧
          y.2.read = [.request request, .request request] ∧ y.2.taken = [(.request request, some 0)] ∧
            l.inHand? = some (.request request))) = some true := by
    decide +kernel
  obtain ⟨⟨x, y⟩, hxy, h⟩ := Option.bind_eq_some_iff.1 hs
  obtain ⟨l, hl, h⟩ := Option.bind_eq_some_iff.1 h
  obtain ⟨handler, hroute, h⟩ := Option.map_eq_some_iff.1 h
  obtain ⟨hread, hanswers, hread', htaken, hm⟩ := of_decide_eq_true h
  obtain ⟨z, hx, hz⟩ := Option.bind_eq_some_iff.1 hxy
  obtain ⟨z', hy, he⟩ := Option.map_eq_some_iff.1 hz
  cases he
  have hsx : SequentiallyReachable ⟨"c"⟩ x := by
    obtain ⟨service, sessions, hr⟩ := reachable_of_follow _ _ hx
    refine ⟨service, sessions, Runs.sequential hr fun i j p q hij _ hj _ => ?_⟩
    rw [hread] at hj
    obtain ⟨hj, -⟩ := List.getElem?_eq_some_iff.1 hj
    exact absurd hj (by simp [wanted, Message.isResponse]; omega)
  have hsy : SequentiallyReachable ⟨"c"⟩ y := by
    obtain ⟨service, sessions, hr⟩ := hsx
    refine ⟨service, sessions,
      hr.trans (Runs.sequential (follow_runs hy) fun i j p q hij _ hj _ => ?_)⟩
    rw [hread'] at hj
    obtain ⟨hj, -⟩ := List.getElem?_eq_some_iff.1 hj
    have hj : j < 2 := by simpa [wanted, Message.isResponse] using hj
    obtain rfl : i = 0 := by omega
    simp [hanswers]
  have hroute' : y.1.service.routes.resolve "work" = .ok handler := by
    cases hr : y.1.service.routes.resolve "work" with
    | error e => rw [hr] at hroute; cases hroute
    | ok g => rw [hr] at hroute; cases hroute; rfl
  exact ⟨y.1, y.2, l, request, hsy, hl, htaken, hm,
    (ids_reusable hsy hl).2.2.1 request handler hm hroute'⟩

end Parley.Dispatcher
