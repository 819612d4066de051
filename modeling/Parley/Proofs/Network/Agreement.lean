import Parley.Proofs.Dispatch.Asking
import Parley.Proofs.Dispatch.Pairing
import Parley.Proofs.Network.Transit

namespace Parley

theorem RequestId.ofJson?_toJson_some {id id' : RequestId} (h : ofJson? id.toJson = some id') :
    id' = id := by
  cases id with
  | number n =>
      simp only [toJson, ofJson?] at h
      split at h <;> cases h
      rfl
  | text s =>
      cases h
      rfl

theorem Errand.cancel_target {κ : Type} {p p' : Peer κ} {id id' : RequestId} {m : Notification}
    (hb : p.begin (.cancel id) = (p', .moved (.queueing (.notification m) none)))
    (ht : Dispatch.Link.cancelTarget? m.params = some id') : id' = id := by
  cases hb
  exact RequestId.ofJson?_toJson_some ht

namespace Dispatch

def Link.HasAnswered (l : Link) (a : Ledger) (e : RequestSpec × Awaited) (x : Response) : Prop :=
  ∃ (n : Nat) (q : Request) (o : Option Nat), a.taken[n]? = some (.request q, o) ∧
    e.1.Asks e.2 q ∧ x.id = q.id ∧ l.AnsweredWith a n x

theorem Link.HasAnswered.id_eq {l : Link} {a : Ledger} {e : RequestSpec × Awaited} {x : Response}
    (h : l.HasAnswered a e x) : e.2.id = x.id := by
  obtain ⟨_, _, _, -, ha, hid, -⟩ := h
  exact ha.id.symm.trans hid.symm

end Dispatch

namespace Dispatcher

open Dispatch

variable {d : Dispatcher} {c : ConnectionId} {l : Link} {a : Ledger}

/-- A cancellation that is handled fires nothing, or the token of the call of one request in flight.
-/
theorem fired_of_inHand {m : Notification} (hd : d.Sound) (hl : d.link? c = some l)
    (hk : (l.view d.hub).Known a) (hm : l.inHand? = some (.notification m)) : ∃ d',
    d.step (c, .requests) = some d' ∧ (d'.hub.inflight.fired = d.hub.inflight.fired ∨
      ∃ (n : Nat) (q : Request) (s : Nat) (i : Call), Link.cancelTarget? m.params = some q.id ∧
        a.taken[n]? = some (.request q, some s) ∧ l.call? s = some i ∧
          d'.hub.inflight.fired = d.hub.inflight.fired ++ [i.token.name]) := by
  have hi := id_of_link? hl
  obtain ⟨d', hstep⟩ := step_of_inHand hl hm
  obtain ⟨l', hl', -, hsteps⟩ := step_own hd hl hstep
  have hch := hsteps.change
  rw [hi, show l.deed l' .requests = .take (.notification m) by simp [Link.deed, hm]] at hch
  have hw := hch.intake
  have hv := (hd.linked hl).2
  generalize hg : l'.view d'.hub = w at hw
  generalize hv' : ({ l.view d.hub with pump := .taking } : View) = v at hw
  have hr : w.registry = d'.hub.inflight := congrArg View.registry hg.symm
  refine ⟨d', hstep, ?_⟩
  rw [← hr]
  cases hw with
  | passed | notified =>
      subst hv'
      exact .inl rfl
  | cancelled hn ht hc =>
      subst hv'
      obtain ⟨s, j, t, -, hj, hjt, -, -, rfl, rfl⟩ := hv.of_cancel hc
      obtain ⟨n, q, hn, hq⟩ := hk.job hj hjt
      obtain ⟨i, hi, rfl⟩ := call_of_job hj
      refine .inr ⟨n, q, s, i, hq ▸ ht, hn, hi, ?_⟩
      have htok : i.token = t.token := (hv.token hj).trans (hv.ticket hj hjt).2.1.symm
      rw [htok]
      rfl
  | missed hn ht hc =>
      subst hv'
      left
      rcases InFlight.cancel_eq_false hc with ⟨-, rfl⟩ | ⟨t, -, -, rfl⟩ <;> rfl

end Dispatcher

namespace Network

open Dispatch

variable {n : Network} {k : Cable} {b : Side → Books} {s : Side} {l l' : Link}

/-- The two ends of a cable agree on the requests of the connection `l`. Its books are `b`, and the
far end is `l'`, on the connection `c` of the dispatcher `d`, and has the books `b'`. -/
structure Agrees (l : Link) (b : Books) (c : ConnectionId) (d : Dispatcher) (l' : Link)
    (b' : Books) : Prop where
  counted : b.asked.map (·.2.id) = (List.range b.asked.length).map fun n => .number (n + 1 : Nat)
  /-- The requests that the far end takes are requests of this end with their methods and
  parameters, and each of them is taken once. -/
  requests : ∀ (n : Nat) (q : Request) (o : Option Nat), b'.ledger.taken[n]? = some (.request q, o) →
    (∃ e ∈ b.asked, e.1.Asks e.2 q) ∧ ∀ (m : Nat) (r : Request) (o' : Option Nat),
      b'.ledger.taken[m]? = some (.request r, o') → r.id = q.id → m = n
  /-- A response is one that the far end has queued for a request of this end, and it goes to the
  slot of that request, or to none. -/
  responses : ∀ (x : Response) (o : Option Nat), (x, o) ∈ b.docket.processed →
    ∃ e ∈ b.asked, l'.HasAnswered b'.ledger e x ∧ ∀ slot, o = some slot → e.2.slot = slot
  /-- A request that ends with a result, or with an error of the far end, ends with the outcome that
  the far end has queued for it. -/
  outcome : ∀ x ∈ b.docket.ended, (∃ v, x.outcome = .ok v) ∨ (∃ e, x.outcome = .error (.remote e)) →
    ∃ (spec : RequestSpec) (r : Response), (spec, x.request) ∈ b.asked ∧
      l'.HasAnswered b'.ledger (spec, x.request) r ∧ x.outcome = r.outcome.mapError .remote
  /-- When the far end handles the cancellation of a request of this end, nothing is fired, or the
  token of the call that the message of that request has started. -/
  cancel : ∀ e ∈ b.asked, ∀ (p : Peer Actor) (m : Notification),
    l.desk.peer.begin (.cancel e.2.id) = (p, .moved (.queueing (.notification m) none)) →
    l'.inHand? = some (.notification m) → ∃ d', d.step (c, .requests) = some d' ∧
      (d'.hub.inflight.fired = d.hub.inflight.fired ∨
        ∃ (n : Nat) (q : Request) (serial : Nat) (i : Call), e.1.Asks e.2 q ∧
          b'.ledger.taken[n]? = some (.request q, some serial) ∧ l'.call? serial = some i ∧
            d'.hub.inflight.fired = d.hub.inflight.fired ++ [i.token.name])

theorem index_eq_of_nodup {α β : Type} {f : α → Option β} {xs : List α}
    (h : (xs.filterMap f).Nodup) {i j : Nat} {x y : α} {z : β} (hi : xs[i]? = some x)
    (hj : xs[j]? = some y) (hx : f x = some z) (hy : f y = some z) : i = j := by
  obtain ⟨hil, rfl⟩ := List.getElem?_eq_some_iff.1 hi
  obtain ⟨hjl, rfl⟩ := List.getElem?_eq_some_iff.1 hj
  rw [List.Nodup, List.pairwise_filterMap, List.pairwise_iff_getElem] at h
  by_contra hne
  rcases Nat.lt_or_gt_of_ne hne with hlt | hlt
  · exact h i j hil hjl hlt z hx z hy rfl
  · exact h j i hjl hil hlt z hy z hx rfl

theorem fetched_prefix_items (l : Link) : l.fetched <+: l.desk.peer.outbound.items :=
  List.prefix_append _ _

theorem taken_requests {asked : List (RequestSpec × Awaited)} {a : Ledger} (ha : l.Asking asked)
    (hr : a.read <+: l.fetched) (ht : a.taken.map (·.1) <+: wanted a.read) {i : Nat} {q : Request}
    {o : Option Nat} (hi : a.taken[i]? = some (.request q, o)) :
    (∃ e ∈ asked, e.1.Asks e.2 q) ∧ ∀ (j : Nat) (r : Request) (o' : Option Nat),
      a.taken[j]? = some (.request r, o') → r.id = q.id → j = i := by
  have hsub : (a.taken.map (·.1)).Sublist l.desk.peer.outbound.items :=
    ht.sublist.trans (List.filter_sublist.trans (hr.trans (fetched_prefix_items l)).sublist)
  constructor
  · refine ha.sent (List.mem_filterMap.2 ⟨.request q, hsub.subset ?_, rfl⟩)
    exact List.mem_map.2 ⟨_, List.mem_of_getElem? hi, rfl⟩
  · intro j r o' hj hid
    have hnd : ((a.taken.map (·.1)).filterMap fun m => m.request?.map (·.id)).Nodup := by
      have h := ha.once
      rw [Peer.requests, List.map_filterMap] at h
      exact h.sublist (hsub.filterMap _)
    refine index_eq_of_nodup hnd (x := .request r) (y := .request q) (z := q.id) ?_ ?_ ?_ rfl
    · rw [List.getElem?_map, hj]
      rfl
    · rw [List.getElem?_map, hi]
      rfl
    · exact congrArg some hid

theorem answer_of_processed {asked : List (RequestSpec × Awaited)} {a : Ledger} {x : Response}
    (hp : (l'.view h).Paired a) (hr : Message.response x ∈ l'.fetched)
    (hreq : ∀ (n : Nat) (q : Request) (o : Option Nat), a.taken[n]? = some (.request q, o) →
      ∃ e ∈ asked, e.1.Asks e.2 q) : ∃ e ∈ asked, l'.HasAnswered a e x := by
  have hm : x ∈ l'.responses :=
    List.mem_filterMap.2 ⟨_, (fetched_prefix_items l').subset hr, rfl⟩
  obtain ⟨i, hi⟩ := List.mem_iff_getElem?.1 hm
  obtain ⟨n, hn, q, o, hq, hid⟩ := forall₂_getElem? hp.answers hi
  obtain ⟨e, he, ha⟩ := hreq n q o hq
  exact ⟨e, he, n, q, o, hq, ha, hid, Link.answeredWith hp.nodup hn hi⟩

/-- A result that is read, or an error of the other side, is the content of the response. -/
theorem outcome_of_conclude {a : Awaited} {x : Response} {o : Except ExchangeError Json}
    (h : o = Peer.conclude a x) (ho : (∃ v, o = .ok v) ∨ ∃ e, o = .error (.remote e)) :
    o = x.outcome.mapError .remote := by
  rw [Peer.conclude] at h
  split at h
  · next v hv =>
    rw [hv, h]
    rw [ResultShape.read] at h ⊢
    split
    · rfl
    · next hn =>
      rw [if_neg hn] at h
      subst h
      simp at ho
  · next e he =>
    rw [he, h]
    rfl

/-- Two dispatchers whose connections are joined by a cable agree on the requests of both
directions, however the steps of their tasks, the time, and what is asked for and given up are
interleaved. All requests on the cable get their ids from their connections, and what is written at
one end can be read at the other one. That includes the ids, so these are 64-bit numbers. -/
theorem peers_agree (h : Reachable k (n, b)) (hk : k ∈ n.cables)
    (ha : ∀ s, Dispatcher.Booked.Automatic (b s).asked)
    (hx : ∀ s l, (n.side s).link? (k.side s) = some l → ∀ m ∈ l.fetched,
      Crosses (n.side s).service (n.side s.other).service m) (s : Side) :
    ∃ l l', (n.side s).link? (k.side s) = some l ∧
      (n.side s.other).link? (k.side s.other) = some l' ∧
        Agrees l (b s) (k.side s.other) (n.side s.other) l' (b s.other) := by
  obtain ⟨l, hl⟩ := Dispatcher.mem_ids.1 (h.wired.there k hk s)
  obtain ⟨l', hl'⟩ := Dispatcher.mem_ids.1 (h.wired.there k hk s.other)
  have hb := h.booked s
  have hb' := h.booked s.other
  have hasking : l.Asking (b s).asked := hb.asking hl (ha s)
  have hthere : (b s.other).ledger.read <+: l.fetched := h.read s hk hl hl' (hx s l hl)
  have hback : (b s).ledger.read <+: l'.fetched := by
    have hl₂ : (n.side s.other.other).link? (k.side s.other.other) = some l := by
      rwa [Side.other_other]
    have hr := h.read s.other hk hl' hl₂ (hx s.other l' hl')
    rwa [Side.other_other] at hr
  have hreq {i : Nat} {q : Request} {o : Option Nat} :=
    taken_requests (i := i) (q := q) (o := o) hasking hthere
      ((List.prefix_append _ _).trans (hb'.audited.in_order hl'))
  have hpaired := hb'.audited.paired hl'
  have herrands := hb.docketed.sound.errands hl
  have hreg : (b s).docket.registered = (b s).asked.map (·.2) := hb.registered hl
  have hresponses (x : Response) (o : Option Nat) (hx : (x, o) ∈ (b s).docket.processed) :
      ∃ e ∈ (b s).asked, l'.HasAnswered (b s.other).ledger e x :=
    answer_of_processed hpaired (hback.subset (hb.mem_read hl hx)) fun i q o hi => (hreq hi).1
  refine ⟨l, l', hl, hl', ?_⟩
  constructor
  case counted => exact hasking.counted
  case requests => exact fun i q o => hreq
  case responses =>
    intro x o hx
    obtain ⟨e, he, hans⟩ := hresponses x o hx
    refine ⟨e, he, hans, ?_⟩
    rintro slot rfl
    obtain ⟨⟨a, ha, hid, rfl⟩, -⟩ := herrands.posted.processed hx
    rw [hreg] at ha
    obtain ⟨e', he', rfl⟩ := List.mem_map.1 ha
    rw [hasking.eq he he' (hans.id_eq.trans hid.symm)]
  case outcome =>
    intro x hx ho
    obtain ⟨r, hr, hid, hout⟩ := herrands.source hx ho
    obtain ⟨e, he, hans⟩ := hresponses r _ hr
    have hmem := (herrands.finished.past hx).1
    rw [hreg] at hmem
    obtain ⟨⟨spec, a⟩, he', rfl⟩ := List.mem_map.1 hmem
    obtain rfl := hasking.eq he he' (hans.id_eq.trans hid)
    exact ⟨spec, r, he, hans, outcome_of_conclude hout ho⟩
  case cancel =>
    intro e he p m hbegin hm
    obtain ⟨d', hstep, hf⟩ :=
      Dispatcher.fired_of_inHand hb'.sound hl' (hb'.audited.tallied hl').known hm
    refine ⟨d', hstep, hf.imp_right ?_⟩
    rintro ⟨i, q, serial, call, ht, hi, hcall, hfired⟩
    obtain ⟨⟨e', he', hasks⟩, -⟩ := hreq hi
    have hid : e'.2.id = e.2.id := hasks.id.symm.trans (Errand.cancel_target hbegin ht)
    obtain rfl := hasking.eq he' he hid
    exact ⟨i, q, serial, call, hasks, hi, hcall, hfired⟩

inductive Move
  | send (s : Side) (errand : Errand)
  | act (s : Side) (who : Actor)

def follow (k : Cable) :
    List Move → Network × (Side → Books) → Option (Network × (Side → Books))
  | [], x => some x
  | .send s errand :: ms, (n, b) => do
    let (n, _) ← n.send s (k.side s) errand
    follow k ms (n, b)
  | .act s who :: ms, (n, b) => do
    let n' ← n.step (s, k.side s, who)
    follow k ms (n', books k b n (some (s, k.side s, who)))

theorem untouched_send {c : ConnectionId} {errand : Errand} {d : Dispatcher} {number : Nat}
    (h : (n.side s).send c errand = some (d, number)) : n.Untouched s d := by
  intro k hk l l' hl hl'
  obtain ⟨m, hm, rfl, -⟩ := Dispatcher.send_eq_some h
  have hm' : m.id = c := Dispatcher.id_of_link? hm
  have hid : (m.send errand).1.id = c := hm'
  rw [Dispatcher.link?_put] at hl'
  split at hl'
  · next hc =>
    obtain rfl : l = m := by
      rw [hc, hid, hm] at hl
      exact (Option.some.inj hl).symm
    rw [hl] at hl'
    cases hl'
    exact ⟨rfl, rfl, rfl⟩
  · cases hl.symm.trans hl'
    exact ⟨rfl, rfl, rfl⟩

theorem follow_steps {ms : List Move} {x y : Network × (Side → Books)}
    (h : follow k ms x = some y) : Relation.ReflTransGen (Step k) x y := by
  induction ms generalizing x with
  | nil =>
      cases h
      exact .refl
  | cons m ms ih =>
      obtain ⟨n, b⟩ := x
      cases m with
      | send s errand =>
          simp only [follow, Option.bind_eq_bind, Option.bind_eq_some_iff, Network.send,
            Option.map_eq_some_iff] at h
          obtain ⟨⟨n', number⟩, ⟨⟨d, number'⟩, hd, he⟩, h⟩ := h
          cases he
          have hn : Next n none (n.put d s) := .aside (.send hd) (untouched_send hd)
          have hs : Step k (n, b) (n.put d s, b) := ⟨none, hn, rfl⟩
          exact .head hs (ih h)
      | act s who =>
          simp only [follow, Option.bind_eq_bind, Option.bind_eq_some_iff] at h
          obtain ⟨n', hn, h⟩ := h
          have hs : Step k (n, b) (n', books k b n (some (s, k.side s, who))) :=
            ⟨_, .step hn, rfl⟩
          exact .head hs (ih h)

theorem Reachable.trans {x y : Network × (Side → Books)} (hx : Reachable k x)
    (h : Relation.ReflTransGen (Step k) x y) : Reachable k y := by
  obtain ⟨near, far, hrun⟩ := hx
  exact ⟨near, far, hrun.trans h⟩

theorem service_of_steps {x y : Network × (Side → Books)} (h : Relation.ReflTransGen (Step k) x y)
    (s : Side) : (y.1.side s).service = (x.1.side s).service := by
  induction h with
  | refl => rfl
  | tail _ h ih =>
      obtain ⟨t, hn, -⟩ := h
      exact (hn.service s).trans ih

def askingBack : Network :=
  let side (handler : Handler) : Dispatcher :=
    .serving { routes := { entries := [(.any, handler)] } } { store := { maxIdle := 0 } }
  { near := side fun _ _ => .done (.bool true)
    far := side fun _ _ => .send (.request { method := "b" }) fun _ => .done (.str "x") }

def cable : Cable := ⟨⟨"n"⟩, ⟨"f"⟩⟩

def crossing (s : Side) : List Move := .act s .writer :: List.replicate 6 (.act s.other .reader)

def roundTrip : List Move :=
  [.send .near (.request { method := "a" }), .act .near (.caller 0), .act .near (.caller 0)] ++
    crossing .near ++ List.replicate 2 (.act .far .requests) ++
    List.replicate 4 (.act .far (.call 0)) ++ crossing .far ++
    List.replicate 2 (.act .near .requests) ++ List.replicate 4 (.act .near (.call 1)) ++
    crossing .near ++ .act .far .responses :: List.replicate 4 (.act .far (.call 0)) ++
    crossing .far ++ [.act .near .responses, .act .near (.caller 0)]

def cancellation : List Move :=
  [.send .near (.request { method := "a" }), .act .near (.caller 2), .act .near (.caller 2)] ++
    crossing .near ++ List.replicate 2 (.act .far .requests) ++
    [.send .near (.cancel (.number 2)), .act .near (.caller 3), .act .near (.caller 3)] ++
    crossing .near ++ [.act .far .requests]

theorem askingBack_joined : Reachable cable (askingBack.join cable, fun _ => {}) :=
  ⟨(askingBack.near.service, { store := { maxIdle := 0 } }),
    (askingBack.far.service, { store := { maxIdle := 0 } }),
    .single ⟨none, .join rfl rfl, rfl⟩⟩

def IsUsual (sv : Service) : Prop := sv.codec = {} ∧ sv.limits = {}

theorem askingBack_usual {y : Network × (Side → Books)}
    (h : Relation.ReflTransGen (Step cable) (askingBack.join cable, fun _ => {}) y) (s : Side) :
    IsUsual (y.1.side s).service := by
  rw [service_of_steps h]
  cases s <;> exact ⟨rfl, rfl⟩

theorem crosses_of_usual {sv sv' : Service} {m : Message} (hs : IsUsual sv) (hs' : IsUsual sv')
    (hp : m.Plain) (hn : m.detail? ≠ some .null) (hd : m.toJson.depth ≤ Json.maxDepth)
    (hlen : m.encode.length ≤ ({} : Frame.Limits).frame) : Crosses sv sv' m := by
  refine crosses_of_plain hs.1 hs'.1 hp hn hd ?_
  rw [hs'.2]
  exact ⟨by decide, by decide, by simpa using hlen⟩

theorem peers_agree_of_roundTrip : ∃ n b l l', Reachable cable (n, b) ∧
    (n.side .near).link? ⟨"n"⟩ = some l ∧ (n.side .far).link? ⟨"f"⟩ = some l' ∧
      (b .near).asked.map (·.2.id) = [.number 1, .number 2] ∧
        (b .far).asked.map (·.2.id) = [.number 1] ∧
          (b .near).docket.ended.map (·.outcome) = [.ok (.str "x")] ∧
            (b .far).docket.ended.map (·.outcome) = [.ok (.bool true)] ∧
              l'.inHand? = some (.notification ⟨Message.cancelMethod, some (.obj [("id", .int 2)])⟩) ∧
                Agrees l (b .near) ⟨"f"⟩ (n.side .far) l' (b .far) := by
  let cancel : Message := .notification ⟨Message.cancelMethod, some (.obj [("id", .int 2)])⟩
  have hs : ((follow cable (roundTrip ++ cancellation) (askingBack.join cable, fun _ => {})).bind
      fun x => ((x.1.side .near).link? ⟨"n"⟩).bind fun l => ((x.1.side .far).link? ⟨"f"⟩).map fun l' =>
        decide (x.1.cables = [cable] ∧
          l.fetched = [.request ⟨.number 1, "a", none⟩, .success (.number 1) (.bool true),
            .request ⟨.number 2, "a", none⟩, cancel] ∧
          l'.fetched = [.request ⟨.number 1, "b", none⟩, .success (.number 1) (.str "x")] ∧
          (∀ e ∈ (x.2 .near).asked, e.1.id = none) ∧ (∀ e ∈ (x.2 .far).asked, e.1.id = none) ∧
          (x.2 .near).asked.map (·.2.id) = [.number 1, .number 2] ∧
          (x.2 .far).asked.map (·.2.id) = [.number 1] ∧
          (x.2 .near).docket.ended.map (·.outcome) = [.ok (.str "x")] ∧
          (x.2 .far).docket.ended.map (·.outcome) = [.ok (.bool true)] ∧
          l'.inHand? = some cancel)) = some true := by
    decide +kernel
  obtain ⟨⟨n, b⟩, hf, h⟩ := Option.bind_eq_some_iff.1 hs
  obtain ⟨l, hl, h⟩ := Option.bind_eq_some_iff.1 h
  obtain ⟨l', hl', h⟩ := Option.map_eq_some_iff.1 h
  obtain ⟨hc, hsent, hsent', ha, ha', hid, hid', ho, ho', ht⟩ := of_decide_eq_true h
  have hsteps := follow_steps hf
  have hr : Reachable cable (n, b) := askingBack_joined.trans hsteps
  have hk : cable ∈ n.cables := by
    rw [show n.cables = [cable] from hc]
    exact List.mem_singleton_self cable
  have hcross (s : Side) {m : Message} := crosses_of_usual (m := m) (askingBack_usual hsteps s)
    (askingBack_usual hsteps s.other)
  have hcancel : cancel.Plain := by
    rintro _ ⟨⟩
    exact .obj (by simp [Json.Ascending]) (by simpa using .int (by decide) (by decide))
  have hx (s : Side) (m : Link) (hm : (n.side s).link? (cable.side s) = some m) (x : Message)
      (hx : x ∈ m.fetched) : Crosses (n.side s).service (n.side s.other).service x := by
    cases s with
    | near =>
        cases hm.symm.trans hl
        rw [hsent] at hx
        simp only [List.mem_cons, List.not_mem_nil, or_false] at hx
        rcases hx with rfl | rfl | rfl | rfl
        · exact hcross .near ⟨rfl, by simp⟩ (by decide) (by decide) (by decide +kernel)
        · exact hcross .near ⟨rfl, .bool true⟩ (by decide) (by decide) (by decide +kernel)
        · exact hcross .near ⟨rfl, by simp⟩ (by decide) (by decide) (by decide +kernel)
        · exact hcross .near hcancel (by decide) (by decide) (by decide +kernel)
    | far =>
        cases hm.symm.trans hl'
        rw [hsent', List.mem_pair] at hx
        rcases hx with rfl | rfl
        · exact hcross .far ⟨rfl, by simp⟩ (by decide) (by decide) (by decide +kernel)
        · exact hcross .far ⟨rfl, .str "x"⟩ (by decide) (by decide) (by decide +kernel)
  obtain ⟨m, m', hm, hm', hagree⟩ := peers_agree hr hk (fun s => by cases s <;> assumption) hx .near
  cases hm.symm.trans hl
  cases hm'.symm.trans hl'
  exact ⟨n, b, l, l', hr, hl, hl', hid, hid', ho, ho', ht, hagree⟩

end Network

end Parley
