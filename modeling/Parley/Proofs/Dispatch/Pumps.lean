import Parley.Proofs.Dispatch.Drain

namespace Parley

open Dispatch

namespace Dispatch.Link

variable {sv : Service} {h h' : Hub} {l l' : Link} {who : Actor} {a : Ledger} {pump id : Nat}

/-- What a pump has been given: what it has received, and what is in its queue. -/
def given (l : Link) (pump : Nat) : List Message :=
  (l.fanout.subscriber? pump).elim [] (·.queue.items)

theorem given_mono (hs : ∀ s, l.fanout.subscriber? pump = some s → ∃ t,
    l'.fanout.subscriber? pump = some t ∧ s.queue.items <+: t.queue.items) :
    l.given pump <+: l'.given pump := by
  rw [given, given]
  cases hl : l.fanout.subscriber? pump with
  | none => exact List.nil_prefix
  | some s =>
      obtain ⟨t, ht, hi⟩ := hs s hl
      rw [ht]
      exact hi

theorem given_map {k : Flow.Subscriber Message → Flow.Subscriber Message}
    (hk : l'.fanout.subscribers = l.fanout.subscribers.map k)
    (hi : ∀ s, (k s).queue.items = s.queue.items) : l.given pump <+: l'.given pump :=
  given_mono fun s hs =>
    ⟨k s, by rw [Flow.Fanout.subscriber?_map hk, hs]; rfl, hi s ▸ List.prefix_refl _⟩

theorem given_receive {f : Flow.Fanout Message} {x : Flow.Fanout.Received Message}
    (hx : l.fanout.receive id = (f, x)) (hf : l'.fanout = f) : l.given pump <+: l'.given pump := by
  refine given_mono fun s hs => ?_
  obtain ⟨t, ht, -, hi, -⟩ := receive_taken hx hs
  exact ⟨t, hf ▸ ht, hi ▸ List.prefix_refl _⟩

theorem given_idle (hf : l'.fanout = l.fanout) : l.given pump <+: l'.given pump := by
  have he : l'.given pump = l.given pump := by rw [given, given, hf]
  exact he ▸ List.prefix_refl _

theorem stepReader_given (hs : stepReader sv h l = some (h', l')) :
    l.given pump <+: l'.given pump := by
  cases stepReader_course hs with
  | @abandoned id =>
      refine given_map (k := fun s => { s with queue := s.queue.leave id, registered := false }) ?_
        fun s => rfl
      simp [endReading, Flow.Fanout.close, Flow.Fanout.abandon]
  | stopped | ended =>
      have hclosed : l.endReading.fanout.subscribers =
          l.fanout.subscribers.map fun s => { s with registered := false } := rfl
      exact given_map hclosed fun s => rfl
  | moved _ hst =>
      obtain ⟨p, ha⟩ := Flow.Fanout.step?_eq_some hst
      refine given_mono fun s hs => ?_
      obtain ⟨t, ht, -, hi⟩ := Flow.Fanout.items_advance ha hs
      exact ⟨t, ht, hi⟩
  | filled | skipped => exact given_idle rfl
  | published => exact given_mono fun s hs => ⟨s, hs, List.prefix_refl _⟩

theorem step_given (hs : l.step sv h who = some (h', l')) : l.given pump <+: l'.given pump := by
  by_cases hr : who = .reader
  · subst hr
    exact stepReader_given hs
  · by_cases hq : who = .requests
    · subst hq
      rcases stepRequests_fanout hs with hf | ⟨x, hx⟩
      · exact given_idle hf
      · exact given_receive hx rfl
    · by_cases hw : who = .responses
      · subst hw
        obtain ⟨-, x, hx⟩ := stepResponses_fanout hs
        exact given_receive hx rfl
      · exact given_idle (step_fanout hr hq hw hs).1

/-- By its next step `who` receives what comes first in the queue of the pump. -/
def Ready (l : Link) (pump : Nat) (who : Actor) : Prop :=
  pump = requestQueue ∧ who = .requests ∧ l.requests = .taking ∨
    pump = responseQueue ∧ who = .responses ∧ l.responsesDone = false

theorem Ready.step {s : Flow.Subscriber Message} {m : Message} {ms : List Message}
    (hr : l.Ready pump who) (hs : l.fanout.subscriber? pump = some s)
    (hq : s.queue.queue = m :: ms) (sv : Service) (h : Hub) : ∃ h' l' t,
      l.step sv h who = some (h', l') ∧ l'.id = l.id ∧ l'.fanout.subscriber? pump = some t ∧
        t.queue.taken = m :: s.queue.taken ∧ t.queue.queue = ms := by
  let f := l.fanout.update pump fun s => { s with queue := s.queue.take }
  have hx : l.fanout.receive pump = (f, .item m) := by
    simp [Flow.Fanout.receive, hs, Flow.Channel.next?, hq, f]
  have ht : f.subscriber? pump = some { s with queue := s.queue.take } := by
    simp [f, Flow.Fanout.subscriber?_update, hs]
  rcases hr with ⟨rfl, rfl, hr⟩ | ⟨rfl, rfl, hr⟩
  · refine ⟨h, { l with fanout := f, requests := .handling m }, _, ?_, rfl, ht, ?_⟩
    · simp [step, stepRequests, hr, hx]
    · simp [Flow.Channel.take, hq]
  · have hstep : ∃ h' l', l.step sv h .responses = some (h', l') ∧ l'.id = l.id ∧
        l'.fanout = f := by
      simp only [step, stepResponses, hr, hx]
      cases m <;> exact ⟨_, _, rfl, rfl, rfl⟩
    obtain ⟨h', l', hstep, hi, hf⟩ := hstep
    exact ⟨h', l', _, hstep, hi, hf ▸ ht, by simp [Flow.Channel.take, hq]⟩

end Dispatch.Link

namespace Dispatcher

variable {c : ConnectionId} {d : Dispatcher} {l : Link} {a : Ledger} {x z : Dispatcher × Ledger}
  {id : Nat}

theorem Runs.given (hr : Reachable c x) (h : Runs c x z) (hl : x.1.link? c = some l) :
    ∃ l', z.1.link? c = some l' ∧ ∀ pump, l.given pump <+: l'.given pump := by
  induction h with
  | refl => exact ⟨l, hl, fun _ => List.prefix_refl _⟩
  | tail hy hn ih =>
      obtain ⟨m, hm, hg⟩ := ih
      obtain ⟨t, hn, -⟩ := hn
      obtain ⟨l', e, w, hp⟩ := hn.passes (hr.runs hy).accounted.sound hm
      refine ⟨l', hp.link, fun pump => (hg pump).trans ?_⟩
      rcases hp.origin with ⟨who, -, hs, -⟩ | ⟨⟨_, _, _, _, _, _, _, rfl⟩, -⟩
      · exact Link.step_given hs
      · exact List.prefix_refl _

theorem Reachable.fed (h : Reachable c x) (hl : x.1.link? c = some l)
    (hs : x.1.hub.isStopped c = false) : ∃ r, Fed r l.fanout l.reader (l.received x.2) x.2.read := by
  refine (h.feeding hl).resolve_right fun ⟨hstop, _⟩ => ?_
  rw [hs] at hstop
  cases hstop

theorem follow_reader {l' : Link} (hl : x.1.link? c = some l)
    (hs : l.step x.1.service x.1.hub .reader = some (x.1.hub, l')) (hi : l'.id = l.id)
    (hp : l'.fanout.publications.length ≤ l.fanout.publications.length) :
    ∃ y, (∀ ms, follow c (.act .reader :: ms) x = follow c ms y) ∧ Runs c x y ∧
      y.1.link? c = some l' ∧ y.1.hub = x.1.hub ∧ y.2.read = x.2.read := by
  obtain ⟨d, a⟩ := x
  have hstep := step_of_link hl hs
  have hl' := link?_put_self hl (hi.trans (id_of_link? hl))
  refine ⟨({ d.put l' with hub := d.hub }, account c a d _ (some (c, .reader))), fun ms => ?_,
    .single ⟨_, .step hstep, rfl⟩, hl', rfl, ?_⟩
  · simp [follow, hstep]
  · have hacc : account c a d { d.put l' with hub := d.hub } (some (c, .reader)) = _ :=
      account_own a hl hl'
    exact (congrArg Ledger.read hacc).trans (by
      rw [Link.read_observe, Link.published_nil hp, List.append_nil])

/-- The reader gets on with a publication by itself where the message finds a place. -/
theorem Reachable.published {x : Dispatcher × Ledger} {l : Link} {p : Flow.Publication Message}
    (h : Reachable c x) (hl : x.1.link? c = some l) (hp : l.fanout.publications = [p])
    (hr : l.reader = .publishing p.id) (hs : x.1.hub.isStopped c = false)
    (hroom : ∀ i ∈ p.ahead, ∀ s, l.fanout.subscriber? i = some s →
      s.queue.place p.id < s.queue.room) :
    ∃ n z l', follow c (List.replicate n (.act .reader)) x = some z ∧ z.1.link? c = some l' ∧
      z.1.hub = x.1.hub ∧ l'.reader = .reading ∧ z.2.read = x.2.read := by
  have hi := id_of_link? hl
  obtain ⟨r, hfed⟩ := h.fed hl hs
  have hu := hfed.underway hp
  have hnext := hu.next hfed.shut (hfed.fanout.symm ▸ hroom)
  rw [hfed.fanout] at hnext
  rcases hnext with hst | ⟨g, q, i, hpass, hst⟩
  · have hread : l.step x.1.service x.1.hub .reader =
        some (x.1.hub, { l with fanout := l.fanout.finish p, reader := .reading }) := by
      simp [Link.step, Link.stepReader, hr, hi, hs, hst]
    obtain ⟨y, hy, -, hl', hub, hya⟩ := follow_reader hl hread rfl (List.length_filter_le _ _)
    exact ⟨1, y, _, (hy []).trans rfl, hl', hub, rfl, hya⟩
  · have hread : l.step x.1.service x.1.hub .reader = some (x.1.hub, { l with fanout := g }) := by
      simp [Link.step, Link.stepReader, hr, hi, hs, hst]
    obtain ⟨y, hy, hruns, hl', hub, hya⟩ := follow_reader hl hread rfl
      (by rw [hpass.publications, hp]; exact Nat.le_refl _)
    have hroom' : ∀ j ∈ q.ahead, ∀ s, g.subscriber? j = some s →
        s.queue.place q.id < s.queue.room := by
      intro j hj s hjs
      have hne : j ≠ i := by
        rintro rfl
        exact (List.nodup_cons.1 (hpass.ahead ▸ hu.ahead)).1 hj
      rw [hpass.other j hne] at hjs
      exact hpass.same ▸ hroom j (hpass.mem_ahead hj) s hjs
    have hlt : q.ahead.length < p.ahead.length := by
      rw [hpass.ahead]
      exact Nat.lt_succ_self _
    obtain ⟨n, z, l', hz, hl', hub', hrd, hza⟩ := Reachable.published (h.runs hruns) hl'
      hpass.publications (hr.trans (congrArg _ hpass.same.symm)) (hub ▸ hs) hroom'
    exact ⟨n + 1, z, l', (hy _).trans hz, hl', hub'.trans hub, hrd, hza.trans hya⟩
termination_by p.ahead.length

/-- A fan-out with one publisher loses nothing and gives nothing twice, whoever is slow or goes. So
each message that a connection reads is for one of the pumps, and the pumps are given theirs in the
order in which they were read. Only the message that is being published may not have come past a
pump, and if the connection is stopped then it may never do so. -/
theorem fanned_out :
    (∀ {α : Type} (es : List (Flow.Fanout.Event α)), (Flow.Fanout.Run.run es).Exact) ∧
    (∀ m, wants Link.responseQueue m = !wants Link.requestQueue m) ∧
    ∀ {c : ConnectionId} {d : Dispatcher} {a : Ledger} {l : Link}, Reachable c (d, a) →
      d.link? c = some l → l.Drained ∧
        (∀ pump ∈ pumps, ∃ s passed, l.fanout.subscriber? pump = some s ∧
          (pump = Link.requestQueue → s.queue.taken.reverse = l.received a) ∧
          s.queue.taken.reverse ++ s.queue.queue = passed.filter (wants pump) ∧
          (passed = a.read ∨ ∃ m, passed ++ [m] = a.read) ∧
          (d.hub.isStopped c = false → (∀ id, l.reader ≠ .publishing id) → passed = a.read) ∧
          ∀ who m ms, l.Ready pump who → s.queue.queue = m :: ms → ∃ d' l' t,
            d.step (c, who) = some d' ∧ d'.link? c = some l' ∧ l'.fanout.subscriber? pump = some t ∧
              t.queue.taken = m :: s.queue.taken ∧ t.queue.queue = ms) ∧
        (∀ z, Runs c (d, a) z → ∃ l', z.1.link? c = some l' ∧
          ∀ pump ∈ pumps, l.given pump <+: l'.given pump) ∧
        ∀ id, l.reader = .publishing id → d.hub.isStopped c = false →
          (∀ pump ∈ pumps, ∀ s, l.fanout.subscriber? pump = some s →
            s.queue.place id < s.queue.room) →
          ∃ n z l', follow c (List.replicate n (.act .reader)) (d, a) = some z ∧
            z.1.link? c = some l' ∧ l'.reader = .reading ∧ z.2.read = a.read ∧
              ∀ pump ∈ pumps, l'.given pump = a.read.filter (wants pump) := by
  refine ⟨fun es => (Flow.Fanout.Run.sound_run es).exact, wants_responseQueue,
    fun {c d a l} h hl => ⟨h.drained hl, fun pump hp => ?_, fun z hz => ?_,
      fun id hr hs hroom => ?_⟩⟩
  · obtain ⟨passed, ⟨⟨s, hs, -, ht, hi⟩, hpassed⟩, hall⟩ := (h.feeding hl).heard hp
    refine ⟨s, passed, hs, ht, hi, hpassed, fun hstop => hall (by simp [hstop]),
      fun who m ms hr hq => ?_⟩
    obtain ⟨h', l', t, hstep, hid, ht⟩ := hr.step hs hq d.service d.hub
    exact ⟨_, l', t, step_of_link hl hstep, link?_put_self hl (hid.trans (id_of_link? hl)), ht⟩
  · obtain ⟨l', hl', hg⟩ := Runs.given h hz hl
    exact ⟨l', hl', fun pump _ => hg pump⟩
  · obtain ⟨r, hfed⟩ := h.fed hl hs
    obtain ⟨p, hp, rfl⟩ := (hr ▸ hfed).stands
    obtain ⟨n, z, l', hz, hl', hub, hrd, hread⟩ := h.published hl hp hr hs
      fun i hi s his => hroom i (hfed.ahead hp hi his) s his
    refine ⟨n, z, l', hz, hl', hrd, hread, fun pump hpump => ?_⟩
    obtain ⟨passed, ⟨⟨s, hs', -, -, hi⟩, -⟩, hall⟩ :=
      ((h.runs (follow_runs hz)).feeding hl').heard hpump
    rw [Link.given, hs', ← hread, ← hall (by simp [hub, hs]) (by simp [hrd])]
    exact hi

def broken : Option (Dispatcher × Ledger) :=
  let request := Message.request ⟨.number 1, "work", none⟩
  let service : Service := { routes := { entries := [(.any, fun _ _ => .done .null)] } }
  follow ⟨"c"⟩ (.arrive (Frame.encode request.encode) :: List.replicate 5 (.act .reader) ++
    .arrive (.ofString "x\r\n\r\n") :: List.replicate 3 (.act .reader))
    ((serving service { store := { maxIdle := 0 } }).attach ⟨"c"⟩, {})

theorem fanned_out_of_broken : ∃ d a l s, Reachable ⟨"c"⟩ (d, a) ∧ d.link? ⟨"c"⟩ = some l ∧
    l.reader = .done ∧ a.read = [.request ⟨.number 1, "work", none⟩] ∧
    l.fanout.subscriber? Link.requestQueue = some s ∧
      s.queue.taken.reverse ++ s.queue.queue = a.read := by
  have hs : (broken.bind fun x => (x.1.link? ⟨"c"⟩).map fun l =>
      decide (x.1.hub.isStopped ⟨"c"⟩ = false ∧ l.reader = .done ∧
        x.2.read = [.request ⟨.number 1, "work", none⟩])) = some true := by
    decide +kernel
  obtain ⟨⟨d, a⟩, hx, h⟩ := Option.bind_eq_some_iff.1 hs
  obtain ⟨l, hl, h⟩ := Option.map_eq_some_iff.1 h
  obtain ⟨hstop, hrd, hread⟩ := of_decide_eq_true h
  have hr : Reachable ⟨"c"⟩ (d, a) := reachable_of_follow _ _ hx
  obtain ⟨s, passed, hs, -, hgiven, -, hall, -⟩ :=
    (fanned_out.2.2 hr hl).2.1 Link.requestQueue List.mem_cons_self
  refine ⟨d, a, l, s, hr, hl, hrd, hread, hs, hgiven.trans ?_⟩
  rw [hall hstop (by simp [hrd]), hread]
  rfl

end Dispatcher

end Parley
