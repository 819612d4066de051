import Parley.Proofs.Dispatch.Feeding
import Parley.Proofs.Dispatch.Recording

namespace Parley.Dispatch

def wanted (ms : List Message) : List Message := ms.filter fun m => !m.isResponse

namespace Link

variable {sv : Service} {h h' : Hub} {l l' : Link} {who : Actor} {a : Ledger} {p q : Prop}

/-- What the request pump has received: the messages that it has handled, and the one in its hand.
-/
def received (l : Link) (a : Ledger) : List Message := a.taken.map (·.1) ++ l.inHand?.toList

theorem taken_observe (a : Ledger) (h : Hub) (l l' : Link) (who : Actor) :
    (a.observe h l l' who).taken.map (·.1) =
      if who = .requests then l.received a else a.taken.map (·.1) := by
  cases who <;> cases ht : l.inHand? <;> simp only [Ledger.observe, deed, ht, received] <;>
    split <;> simp_all [Ledger.record, Ledger.take, Ledger.post]

theorem received_observe (a : Ledger) (h : Hub) (hw : who ≠ .requests)
    (hq : l'.requests = l.requests) : l'.received (a.observe h l l' who) = l.received a := by
  rw [received, taken_observe, if_neg hw, received, inHand?, inHand?, hq]

/-- A step of the pump leaves it with a message in its hand only if it receives that just then. -/
theorem received_observe_requests (a : Ledger) (h : Hub) :
    l'.received (a.observe h l l' .requests) = l.received a ++ l'.inHand?.toList := by
  rw [received, taken_observe, if_pos rfl]

theorem read_observe (a : Ledger) (h : Hub) (l l' : Link) (who : Actor) :
    (a.observe h l l' who).read = a.read ++ Ledger.published l l' := rfl

theorem published_nil (h : l'.fanout.publications.length ≤ l.fanout.publications.length) :
    Ledger.published l l' = [] := by
  rw [Ledger.published, List.drop_eq_nil_of_le h, List.map_nil]

theorem published_publish {m : Message} (hf : l'.fanout = (l.fanout.publish m).1) :
    Ledger.published l l' = [m] := by
  simp [Ledger.published, hf, Flow.Fanout.publish]

theorem step_fanout (hw : who ≠ .reader) (hw' : who ≠ .requests) (hw'' : who ≠ .responses)
    (hs : l.step sv h who = some (h', l')) :
    l'.fanout = l.fanout ∧ l'.reader = l.reader ∧ l'.requests = l.requests ∧
      l'.responsesDone = l.responsesDone := by
  cases who with
  | reader | requests | responses => contradiction
  | writer =>
      obtain ⟨_, _, _, rfl, -⟩ := stepWriter_footprint hs
      exact ⟨rfl, rfl, rfl, rfl⟩
  | supervisor =>
      obtain ⟨_, _, rfl⟩ := stepSupervisor_footprint hs
      exact ⟨rfl, rfl, rfl, rfl⟩
  | call n =>
      obtain ⟨_, _, rfl⟩ := stepCall_footprint hs
      exact ⟨rfl, rfl, rfl, rfl⟩
  | caller n =>
      obtain ⟨_, rfl⟩ := stepCaller_footprint hs
      exact ⟨rfl, rfl, rfl, rfl⟩

def Feeding (stopped : Prop) (l : Link) (a : Ledger) : Prop :=
  (∃ r, Fed r l.fanout l.reader (l.received a) a.read) ∨ stopped ∧ l.reader = .done ∧
    ∀ pump ∈ pumps, ∃ passed, Heard l.fanout pump (l.received a) a.read passed

namespace Feeding

theorem mono (hf : l.Feeding p a) (hp : p → q) : l.Feeding q a :=
  hf.imp_right fun ⟨h, hr⟩ => ⟨hp h, hr⟩

theorem heard {pump : Nat} (hf : l.Feeding p a) (hp : pump ∈ pumps) :
    ∃ passed, Heard l.fanout pump (l.received a) a.read passed ∧
      (¬p → (∀ id, l.reader ≠ .publishing id) → passed = a.read) := by
  rcases hf with ⟨r, hr⟩ | ⟨hs, -, hr⟩
  · obtain ⟨passed, h, he⟩ := hr.heard hp
    exact ⟨passed, h, fun _ => he⟩
  · obtain ⟨passed, h⟩ := hr pump hp
    exact ⟨passed, h, fun hn => absurd hs hn⟩

theorem idle (hf : l.Feeding p a) (hw : l'.received (a.observe h l l' who) = l.received a)
    (hfan : l'.fanout = l.fanout) (hr : l'.reader = l.reader) :
    l'.Feeding p (a.observe h l l' who) := by
  rw [Feeding, hw, read_observe, published_nil (hfan ▸ Nat.le_refl _), List.append_nil, hfan, hr]
  exact hf

theorem receive {id : Nat} {f : Flow.Fanout Message} {x : Flow.Fanout.Received Message}
    (hf : l.Feeding p a) (hx : l.fanout.receive id = (f, x)) (hfan : l'.fanout = f)
    (hrd : l'.reader = l.reader) (ht : l'.received (a.observe h l l' who) =
      l.received a ++ if id = requestQueue then got x else []) :
    l'.Feeding p (a.observe h l l' who) := by
  have hp := l.fanout.publications_receive id
  rw [hx, ← hfan] at hp
  rw [Feeding, ht, read_observe, published_nil (hp ▸ Nat.le_refl _), List.append_nil, hfan, hrd]
  rcases hf with ⟨r, hr⟩ | ⟨hs, hd, hr⟩
  · exact .inl ⟨_, hr.receive hx⟩
  · exact .inr ⟨hs, hd, fun pump hp => (hr pump hp).imp fun _ h => h.receive hx⟩

theorem requests (hf : l.Feeding p a) (hs : stepRequests sv h l = some (h', l')) :
    l'.Feeding p (a.observe h l l' .requests) := by
  have hnone {m : Link} (hm : m.inHand? = none) :
      m.received (a.observe h l m .requests) = l.received a := by
    rw [received_observe_requests, hm, Option.toList_none, List.append_nil]
  cases stepRequests_course hs with
  | ended hp hx => exact hf.receive hx rfl rfl ((hnone rfl).trans (by simp [got]))
  | received hp hx => exact hf.receive hx rfl rfl (received_observe_requests a h)
  | handled hp hh hk => exact hf.idle (hnone (hh.inHand? rfl)) hk.1 hk.2.1
  | posted hp | refused hp => exact hf.idle (hnone rfl) rfl rfl
  | waiting hp =>
      refine hf.idle (hnone ?_) rfl rfl
      simp [inHand?, setOutbound, setPeer, hp]

theorem responses (hf : l.Feeding p a) (hs : stepResponses h l = some (h', l')) :
    l'.Feeding p (a.observe h l l' .responses) := by
  have ht {l' : Link} (x : Flow.Fanout.Received Message) (hq : l'.requests = l.requests) :
      l'.received (a.observe h l l' .responses) =
        l.received a ++ if responseQueue = requestQueue then got x else [] := by
    rw [received_observe a h (by simp) hq]
    simp [responseQueue, requestQueue]
  cases (stepResponses_course hs).2 with
  | ended hx | fulfilled hx | skipped _ hx => exact hf.receive hx rfl rfl (ht _ rfl)

theorem moved {f : Flow.Fanout Message} {pr : Flow.Fanout.Progress} {id : Nat}
    (hf : l.Feeding p a) (hr : l.reader = .publishing id) (hst : l.fanout.step? id = some (f, pr))
    (hfan : l'.fanout = f) (hrd : l'.reader = .after id pr) (hq : l'.requests = l.requests) :
    l'.Feeding p (a.observe h l l' .reader) := by
  rcases hf with ⟨r, hfed⟩ | ⟨-, hd, -⟩
  · rw [hr] at hfed
    have hpub : Ledger.published l l' = [] := by
      obtain ⟨p, hp, rfl⟩ := hfed.stands
      refine published_nil ?_
      rw [hfan, hp]
      rcases Flow.Fanout.publications_advance hp (Flow.Fanout.advance_of_step? hp hst) with
        ⟨-, hq⟩ | ⟨-, q, hq, -⟩ <;> simp [hq]
    rw [Feeding, received_observe a h (by simp) hq, read_observe, hpub, List.append_nil, hfan, hrd]
    exact .inl ⟨_, hfed.send hst⟩
  · rw [hr] at hd
    cases hd

theorem published (m : Message) (hf : l.Feeding p a) (hr : l.reader = .reading)
    (hfan : l'.fanout = (l.fanout.publish m).1)
    (hrd : l'.reader = .publishing (l.fanout.publish m).2) (hq : l'.requests = l.requests) :
    l'.Feeding p (a.observe h l l' .reader) := by
  rcases hf with ⟨r, hfed⟩ | ⟨-, hd, -⟩
  · rw [hr] at hfed
    rw [Feeding, received_observe a h (by simp) hq, read_observe, published_publish hfan, hfan, hrd]
    exact .inl ⟨_, hfed.publish m⟩
  · rw [hr] at hd
    cases hd

theorem ended (hf : l.Feeding p a) (hr : l.reader = .reading) :
    l.endReading.Feeding p (a.observe h l l.endReading .reader) := by
  rcases hf with ⟨r, hfed⟩ | ⟨-, hd, -⟩
  · rw [hr] at hfed
    have hrec : l.endReading.received (a.observe h l l.endReading .reader) = l.received a :=
      received_observe a h (by simp) rfl
    have hpub : Ledger.published l l.endReading = [] := published_nil (Nat.le_refl _)
    rw [Feeding, hrec, read_observe, hpub, List.append_nil]
    exact .inl ⟨_, hfed.close⟩
  · rw [hr] at hd
    cases hd

theorem abandoned (hf : l.Feeding p a) (id : Nat) (hp : p)
    (hfan : l'.fanout = (l.fanout.abandon id).close)
    (hrd : l'.reader = .done) (hq : l'.requests = l.requests) :
    l'.Feeding p (a.observe h l l' .reader) := by
  have hlen : l'.fanout.publications.length ≤ l.fanout.publications.length := by
    rw [hfan]
    exact List.length_filter_le _ _
  rw [Feeding, received_observe a h (by simp) hq, read_observe, published_nil hlen,
    List.append_nil, hfan]
  refine .inr ⟨hp, hrd, fun pump hpump => ?_⟩
  obtain ⟨passed, hh, -⟩ := hf.heard hpump
  have habandon : Heard (l.fanout.abandon id) pump (l.received a) a.read passed :=
    hh.map rfl fun s => ⟨Flow.Channel.shut_leave id, rfl, Flow.Channel.items_leave id⟩
  exact ⟨passed, habandon.map rfl fun s => ⟨rfl, rfl, rfl⟩⟩

theorem reader (hf : l.Feeding p a) (hs : stepReader sv h l = some (h', l'))
    (hp : h.isStopped l.id = true → p) : l'.Feeding p (a.observe h l l' .reader) := by
  cases stepReader_course hs with
  | @abandoned id _ hc => exact hf.abandoned id (hp hc) rfl rfl rfl
  | stopped hr | ended hr => exact hf.ended hr
  | moved hrd hst => exact hf.moved hrd hst rfl rfl rfl
  | filled | skipped => exact hf.idle (received_observe a h (by simp) rfl) rfl rfl
  | @published i body m hrd => exact hf.published m hrd rfl rfl rfl

theorem step (hf : l.Feeding p a) (hs : l.step sv h who = some (h', l'))
    (hp : h.isStopped l.id = true → p) : l'.Feeding p (a.observe h l l' who) := by
  by_cases hr : who = .reader
  · subst hr
    exact hf.reader hs hp
  · by_cases hq : who = .requests
    · subst hq
      exact hf.requests hs
    · by_cases hw : who = .responses
      · subst hw
        exact hf.responses hs
      · obtain ⟨hfan, hrd, hreq, -⟩ := step_fanout hr hq hw hs
        exact hf.idle (received_observe a h hq hreq) hfan hrd

end Feeding

theorem feeding_attach (sv : Service) (c : ConnectionId) : (attach sv c).Feeding p {} := by
  let subscribe (pump : Nat) : Flow.Fanout.Event Message :=
    .subscribe sv.config.inboundQueue (wants pump)
  refine .inl ⟨(({} : Flow.Fanout.Run Message).step (subscribe requestQueue)).step
    (subscribe responseQueue), (Flow.Fanout.Run.sound_empty.step _).step _, rfl, rfl, fun _ => rfl,
    by simp [Flow.Fanout.Run.step, subscribe], ?_, rfl, rfl, rfl⟩
  intro i s
  refine Flow.Fanout.Run.shut_step (fun i s => Flow.Fanout.Run.shut_step ?_ (by simp [subscribe]))
    (by simp [subscribe])
  intro i s hs
  simp [Flow.Fanout.subscriber?] at hs

end Link

end Parley.Dispatch

namespace Parley.Dispatcher

open Dispatch

variable {c : ConnectionId} {x : Dispatcher × Ledger} {l : Link}

theorem Reachable.feeding (h : Reachable c x) (hl : x.1.link? c = some l) :
    l.Feeding (x.1.hub.isStopped c = true) x.2 := by
  refine h.invariant (I := fun h l a => l.Feeding (h.isStopped c = true) a) hl
    (fun sv _ => Link.feeding_attach sv c) ?_
  intro y z t m m' hy hn hz hm hm' hf
  obtain ⟨l', e, w, hp⟩ := hn.passes hy.accounted.sound hm
  obtain rfl : l' = m' := Option.some.inj (hp.link.symm.trans hm')
  have hstop (hs : y.1.hub.isStopped c = true) : z.1.hub.isStopped c = true :=
    Hub.isStopped_iff.2 (hp.fired (Hub.isStopped_iff.1 hs))
  rcases hp.origin with ⟨who, -, hs, -, -, hobs⟩ | ⟨⟨_, _, _, _, _, _, _, rfl⟩, -, hobs⟩
  · rw [hz, hobs]
    exact (hf.mono hstop).step hs fun hc => hstop (id_of_link? hm ▸ hc)
  · rw [hz, hobs]
    exact hf.mono hstop

theorem Reachable.in_order (h : Reachable c x) (hl : x.1.link? c = some l) :
    l.received x.2 <+: wanted x.2.read := by
  obtain ⟨passed, hheard, -⟩ := (h.feeding hl).heard List.mem_cons_self
  obtain ⟨s, -, ht, hi⟩ := hheard.in_order
  rw [← ht rfl]
  exact (List.prefix_append _ _).trans hi

/-- The message that the pump handles next comes next. -/
theorem Reachable.inHand? {m : Message} (h : Reachable c x) (hl : x.1.link? c = some l)
    (hm : l.inHand? = some m) : x.2.taken.map (·.1) ++ [m] <+: wanted x.2.read := by
  have h := h.in_order hl
  rwa [Link.received, hm] at h

end Parley.Dispatcher
