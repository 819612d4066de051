import Parley.Proofs.Dispatch.Books
import Parley.Proofs.Dispatch.Drain

namespace Parley.Dispatch.Link

variable {sv : Service} {h h' : Hub} {l l' : Link} {who : Actor} {b b' : Books}

/-- What the response pump has processed is what it has taken off its queue. -/
def Hears (l : Link) (b : Books) : Prop := ∃ s, l.fanout.subscriber? responseQueue = some s ∧
  s.queue.taken.reverse.filterMap Message.response? = b.docket.processed.map (·.1)

theorem hears_attach (sv : Service) (c : ConnectionId) : (attach sv c).Hears {} := ⟨_, rfl, rfl⟩

theorem Hears.idle (hl : l.Hears b) (hf : ∀ s, l.fanout.subscriber? responseQueue = some s →
      ∃ t, l'.fanout.subscriber? responseQueue = some t ∧ t.queue.taken = s.queue.taken)
    (hp : b'.docket.processed = b.docket.processed) : l'.Hears b' := by
  obtain ⟨s, hs, ht⟩ := hl
  obtain ⟨t, hs', ht'⟩ := hf s hs
  exact ⟨t, hs', by rw [ht', ht, hp]⟩

theorem Hears.receive {id : Nat} {f : Flow.Fanout Message} {x : Flow.Fanout.Received Message}
    (hl : l.Hears b) (hx : l.fanout.receive id = (f, x)) (hf : l'.fanout = f)
    (hp : b'.docket.processed.map (·.1) = b.docket.processed.map (·.1) ++
      (if id = responseQueue then got x else []).filterMap Message.response?) : l'.Hears b' := by
  obtain ⟨s, hs, ht⟩ := hl
  obtain ⟨t, hs', -, -, ht'⟩ := receive_taken hx hs
  exact ⟨t, hf ▸ hs', by rw [ht', List.filterMap_append, ht, hp]⟩

theorem event_ne_processed (hw : who ≠ .responses)
    (r : Response) : l.event h who ≠ .processed r := by
  have hx (x : Exchange) (p : Peer.Progress) : p.event x ≠ .processed r := by
    simp only [Peer.Progress.event]
    split
    · simp
    · simp
    · split <;> simp
    · simp
  cases who with
  | responses => contradiction
  | writer | reader | requests | supervisor => simp [event]
  | call n =>
      simp only [event]
      split
      · rw [Call.event]
        split
        · split
          · simp
          · exact hx _ _
        · simp
      · simp
  | caller n =>
      simp only [event]
      split
      · exact hx _ _
      · simp

theorem processed_record {e : Errands.Event} (k : Docket) (p : Pending Nat)
    (he : ∀ r, e ≠ .processed r) : (k.record p e).processed = k.processed := by
  cases e with
  | processed r => exact absurd rfl (he r)
  | _ => rfl

theorem processed_responses {f : Flow.Fanout Message} {x : Flow.Fanout.Received Message}
    (k : Docket) (p : Pending Nat) (hd : l.responsesDone = false)
    (hx : l.fanout.receive responseQueue = (f, x)) :
    (k.record p (l.event h .responses)).processed.map (·.1) =
      k.processed.map (·.1) ++ (got x).filterMap Message.response? := by
  simp only [event, hd, arriving?, hx]
  cases x with
  | item m => cases m <;> simp [Docket.record, got, Message.response?]
  | empty | closed => simp [Docket.record, got]

theorem Hears.reader (hl : l.Hears b) (hs : stepReader sv h l = some (h', l'))
    (hp : b'.docket.processed = b.docket.processed) : l'.Hears b' := by
  refine hl.idle (fun s hsub => ?_) hp
  cases stepReader_course hs with
  | filled | skipped | published => exact ⟨s, hsub, rfl⟩
  | moved _ hst =>
      obtain ⟨p, ha⟩ := Flow.Fanout.step?_eq_some hst
      obtain ⟨t, ht, htaken, -⟩ := Flow.Fanout.items_advance ha hsub
      exact ⟨t, ht, htaken⟩
  | @abandoned id =>
      refine ⟨{ s with queue := s.queue.leave id, registered := false }, ?_, rfl⟩
      change (l.fanout.abandon id).close.subscriber? responseQueue = _
      rw [Flow.Fanout.subscriber?_map rfl, Flow.Fanout.subscriber?_map rfl, hsub]
      rfl
  | stopped | ended =>
      refine ⟨{ s with registered := false }, ?_, rfl⟩
      change l.fanout.close.subscriber? responseQueue = _
      rw [Flow.Fanout.subscriber?_map rfl, hsub]
      rfl

theorem Hears.step {asked : List (RequestSpec × Awaited)} (hl : l.Hears b)
    (hs : l.step sv h who = some (h', l')) : l'.Hears ⟨b.ledger.observe h l l' who,
      b.docket.record l.desk.peer.pending (l.event h who), asked⟩ := by
  by_cases hw : who = .responses
  · subst hw
    obtain ⟨hd, x, hx⟩ := stepResponses_fanout hs
    exact hl.receive hx rfl (processed_responses _ _ hd hx)
  · have hp := processed_record b.docket l.desk.peer.pending (event_ne_processed (h := h) (l := l) hw)
    have hsame (hf : l'.fanout = l.fanout) : l'.Hears ⟨b.ledger.observe h l l' who,
        b.docket.record l.desk.peer.pending (l.event h who), asked⟩ :=
      hl.idle (fun s hs => ⟨s, hf ▸ hs, rfl⟩) hp
    by_cases hq : who = .requests
    · subst hq
      rcases stepRequests_fanout hs with hf | ⟨x, hx⟩
      · exact hsame hf
      · exact hl.receive hx rfl (by simp [hp, requestQueue, responseQueue])
    · by_cases hr : who = .reader
      · subst hr
        exact hl.reader hs hp
      · exact hsame (step_fanout hr hq hw hs).1

end Parley.Dispatch.Link

namespace Parley.Dispatcher.Booked

open Dispatch

variable {c : ConnectionId} {l : Link} {x : Dispatcher × Books}

theorem Reachable.hears (h : Reachable c x) (hl : x.1.link? c = some l) : l.Hears x.2 := by
  refine h.invariant hl (fun sv => Link.hears_attach sv c) ?_ ?_
  · intro y d' m m' who hy hm hz hm' hs hh
    exact hh.step hs
  · rintro m m' b ha ⟨s, hs, hh⟩
    cases ha with
    | same | send | abort => exact ⟨s, hs, hh⟩
    | outside ho =>
        obtain ⟨_, _, _, _, rfl⟩ := ho
        exact ⟨s, hs, hh⟩

/-- Responses are processed in the order in which they were read. -/
theorem Reachable.processed (h : Reachable c x) (hl : x.1.link? c = some l) :
    x.2.docket.processed.map (·.1) <+: x.2.ledger.read.filterMap Message.response? := by
  obtain ⟨s, hs, ht⟩ := h.hears hl
  obtain ⟨passed, hheard, -⟩ :=
    (h.audited.feeding hl).heard (List.mem_cons_of_mem Link.requestQueue List.mem_cons_self)
  obtain ⟨t, hs', -, hi⟩ := hheard.in_order
  obtain rfl : s = t := Option.some.inj (hs.symm.trans hs')
  have hf : (x.2.ledger.read.filter (wants Link.responseQueue)).filterMap Message.response? =
      x.2.ledger.read.filterMap Message.response? := by
    rw [List.filterMap_filter]
    refine List.filterMap_congr fun m _ => ?_
    cases m <;> rfl
  rw [← ht, ← hf]
  exact ((List.prefix_append _ _).trans hi).filterMap _

theorem Reachable.mem_read {r : Response} {o : Option Nat} (h : Reachable c x)
    (hl : x.1.link? c = some l) (hr : (r, o) ∈ x.2.docket.processed) :
    .response r ∈ x.2.ledger.read := by
  have hm : r ∈ x.2.docket.processed.map (·.1) := List.mem_map_of_mem hr
  obtain ⟨m, hm, he⟩ := List.mem_filterMap.1 ((h.processed hl).subset hm)
  cases m with
  | response y =>
      cases he
      exact hm
  | _ => cases he

end Parley.Dispatcher.Booked
