import Parley.Proofs.Dispatch.View

namespace Parley.Dispatch

namespace Link

variable {sv : Service} {h h' : Hub} {l l' : Link} {who : Actor}

/-- A step that leaves the view as it is has done nothing of note. -/
theorem change_of_view_eq (hw : who ≠ .requests ∨ l.inHand? = none) (hv : l'.view h' = l.view h) :
    Change l.id (l.view h) (l.deed l' who) (l'.view h') := by
  have hd : l.deed l' who = .nothing := by
    have hr : l'.responses = l.responses := congrArg View.responses hv
    rcases hw with hw | hw
    · cases who <;> simp_all [deed]
    · cases who <;> simp [deed, hw, hr]
  rw [hd, hv]
  exact .idle (Nat.le_refl _)

structure Steps (h : Hub) (l : Link) (who : Actor) (h' : Hub) (l' : Link) : Prop where
  change : Change l.id (l.view h) (l.deed l' who) (l'.view h')
  tidy : l'.Tidy
  id : l'.id = l.id

theorem Steps.of_view_eq (ht : l.Tidy) (hw : who ≠ .requests ∨ l.inHand? = none)
    (hv : l'.view h' = l.view h) (hi : l'.id = l.id) (hd : l'.desk.callers = l.desk.callers)
    (hk : l'.calls = l.calls) : Steps h l who h' l' where
  change := change_of_view_eq hw hv
  tidy := ht.congr hk (congrArg View.numbered hv) hd (congrArg View.pump hv)
  id := hi

theorem stepReader_steps (ht : l.Tidy) (hs : stepReader sv h l = some (h', l')) :
    Steps h l .reader h' l' := by
  obtain ⟨hf, reader, inbound, fanout, rfl⟩ := stepReader_footprint hs
  exact .of_view_eq ht (.inl (by simp)) (by rw [view, hf]; rfl) rfl rfl rfl

theorem stepResponses_steps (ht : l.Tidy) (hs : stepResponses h l = some (h', l')) :
    Steps h l .responses h' l' := by
  obtain ⟨hf, _, _, _, rfl⟩ := stepResponses_footprint hs
  exact .of_view_eq ht (.inl (by simp)) (by rw [view, hf]; rfl) rfl rfl rfl

/-- A step of somebody else than the pump by which no response is queued, and nobody's number or
phase is changed. -/
theorem Steps.of_nothing {v : View} (ht : l.Tidy) (hw : who ≠ .requests) (hv : v = l.view h)
    (hc : Change l.id v .nothing (l'.view h')) (hr : l'.responses = l.responses)
    (hi : l'.id = l.id) (hk : l'.calls = l.calls) (hn : l'.numbered = l.numbered)
    (hd : l'.desk.callers = l.desk.callers) (hp : l'.requests = l.requests) :
    Steps h l who h' l' where
  change := by
    have he : l.deed l' who = .nothing := by cases who <;> simp_all [deed]
    rw [he, ← hv]
    exact hc
  tidy := ht.congr hk hn hd hp
  id := hi

theorem stepWriter_steps (ht : l.Tidy) (hs : stepWriter sv h l = some (h', l')) :
    Steps h l .writer h' l' := by
  have hw : Actor.writer ≠ .requests := by simp
  have hr : (l.setOutbound l.desk.peer.outbound.take).responses = l.responses := by
    simp [responses, Peer.responses, setOutbound, setPeer]
  have hv : (l.setOutbound l.desk.peer.outbound.take).view h = l.view h := by
    simp [view, responses, Peer.responses, setOutbound, setPeer, call?]
  cases (stepWriter_course hs).2 with
  | left hc => exact .of_nothing ht hw rfl (.shut (Hub.isStopped_iff.1 hc)) rfl rfl rfl rfl rfl rfl
  | skipped | written => exact .of_view_eq ht (.inl hw) hv rfl rfl rfl
  | failed => exact .of_nothing ht hw hv .broken hr rfl rfl rfl rfl rfl

theorem stepSupervisor_steps (ht : l.Tidy) (hs : stepSupervisor h l = some (h', l')) :
    Steps h l .supervisor h' l' := by
  have hw : Actor.supervisor ≠ .requests := by simp
  -- What is left of a supervisor by its purge is known from its phase.
  have hpurge {x : Supervisor} (hn : l.supervisor = x) : (l.view h).purge = x.purge :=
    congrArg Supervisor.purge hn
  cases stepSupervisor_course hs with
  | reader hn | requests hn | responses hn | closed hn | writer hn =>
      exact .of_view_eq ht (.inl hw) (View.ext rfl rfl rfl rfl rfl rfl (hpurge hn).symm) rfl rfl rfl
  | withdrawn hn => exact .of_nothing ht hw rfl (.withdrawn (hpurge hn)) rfl rfl rfl rfl rfl rfl
  | seized hn => exact .of_nothing ht hw rfl (.seized (hpurge hn)) rfl rfl rfl rfl rfl rfl
  | fired hn => exact .of_nothing ht hw rfl (.struck (hpurge hn)) rfl rfl rfl rfl rfl rfl
  | emptied hn => exact .of_nothing ht hw rfl (.emptied (hpurge hn)) rfl rfl rfl rfl rfl rfl
  | dismissed hn => exact .of_nothing ht hw rfl (.dismissed (hpurge hn)) rfl rfl rfl rfl rfl rfl
  | stopped hn =>
      have hv : ({ l with supervisor := .awaitingWriter } : Link).view h = l.view h :=
        View.ext rfl rfl rfl rfl rfl rfl (hpurge hn).symm
      exact .of_nothing ht hw hv .told rfl rfl rfl rfl rfl rfl

theorem stepCaller_steps {n : Nat} (ht : l.Tidy) (hs : stepCaller h l (.caller n) = some (h', l')) :
    Steps h l (.caller n) h' l' := by
  have hw : Actor.caller n ≠ .requests := by simp
  simp only [stepCaller, Option.map_eq_some_iff, Prod.mk.injEq] at hs
  obtain ⟨d, hd, rfl, rfl⟩ := hs
  simp only [Desk.step, Option.bind_eq_bind, Option.bind_eq_some_iff] at hd
  obtain ⟨x, hx, hd⟩ := hd
  have hp : x.Plain := by
    obtain ⟨before, after, hl, -⟩ := List.lookup_eq_some_iff.1 hx
    exact ht.callers (.caller n, x) (by simp [hl])
  rcases hq : l.desk.peer.step (.caller n) h.now x with ⟨q, y | _ | outcome⟩ <;>
    obtain ⟨h1, h2, h3⟩ := Peer.step_plain hp hq <;> simp only [hq] at hd
  · cases hd
    have hv : ({ l with desk := { l.desk with peer := q } } : Link).view h = l.view h := by
      simp [view, call?, responses, h1, h2]
    refine ⟨change_of_view_eq (.inl hw) hv, ⟨ht.calls, fun e he => ?_, ht.pump⟩, rfl⟩
    obtain ⟨f, hf, rfl⟩ := List.mem_map.1 he
    split
    · exact h3 y rfl
    · exact ht.callers f hf
  · cases hd
  · cases hd
    have hv : ({ l with desk := { l.desk with peer := q } } : Link).view h = l.view h := by
      simp [view, call?, responses, h1, h2]
    refine ⟨change_of_view_eq (.inl hw) hv, ⟨ht.calls, fun e he => ?_, ht.pump⟩, rfl⟩
    exact ht.callers e (List.mem_filter.1 he).1

theorem stepCall_turn {n : Nat} (ht : l.Tidy) (hs : stepCall sv h l n = some (h', l')) :
    ∃ (k : Call) (k' : Option Call) (x : Option Response), l.call? n = some k ∧
      Turn h.inflight l.desk.peer.outbound.shut k.job h'.inflight (k'.map Call.job) x ∧
      l'.view h' = { l.view h with
        registry := h'.inflight
        job := Function.update (l.view h).job n (k'.map Call.job)
        responses := (l.view h).responses ++ x.toList } ∧
      l'.Tidy ∧ l'.id = l.id := by
  obtain ⟨k, q, k', hk, hn, hc, rfl⟩ := stepCall_course hs
  have hm := List.mem_of_find?_eq_some hk
  obtain ⟨hu, x, hr, hturn, hkept⟩ := Call.step_turn (ht.calls k hm).1 hc
  refine ⟨k, k', x, hk, hturn, ?_, ⟨fun i hi => ?_, ht.callers, ht.pump⟩, rfl⟩
  · ext1
    · rfl
    · exact job_replaced (Option.isSome_iff_exists.2 ⟨k, hk⟩) fun i hi => ((hkept i hi).1.trans hn)
    · rfl
    · rfl
    · simpa [view, setPeer, responses] using hr
    · simpa [view, setPeer] using hu
    · rfl
  · rcases mem_replaced hi with he | he
    · exact ht.calls i he
    · exact ⟨(hkept i he).2, by rw [(hkept i he).1]; exact (ht.calls k hm).2⟩

theorem stepCall_steps {n : Nat} (ht : l.Tidy) (hs : stepCall sv h l n = some (h', l')) :
    Steps h l (.call n) h' l' := by
  obtain ⟨k, k', x, hk, hturn, hv, ht', hi⟩ := stepCall_turn ht hs
  have hj : (l.view h).job n = some k.job := by simp [view, hk]
  have hd : l.deed l' (.call n) = if x.isSome then .post (.call n) else .nothing := by
    have he : l'.responses = l.responses ++ x.toList := congrArg View.responses hv
    cases x <;> simp [deed, he]
  refine ⟨?_, ht', hi⟩
  rw [hd, hv]
  exact .turned hj hturn

theorem job_append {calls : List Call} {k : Call} (hn : ∀ i ∈ calls, i.serial < k.serial) :
    (fun n => ((calls ++ [k]).find? fun d => d.serial = n).map Call.job) =
      Function.update (fun n => (calls.find? fun d => d.serial = n).map Call.job) k.serial
        (some k.job) := by
  funext n
  rw [List.find?_append]
  by_cases h : n = k.serial
  · subst h
    have hf : (calls.find? fun d => d.serial = k.serial) = none := by
      simp only [List.find?_eq_none, decide_eq_true_eq]
      exact fun i hi => Nat.ne_of_lt (hn i hi)
    simp [hf]
  · have hk : ¬k.serial = n := fun e => h e.symm
    simp [h, hk]

theorem view_spawn {call : Nat → Call} (ht : l.Tidy) (hc : (call l.numbered).serial = l.numbered) :
    (l.spawn call).view h = { l.view h with
      job := Function.update (l.view h).job l.numbered (some (call l.numbered).job)
      numbered := l.numbered + 1 } := by
  refine View.ext rfl ?_ rfl rfl rfl rfl rfl
  have hn : ∀ i ∈ l.calls, i.serial < (call l.numbered).serial := by
    rw [hc]; exact fun i hi => (ht.calls i hi).2
  have hj := job_append hn
  rw [hc] at hj
  exact hj

theorem Tidy.spawn {call : Nat → Call} (ht : l.Tidy) (hk : (call l.numbered).Tidy)
    (hc : (call l.numbered).serial = l.numbered) : (l.spawn call).Tidy := by
  refine ⟨fun i hi => ?_, ht.callers, ht.pump⟩
  rcases List.mem_append.1 hi with hi | hi
  · exact ⟨(ht.calls i hi).1, Nat.lt_succ_of_lt (ht.calls i hi).2⟩
  · rw [List.mem_singleton.1 hi, hc]
    exact ⟨hk, Nat.lt_succ_self _⟩

theorem Tidy.reply {x : Response} (ht : l.Tidy) : (l.reply (.response x)).Tidy :=
  ⟨ht.calls, ht.callers, fun _ hm => ⟨x, (Pump.replying.inj hm).symm⟩⟩

theorem HandleCourse.intake {m : Message} (ht : l.Tidy) (hc : HandleCourse sv h l m h' l') :
    Intake l.id (l.view h) m (l'.view h') ∧ l'.Tidy ∧ l'.id = l.id := by
  cases hc with
  | unknown | ambiguous | duplicate => exact ⟨.refused _, ht.reply, rfl⟩
  | begun _ hb =>
      refine ⟨?_, ht.spawn trivial rfl, rfl⟩
      rw [view_spawn ht rfl]
      exact .begun hb
  | malformed | unrouted => exact ⟨.passed (by simp), ht, rfl⟩
  | cancelled hn hid hc => exact ⟨.cancelled hn hid hc, ht.reply, rfl⟩
  | @missed _ _ inflight hn hid hc =>
      have hv (b : Bool) : l.view ((({ h with inflight } : Hub).logIf b .tooLate).log
          .nothingToCancel) = { l.view h with registry := inflight } := by
        simp [view]
      refine ⟨?_, ht, rfl⟩
      rw [hv]
      exact .missed hn hid hc
  | notified hn =>
      refine ⟨?_, ht.spawn trivial rfl, rfl⟩
      rw [view_spawn ht rfl]
      exact .notified (by simp)
  | response => exact ⟨.passed (by simp), ht, rfl⟩

theorem view_answered {outbound : Flow.Channel Actor Message} (q : Pump)
    (hh : h'.inflight = h.inflight) (hu : outbound.shut = l.desk.peer.outbound.shut) :
    ({ l.setOutbound outbound with requests := q } : Link).view h' =
      { l.view h with pump := q, responses := (l.setOutbound outbound).responses } := by
  simp [view, setOutbound, setPeer, call?, responses, hh, hu]

/-- The pump is rid of its answer, and takes messages again. -/
theorem Steps.of_answered {outbound : Flow.Channel Actor Message} {answer : Flow.Channel.Answer}
    {x : Response} (ht : l.Tidy) (hp : l.requests = .replying (.response x))
    (hh : h'.inflight = h.inflight) (ha : answer ≠ .waiting)
    (ho : l.desk.peer.outbound.offer .requests (.response x) = (outbound, answer)) :
    Steps h l .requests h' { l.setOutbound outbound with requests := .taking } := by
  have hm : l.inHand? = none := by simp [inHand?, hp]
  obtain ⟨hu, hr⟩ := Peer.offered ho
  have he : ({ l.setOutbound outbound with requests := .taking } : Link).responses =
      if answer = .accepted then l.responses ++ [x] else l.responses := by
    simpa [responses, setOutbound, setPeer, Message.response?] using hr
  have he' : (l.setOutbound outbound).responses =
      if answer = .accepted then l.responses ++ [x] else l.responses := he
  refine ⟨?_, ⟨ht.calls, ht.callers, by simp⟩, rfl⟩
  rw [view_answered .taking hh hu, he']
  cases answer with
  | waiting => contradiction
  | accepted =>
      have hd : l.deed { l.setOutbound outbound with requests := .taking } .requests =
          .post .requests := by
        simp [deed, hm, he]
      rw [hd]
      exact .posted hp
  | refused =>
      have hd : l.deed { l.setOutbound outbound with requests := .taking } .requests = .nothing := by
        simp [deed, hm, he]
      rw [hd]
      exact .unsent hp ((Flow.Channel.offer_refused ..).1 (congrArg Prod.snd ho))

theorem stepRequests_steps (ht : l.Tidy) (hs : stepRequests sv h l = some (h', l')) :
    Steps h l .requests h' l' := by
  cases stepRequests_course hs with
  | @ended f hp hf =>
      have hm : l.inHand? = none := by simp [inHand?, hp]
      have hd : l.deed { l with fanout := f, requests := .done } .requests = .nothing := by
        simp [deed, hm, responses]
      refine ⟨?_, ⟨ht.calls, ht.callers, by simp⟩, rfl⟩
      rw [hd]
      exact .ended hp
  | @received f m hp hf =>
      have hm : l.inHand? = none := by simp [inHand?, hp]
      have hd : l.deed { l with fanout := f, requests := .handling m } .requests = .nothing := by
        simp [deed, hm, responses]
      refine ⟨?_, ⟨ht.calls, ht.callers, by simp⟩, rfl⟩
      rw [hd]
      exact .received hp
  | @handled m _ _ hp hh =>
      have htp : ({ l with requests := .taking } : Link).Tidy := ⟨ht.calls, ht.callers, by simp⟩
      obtain ⟨hi, ht', hid⟩ := hh.intake htp
      have hd : l.deed l' .requests = .take m := by simp [deed, inHand?_eq_some.2 hp]
      refine ⟨?_, ht', hid⟩
      rw [hd]
      exact .handled hp hi
  | posted hp ho =>
      obtain ⟨x, rfl⟩ := ht.pump _ hp
      exact .of_answered ht hp rfl (by simp) ho
  | @waiting _ outbound hp ho =>
      obtain ⟨x, rfl⟩ := ht.pump _ hp
      obtain ⟨hu, hr⟩ := Peer.offered ho
      have hv : (l.setOutbound outbound).view h = l.view h := by
        simpa [view, setOutbound, setPeer, call?, responses, hu] using hr
      exact .of_view_eq ht (.inr (by simp [inHand?, hp])) hv rfl rfl rfl
  | refused hp ho =>
      obtain ⟨x, rfl⟩ := ht.pump _ hp
      exact .of_answered ht hp (by simp) (by simp) ho

/-- Every step of a connection is one of the changes, and leaves it tidy. -/
theorem step_steps (ht : l.Tidy) (hs : l.step sv h who = some (h', l')) : Steps h l who h' l' := by
  cases who with
  | writer => exact stepWriter_steps ht hs
  | reader => exact stepReader_steps ht hs
  | requests => exact stepRequests_steps ht hs
  | responses => exact stepResponses_steps ht hs
  | supervisor => exact stepSupervisor_steps ht hs
  | call n => exact stepCall_steps ht hs
  | caller n => exact stepCaller_steps ht hs

end Link

end Parley.Dispatch
