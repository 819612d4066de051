import Parley.Proofs.Dispatch.Run

namespace Parley.Dispatch

def Reader.after (id : Nat) : Flow.Fanout.Progress → Reader
  | .finished _ => .reading
  | _ => .publishing id

namespace Link

variable {sv : Service} {h h' : Hub} {l l' : Link} {n : Nat} {m : Message}

/-- What a step of the reader comes to. It ends, or it goes on with the message that it publishes,
or it reads on, and may come to the end of a frame. -/
inductive ReaderCourse (sv : Service) (h : Hub) (l : Link) : Hub → Link → Prop
  | abandoned {id : Nat} (hr : l.reader = .publishing id) (hc : h.isStopped l.id = true) :
      ReaderCourse sv h l h { l with fanout := l.fanout.abandon id }.endReading
  | moved {id : Nat} {f : Flow.Fanout Message} {pr : Flow.Fanout.Progress}
      (hr : l.reader = .publishing id) (hf : l.fanout.step? id = some (f, pr)) :
      ReaderCourse sv h l h { l with fanout := f, reader := .after id pr }
  | stopped (hr : l.reader = .reading) (hc : h.isStopped l.id = true) :
      ReaderCourse sv h l h l.endReading
  | filled {i : Inbound} (hr : l.reader = .reading) (hn : l.inbound.next? = some (i, none)) :
      ReaderCourse sv h l h { l with inbound := i }
  | skipped {i : Inbound} {body : Bytes} (hr : l.reader = .reading)
      (hn : l.inbound.next? = some (i, some (.frame body))) (hd : sv.codec.decode body = none) :
      ReaderCourse sv h l (publish sv h { l with inbound := i } body).1 { l with inbound := i }
  | published {i : Inbound} {body : Bytes} {m : Message} (hr : l.reader = .reading)
      (hn : l.inbound.next? = some (i, some (.frame body))) (hd : sv.codec.decode body = some m) :
      ReaderCourse sv h l (publish sv h { l with inbound := i } body).1 { l with
        inbound := i
        fanout := (l.fanout.publish m).1
        reader := .publishing (l.fanout.publish m).2 }
  | ended {i : Inbound} {e : Log.Event} (hr : l.reader = .reading)
      (hn : l.inbound.next? = some (i, some .ended) ∨
        ∃ why, l.inbound.next? = some (i, some (.broken why))) :
      ReaderCourse sv h l (h.log (e.within (.reading l.id.text))) l.endReading

theorem publish_of_none {body : Bytes} (hd : sv.codec.decode body = none) :
    publish sv h l body = ((publish sv h l body).1, l) := by
  simp only [publish, hd]

theorem publish_of_some {body : Bytes} (hd : sv.codec.decode body = some m) :
    publish sv h l body = ((publish sv h l body).1, { l with
      fanout := (l.fanout.publish m).1
      reader := .publishing (l.fanout.publish m).2 }) := by
  simp only [publish, hd]

theorem stepReader_course (hs : stepReader sv h l = some (h', l')) : ReaderCourse sv h l h' l' := by
  simp only [stepReader] at hs
  split at hs
  · cases hs
  · next id hr =>
    split at hs
    · next hc =>
      cases hs
      exact .abandoned hr hc
    · split at hs
      · cases hs
      · next f n hf =>
        cases hs
        exact .moved hr hf
      · next f pr hn hf =>
        cases hs
        have he : Reader.after id pr = l.reader := by
          rw [hr]
          cases pr with
          | finished n => exact absurd rfl (hn n)
          | moved | waiting => rfl
        exact he ▸ .moved hr hf
  · next hr =>
    split at hs
    · next hc =>
      cases hs
      exact .stopped hr hc
    · split at hs
      · cases hs
      · next i hn =>
        cases hs
        exact .filled hr hn
      · next i body hn =>
        have he : publish sv h { l with inbound := i } body = (h', l') := Option.some.inj hs
        cases hd : sv.codec.decode body with
        | none =>
            rw [publish_of_none hd] at he
            cases he
            exact .skipped hr hn hd
        | some m =>
            rw [publish_of_some hd] at he
            cases he
            exact .published hr hn hd
      · next i why hn =>
        cases hs
        exact .ended hr (.inr ⟨why, hn⟩)
      · next i hn =>
        cases hs
        exact .ended hr (.inl hn)

theorem inflight_publish (sv : Service) (h : Hub) (l : Link) (body : Bytes) :
    (publish sv h l body).1.inflight = h.inflight := by
  simp only [publish]
  split <;> split <;> rfl

theorem stepReader_footprint (hs : stepReader sv h l = some (h', l')) :
    h'.inflight = h.inflight ∧
      ∃ reader inbound fanout, l' = { l with reader, inbound, fanout } := by
  cases stepReader_course hs with
  | abandoned | moved | stopped | filled | ended => exact ⟨rfl, _, _, _, rfl⟩
  | skipped | published => exact ⟨inflight_publish .., _, _, _, rfl⟩

inductive HandleCourse (sv : Service) (h : Hub) (l : Link) : Message → Hub → Link → Prop
  | unknown {q : Request} {method : String}
      (hr : sv.routes.resolve q.method = .error (.notFound method)) :
      HandleCourse sv h l (.request q) (h.log .noHandler)
        (l.reply (.failure q.id (.methodNotFound q.method)))
  | ambiguous {q : Request} {method : String} {candidates : List String}
      (hr : sv.routes.resolve q.method = .error (.ambiguous method candidates)) :
      HandleCourse sv h l (.request q) (h.log .ambiguousRoute)
        (l.reply (.failure q.id Link.ambiguous))
  | duplicate {q : Request} {handler : Handler} (hr : sv.routes.resolve q.method = .ok handler)
      (hb : h.inflight.begin? l.id q.id (Hub.callToken l.id l.numbered) = none) :
      HandleCourse sv h l (.request q) (h.log .duplicateId)
        (l.reply (.failure q.id (.invalidRequest "duplicate request id")))
  | begun {q : Request} {handler : Handler} {inflight : InFlight TokenName} {ticket : Ticket TokenName}
      (hr : sv.routes.resolve q.method = .ok handler)
      (hb : h.inflight.begin? l.id q.id (Hub.callToken l.id l.numbered) = some (inflight, ticket)) :
      HandleCourse sv h l (.request q) { h with inflight } (l.spawn fun serial =>
        { serial, handler, method := q.method, params := q.params, ticket := some ticket
          token := Hub.callToken l.id l.numbered })
  | malformed {n : Notification} (hn : n.method = Message.cancelMethod)
      (ht : cancelTarget? n.params = none) :
      HandleCourse sv h l (.notification n) (h.log .malformedCancel) l
  | cancelled {n : Notification} {id : RequestId} {inflight : InFlight TokenName}
      (hn : n.method = Message.cancelMethod) (ht : cancelTarget? n.params = some id)
      (hc : h.inflight.cancel l.id id = (inflight, true)) :
      HandleCourse sv h l (.notification n) { h.log .cancelled with inflight }
        (l.reply (.failure id .cancelled))
  | missed {n : Notification} {id : RequestId} {inflight : InFlight TokenName}
      (hn : n.method = Message.cancelMethod) (ht : cancelTarget? n.params = some id)
      (hc : h.inflight.cancel l.id id = (inflight, false)) :
      HandleCourse sv h l (.notification n)
        ((({ h with inflight } : Hub).logIf (h.inflight.contains l.id id) .tooLate).log
          .nothingToCancel) l
  | unrouted {n : Notification} {e : Route.Error} (hn : n.method ≠ Message.cancelMethod)
      (hr : sv.routes.resolve n.method = .error e) :
      HandleCourse sv h l (.notification n) (h.log .unrouted) l
  | notified {n : Notification} {handler : Handler} (hn : n.method ≠ Message.cancelMethod)
      (hr : sv.routes.resolve n.method = .ok handler) :
      HandleCourse sv h l (.notification n) h (l.spawn fun serial =>
        { serial, handler, method := n.method, params := n.params, ticket := none
          token := Hub.callToken l.id l.numbered })
  | response {r : Response} : HandleCourse sv h l (.response r) h l

theorem handle_course (hs : handle sv h l m = (h', l')) : HandleCourse sv h l m h' l' := by
  cases m with
  | request q =>
      simp only [handle, handleRequest] at hs
      split at hs
      · next hr =>
        cases hs
        exact .unknown hr
      · next hr =>
        cases hs
        exact .ambiguous hr
      · next hr =>
        split at hs
        · next hb =>
          cases hs
          exact .duplicate hr hb
        · next hb =>
          cases hs
          exact .begun hr hb
  | notification n =>
      simp only [handle] at hs
      split at hs
      · next hn =>
        simp only [cancel] at hs
        split at hs
        · next ht =>
          cases hs
          exact .malformed hn ht
        · next ht =>
          split at hs
          · next hc =>
            cases hs
            exact .cancelled hn ht hc
          · next hc =>
            cases hs
            exact .missed hn ht hc
      · next hn =>
        simp only [handleNotification] at hs
        split at hs
        · next hr =>
          cases hs
          exact .unrouted hn hr
        · next hr =>
          cases hs
          exact .notified hn hr
  | response r =>
      cases hs
      exact .response

theorem HandleCourse.footprint (hc : HandleCourse sv h l m h' l') :
    ∃ requests calls numbered, l' = { l with requests, calls, numbered } := by
  cases hc <;> exact ⟨_, _, _, rfl⟩

theorem HandleCourse.inHand? (hc : HandleCourse sv h l m h' l') (hl : l.inHand? = none) :
    l'.inHand? = none := by
  cases hc with
  | unknown | ambiguous | duplicate | cancelled => rfl
  | _ => exact hl

inductive RequestsCourse (sv : Service) (h : Hub) (l : Link) : Hub → Link → Prop
  | ended {f : Flow.Fanout Message} (hp : l.requests = .taking)
      (hf : l.fanout.receive requestQueue = (f, .closed)) :
      RequestsCourse sv h l h { l with fanout := f, requests := .done }
  | received {f : Flow.Fanout Message} {m : Message} (hp : l.requests = .taking)
      (hf : l.fanout.receive requestQueue = (f, .item m)) :
      RequestsCourse sv h l h { l with fanout := f, requests := .handling m }
  | handled {m : Message} {h' : Hub} {l' : Link} (hp : l.requests = .handling m)
      (hh : HandleCourse sv h { l with requests := .taking } m h' l')
      (hk : l'.fanout = l.fanout ∧ l'.reader = l.reader ∧ l'.desk = l.desk) :
      RequestsCourse sv h l h' l'
  | posted {m : Message} {outbound : Flow.Channel Actor Message} (hp : l.requests = .replying m)
      (ho : l.desk.peer.outbound.offer .requests m = (outbound, .accepted)) :
      RequestsCourse sv h l h { l.setOutbound outbound with requests := .taking }
  | waiting {m : Message} {outbound : Flow.Channel Actor Message} (hp : l.requests = .replying m)
      (ho : l.desk.peer.outbound.offer .requests m = (outbound, .waiting)) :
      RequestsCourse sv h l h (l.setOutbound outbound)
  | refused {m : Message} {outbound : Flow.Channel Actor Message} (hp : l.requests = .replying m)
      (ho : l.desk.peer.outbound.offer .requests m = (outbound, .refused)) :
      RequestsCourse sv h l (h.logAll Log.Event.unsent)
        { l.setOutbound outbound with requests := .taking }

theorem stepRequests_course (hs : stepRequests sv h l = some (h', l')) :
    RequestsCourse sv h l h' l' := by
  simp only [stepRequests] at hs
  split at hs
  · cases hs
  · next hp =>
    split at hs
    · cases hs
    · next f hf =>
      cases hs
      exact .ended hp hf
    · next f m hf =>
      cases hs
      exact .received hp hf
  · next m hp =>
    have hh := handle_course (Option.some.inj hs)
    obtain ⟨_, _, _, rfl⟩ := hh.footprint
    exact .handled hp hh ⟨rfl, rfl, rfl⟩
  · next m hp =>
    split at hs
    · next outbound ho =>
      split at hs <;> cases hs
      exact .waiting hp ho
    · next outbound ho =>
      cases hs
      exact .posted hp ho
    · next outbound ho =>
      cases hs
      exact .refused hp ho

theorem stepRequests_footprint (hs : stepRequests sv h l = some (h', l')) :
    ∃ requests calls numbered fanout outbound,
      l' = { l.setOutbound outbound with requests, calls, numbered, fanout } := by
  cases stepRequests_course hs with
  | ended | received => exact ⟨_, _, _, _, l.desk.peer.outbound, rfl⟩
  | handled _ hh =>
      obtain ⟨requests, calls, numbered, rfl⟩ := hh.footprint
      exact ⟨requests, calls, numbered, l.fanout, l.desk.peer.outbound, rfl⟩
  | @waiting _ outbound => exact ⟨l.requests, l.calls, l.numbered, l.fanout, outbound, rfl⟩
  | posted | refused => exact ⟨_, _, _, _, _, rfl⟩

end Link

end Parley.Dispatch
