import Parley.Proofs.Dispatch.Handling

namespace Parley.Dispatch

namespace Link

variable {sv : Service} {h h' : Hub} {l l' : Link} {n : Nat} {m : Message}

inductive ResponsesCourse (h : Hub) (l : Link) : Hub → Link → Prop
  | ended {f : Flow.Fanout Message} (hf : l.fanout.receive responseQueue = (f, .closed)) :
      ResponsesCourse h l h { l with fanout := f, responsesDone := true }
  | fulfilled {f : Flow.Fanout Message} {r : Response}
      (hf : l.fanout.receive responseQueue = (f, .item (.response r))) :
      ResponsesCourse h l (h.logIf (!(l.desk.peer.pending.fulfill r).2) .unexpected)
        ({ l with fanout := f }.setPeer
          { l.desk.peer with pending := (l.desk.peer.pending.fulfill r).1 })
  | skipped {f : Flow.Fanout Message} {m : Message} (hm : ∀ r, m ≠ .response r)
      (hf : l.fanout.receive responseQueue = (f, .item m)) :
      ResponsesCourse h l h { l with fanout := f }

theorem stepResponses_course (hs : stepResponses h l = some (h', l')) :
    l.responsesDone = false ∧ ResponsesCourse h l h' l' := by
  simp only [stepResponses] at hs
  split at hs
  · cases hs
  · next hd =>
    refine ⟨by simpa using hd, ?_⟩
    split at hs
    · cases hs
    · next f hf =>
      cases hs
      exact .ended hf
    · next f r hf =>
      cases hs
      exact .fulfilled hf
    · next f m hm hf =>
      cases hs
      exact .skipped hm hf

theorem stepResponses_footprint (hs : stepResponses h l = some (h', l')) :
    h'.inflight = h.inflight ∧ ∃ responsesDone fanout pending,
      l' = { l.setPeer { l.desk.peer with pending } with responsesDone, fanout } := by
  cases (stepResponses_course hs).2 with
  | ended | skipped => exact ⟨rfl, _, _, l.desk.peer.pending, rfl⟩
  | fulfilled => exact ⟨by simp only [Hub.logIf]; split <;> rfl, _, _, _, rfl⟩

inductive WriterCourse (sv : Service) (h : Hub) (l : Link) : Hub → Link → Prop
  | left (hc : h.isStopped l.id = true) : WriterCourse sv h l h l.endWriting
  | skipped {m : Message} (hm : l.desk.peer.outbound.next? = some m)
      (he : sv.codec.encode m = none) :
      WriterCourse sv h l (h.log (Log.Event.unencodable.within (.writing l.id.text)))
        (l.setOutbound l.desk.peer.outbound.take)
  | written {m : Message} {body : Bytes} (hm : l.desk.peer.outbound.next? = some m)
      (he : sv.codec.encode m = some body) : WriterCourse sv h l h
        { l.setOutbound l.desk.peer.outbound.take with written := l.written ++ [body] }
  | failed {m : Message} (hm : l.desk.peer.outbound.next? = some m) :
      WriterCourse sv h l
        ((h.log (Log.Event.unwritable.within (.writing l.id.text))).fire l.id .connection)
        (l.setOutbound l.desk.peer.outbound.take).endWriting

theorem stepWriter_course (hs : stepWriter sv h l = some (h', l')) :
    l.writerDone = false ∧ WriterCourse sv h l h' l' := by
  simp only [stepWriter] at hs
  split at hs
  · cases hs
  · next hd =>
    refine ⟨by simpa using hd, ?_⟩
    split at hs
    · next hc =>
      cases hs
      exact .left hc
    · split at hs
      · cases hs
      · next m hm =>
        split at hs
        · next he =>
          cases hs
          exact .skipped hm he
        · next body he =>
          split at hs <;> cases hs
          · exact .written hm he
          · exact .failed hm

theorem stepWriter_footprint (hs : stepWriter sv h l = some (h', l')) :
    ∃ writerDone written outbound, l' = { l.setOutbound outbound with writerDone, written } ∧
      (writerDone = l.writerDone ∨ writerDone = true ∧ outbound.shut = true) := by
  cases (stepWriter_course hs).2 with
  | left => exact ⟨_, _, _, rfl, .inr ⟨rfl, rfl⟩⟩
  | skipped => exact ⟨l.writerDone, l.written, l.desk.peer.outbound.take, rfl, .inl rfl⟩
  | written => exact ⟨_, _, _, rfl, .inl rfl⟩
  | failed => exact ⟨_, _, _, rfl, .inr ⟨rfl, rfl⟩⟩

inductive SupervisorCourse (h : Hub) (l : Link) : Hub → Link → Prop
  | reader (hn : l.supervisor = .awaitingReader) (hd : l.reader = .done) :
      SupervisorCourse h l h { l with supervisor := .awaitingRequests }
  | requests (hn : l.supervisor = .awaitingRequests) (hd : l.requests = .done) :
      SupervisorCourse h l h { l with supervisor := .awaitingResponses }
  | responses (hn : l.supervisor = .awaitingResponses) (hd : l.responsesDone = true) :
      SupervisorCourse h l h { l with supervisor := .withdrawing }
  | withdrawn (hn : l.supervisor = .withdrawing) :
      SupervisorCourse h l { h with inflight := (h.inflight.withdraw l.id).1 }
        { l with supervisor := .seizing (h.inflight.ofConnection l.id) }
  | seized {t : Ticket TokenName} {ts : List (Ticket TokenName)}
      (hn : l.supervisor = .seizing (t :: ts)) :
      SupervisorCourse h l { h with inflight := h.inflight.seize t }
        { l with supervisor := .firing t ts }
  | fired {t : Ticket TokenName} {ts : List (Ticket TokenName)} (hn : l.supervisor = .firing t ts) :
      SupervisorCourse h l { h with inflight := h.inflight.fire t.token.name }
        { l with supervisor := .seizing ts }
  | emptied (hn : l.supervisor = .seizing []) :
      SupervisorCourse h l h { l with supervisor := .closing }
  | closed (hn : l.supervisor = .closing) :
      SupervisorCourse h l h
        { l.setPeer { l.desk.peer with pending := l.desk.peer.pending.close.1 } with
          supervisor := .dismissing }
  | dismissed (hn : l.supervisor = .dismissing) :
      SupervisorCourse h l (h.fire l.id .handlers) { l with supervisor := .stopping }
  | stopped (hn : l.supervisor = .stopping) :
      SupervisorCourse h l (h.fire l.id .connection) { l with supervisor := .awaitingWriter }
  | writer (hn : l.supervisor = .awaitingWriter) (hd : l.writerDone = true) :
      SupervisorCourse h l (h.log .closed) { l with supervisor := .done }

theorem stepSupervisor_course (hs : stepSupervisor h l = some (h', l')) :
    SupervisorCourse h l h' l' := by
  simp only [stepSupervisor] at hs
  split at hs
  · cases hs
  · next hn =>
    split at hs <;> cases hs
    next hd => exact .reader hn hd
  · next hn =>
    split at hs <;> cases hs
    next hd => exact .requests hn hd
  · next hn =>
    split at hs <;> cases hs
    next hd => exact .responses hn hd
  · next hn =>
    cases hs
    exact .withdrawn hn
  · next hn =>
    cases hs
    exact .emptied hn
  · next t ts hn =>
    cases hs
    exact .seized hn
  · next t ts hn =>
    cases hs
    exact .fired hn
  · next hn =>
    cases hs
    exact .closed hn
  · next hn =>
    cases hs
    exact .dismissed hn
  · next hn =>
    cases hs
    exact .stopped hn
  · next hn =>
    split at hs <;> cases hs
    next hd => exact .writer hn hd

theorem stepSupervisor_footprint (hs : stepSupervisor h l = some (h', l')) :
    ∃ supervisor pending, l' = { l.setPeer { l.desk.peer with pending } with supervisor } := by
  cases stepSupervisor_course hs with
  | closed => exact ⟨_, _, rfl⟩
  | _ => exact ⟨_, l.desk.peer.pending, rfl⟩

def replaced (calls : List Call) (serial : Nat) : Option Call → List Call
  | some i => calls.map fun d => if d.serial = serial then i else d
  | none => calls.filter fun d => d.serial ≠ serial

/-- A call takes a step, and nobody else does anything. -/
theorem stepCall_course (hs : stepCall sv h l n = some (h', l')) : ∃ k p' k',
    l.call? n = some k ∧ k.serial = n ∧ k.step sv h l.desk.peer l.id = some (h', p', k') ∧
      l' = { l.setPeer p' with calls := replaced l.calls n k' } := by
  simp only [stepCall, Option.bind_eq_bind, Option.bind_eq_some_iff] at hs
  obtain ⟨k, hk, ⟨g, p', k'⟩, hc, hs⟩ := hs
  cases hs
  exact ⟨k, p', k', hk, serial_of_call? hk, hc, by cases k' <;> rfl⟩

theorem stepCall_footprint (hs : stepCall sv h l n = some (h', l')) :
    ∃ peer calls, l' = { l.setPeer peer with calls } := by
  obtain ⟨_, _, _, -, -, -, rfl⟩ := stepCall_course hs
  exact ⟨_, _, rfl⟩

theorem stepCaller_footprint {who : Actor} (hs : stepCaller h l who = some (h', l')) :
    ∃ desk, l' = { l with desk } := by
  simp only [stepCaller, Option.map_eq_some_iff] at hs
  obtain ⟨desk, -, hs⟩ := hs
  cases hs
  exact ⟨_, rfl⟩

end Link

end Parley.Dispatch
