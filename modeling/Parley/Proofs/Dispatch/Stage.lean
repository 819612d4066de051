import Parley.Proofs.Dispatch.Errand

namespace Parley.Dispatch

def Supervisor.stage : Supervisor → Nat
  | .awaitingReader => 0
  | .awaitingRequests => 1
  | .awaitingResponses => 2
  | .withdrawing => 3
  | .seizing _ | .firing _ _ => 4
  | .closing => 5
  | .dismissing => 6
  | .stopping => 7
  | .awaitingWriter => 8
  | .done => 9

section Change

variable {c : ConnectionId} {v w : View} {e : Deed}

theorem Change.pump_done (hc : Change c v e w) (hp : v.pump = .done) :
    w.pump = .done ∧ (∀ m, e ≠ .take m) ∧ e ≠ .post .requests := by
  cases hc with
  | ended hq | received hq | handled hq | posted hq | unsent hq => rw [hp] at hq; cases hq
  | turned _ _ =>
      refine ⟨hp, fun m => ?_, ?_⟩ <;> split <;> simp
  | _ => exact ⟨hp, by simp, by simp⟩

theorem Change.entries_of_done {t : Ticket TokenName} (hc : Change c v e w) (hp : v.pump = .done)
    (ht : t ∈ w.registry.entries) : t ∈ v.registry.entries := by
  cases hc with
  | handled hq => rw [hp] at hq; cases hq
  | withdrawn => exact (InFlight.mem_entries_withdraw.1 ht).1
  | turned hj hturn =>
      cases hturn with
      | moved | finished | answered | lost => exact ht
      | abandoned | discarded | settled => exact Job.entries_release_subset _ _ ht
      | concluded => exact (Job.entries_claim _ _) ▸ ht
  | _ => exact ht

end Change

end Parley.Dispatch

namespace Parley.Errands

variable {κ : Type} [DecidableEq κ] {v w : Errands κ} {e : Event}

theorem Change.shut_mono (hc : Change v e w) (hs : v.shut = true) : w.shut = true := by
  cases hc with
  | idle h => exact h hs
  | _ => exact hs

end Parley.Errands

namespace Parley.Dispatch.Link

variable {sv : Service} {c : ConnectionId} {h h' : Hub} {l l' : Link} {who : Actor} {e : Deed}
  {w : View} {ev : Errands.Event}

/-- What is done stays done. A writer that is done has shut the queue. -/
structure Follows (l l' : Link) : Prop where
  reader : l.reader = .done → l'.reader = .done
  requests : l.requests = .done → l'.requests = .done
  responses : l.responsesDone = true → l'.responsesDone = true
  writer : l.writerDone = true → l'.writerDone = true
  shut : l'.writerDone = true → l.writerDone = true ∨ l'.desk.peer.outbound.shut = true

theorem Follows.of_eq (hr : l'.reader = l.reader) (hq : l'.requests = l.requests)
    (hp : l'.responsesDone = l.responsesDone) (hw : l'.writerDone = l.writerDone) :
    l.Follows l' :=
  ⟨hr.trans, hq.trans, hp.trans, hw.trans, fun h => .inl (hw.symm.trans h)⟩

theorem step_follows (hw : who ≠ .supervisor) (hs : l.step sv h who = some (h', l')) :
    l.Follows l' ∧ l'.supervisor = l.supervisor := by
  cases who with
  | supervisor => contradiction
  | writer =>
      obtain ⟨w, _, _, rfl, hd⟩ := stepWriter_footprint hs
      refine ⟨⟨fun h => h, fun h => h, fun h => h, fun h => ?_, fun h => ?_⟩, rfl⟩
      · exact hd.elim (fun hd => hd.trans h) (·.1)
      · exact hd.imp (fun hd => hd.symm.trans h) (·.2)
  | reader =>
      have hlive : l.reader ≠ .done := fun hr => by simp [step, stepReader, hr] at hs
      obtain ⟨-, _, _, _, rfl⟩ := stepReader_footprint hs
      exact ⟨⟨fun h => absurd h hlive, fun h => h, fun h => h, fun h => h, .inl⟩, rfl⟩
  | requests =>
      have hlive : l.requests ≠ .done := fun hr => by simp [step, stepRequests, hr] at hs
      obtain ⟨_, _, _, _, _, rfl⟩ := stepRequests_footprint hs
      exact ⟨⟨fun h => h, fun h => absurd h hlive, fun h => h, fun h => h, .inl⟩, rfl⟩
  | responses =>
      have hlive : l.responsesDone ≠ true := fun hr => by simp [step, stepResponses, hr] at hs
      obtain ⟨-, _, _, _, rfl⟩ := stepResponses_footprint hs
      exact ⟨⟨fun h => h, fun h => h, fun h => absurd h hlive, fun h => h, .inl⟩, rfl⟩
  | call n =>
      obtain ⟨_, _, rfl⟩ := stepCall_footprint hs
      exact ⟨.of_eq rfl rfl rfl rfl, rfl⟩
  | caller n =>
      obtain ⟨_, rfl⟩ := stepCaller_footprint hs
      exact ⟨.of_eq rfl rfl rfl rfl, rfl⟩

structure Staged (c : ConnectionId) (h : Hub) (l : Link) : Prop where
  reader : 1 ≤ l.supervisor.stage → l.reader = .done
  requests : 2 ≤ l.supervisor.stage → l.requests = .done
  responses : 3 ≤ l.supervisor.stage → l.responsesDone = true
  entries : 4 ≤ l.supervisor.stage → ∀ t ∈ h.inflight.entries, t.connection ≠ c
  pending : 6 ≤ l.supervisor.stage → l.desk.peer.pending.closed = true
  fired : 7 ≤ l.supervisor.stage → (c, .handlers) ∈ h.inflight.fired
  writer : 9 ≤ l.supervisor.stage → l.writerDone = true
  shut : l.writerDone = true → l.desk.peer.outbound.shut = true

/-- As long as the supervisor waits, what has been done stays done. -/
theorem Staged.change (hl : l.Staged c h) (hc : Change c (l.view h) e w)
    (hw : View.Like c w (l'.view h')) (he : l.errands.Change ev l'.errands) (hf : l.Follows l')
    (hs : l'.supervisor = l.supervisor) : l'.Staged c h' where
  reader hn := hf.reader (hl.reader (hs ▸ hn))
  requests hn := hf.requests (hl.requests (hs ▸ hn))
  responses hn := hf.responses (hl.responses (hs ▸ hn))
  entries hn t ht htc := by
    rw [hs] at hn
    -- Entries are made by the request pump, and that has been done since the second stage.
    have hv := hc.entries_of_done (hl.requests (by omega)) ((hw.registry.entries htc).1 ht)
    exact hl.entries hn t hv htc
  fired hn := (hw.registry.fired _).2 (hc.fired (hl.fired (hs ▸ hn)))
  pending hn := he.closed_mono (hl.pending (hs ▸ hn))
  writer hn := hf.writer (hl.writer (hs ▸ hn))
  shut hn := (hf.shut hn).elim (fun h => he.shut_mono (hl.shut h)) fun h => h

theorem stepSupervisor_stage (hs : stepSupervisor h l = some (h', l')) :
    l.supervisor.stage ≤ l'.supervisor.stage ∧ l'.supervisor.stage ≤ l.supervisor.stage + 1 := by
  cases stepSupervisor_course hs with
  | reader hn | requests hn | responses hn | withdrawn hn | seized hn | fired hn | emptied hn
  | closed hn | dismissed hn | stopped hn | writer hn => simp [hn, Supervisor.stage]

theorem Staged.supervise (hl : l.Staged c h) (hi : l.id = c)
    (hs : stepSupervisor h l = some (h', l')) : l'.Staged c h' := by
  subst hi
  -- Each stage is reached by one step, and what is done by that is not undone by the later ones.
  have hc := stepSupervisor_course hs
  constructor
  case reader =>
    intro hn
    cases hc with
    | reader _ hd => exact hd
    | requests h | responses h | withdrawn h | seized h | fired h | emptied h | closed h
    | dismissed h | stopped h | writer h => exact hl.reader (by simp [h, Supervisor.stage])
  case requests =>
    intro hn
    cases hc with
    | reader => simp [Supervisor.stage] at hn
    | requests _ hd => exact hd
    | responses h | withdrawn h | seized h | fired h | emptied h | closed h | dismissed h
    | stopped h | writer h => exact hl.requests (by simp [h, Supervisor.stage])
  case responses =>
    intro hn
    cases hc with
    | reader | requests => simp [Supervisor.stage] at hn
    | responses _ hd => exact hd
    | withdrawn h | seized h | fired h | emptied h | closed h | dismissed h | stopped h
    | writer h => exact hl.responses (by simp [h, Supervisor.stage])
  case entries =>
    intro hn
    cases hc with
    | reader | requests | responses => simp [Supervisor.stage] at hn
    | withdrawn => exact fun t ht => (InFlight.mem_entries_withdraw.1 ht).2
    | seized h | fired h | emptied h | closed h | dismissed h | stopped h | writer h =>
        exact hl.entries (by simp [h, Supervisor.stage])
  case pending =>
    intro hn
    cases hc with
    | reader | requests | responses | withdrawn | seized | fired | emptied =>
        simp [Supervisor.stage] at hn
    | closed => rfl
    | dismissed h | stopped h | writer h => exact hl.pending (by simp [h, Supervisor.stage])
  case fired =>
    intro hn
    cases hc with
    | reader | requests | responses | withdrawn | seized | fired | emptied | closed =>
        simp [Supervisor.stage] at hn
    | dismissed => exact InFlight.mem_fired_fire.2 (.inr rfl)
    | stopped h =>
        exact InFlight.mem_fired_fire.2 (.inl (hl.fired (by simp [h, Supervisor.stage])))
    | writer h => exact hl.fired (by simp [h, Supervisor.stage])
  case writer =>
    intro hn
    cases hc with
    | writer _ hd => exact hd
    | _ => simp [Supervisor.stage] at hn
  case shut =>
    cases hc with
    | _ => exact hl.shut

theorem staged_attach (sv : Service) (c : ConnectionId) (h : Hub) : (attach sv c).Staged c h := by
  constructor <;> simp [attach, Supervisor.stage]

end Parley.Dispatch.Link

namespace Parley.Dispatcher

open Dispatch

variable {d d' : Dispatcher} {c : ConnectionId} {l : Link} {t : Option Task}

theorem Next.staged (hd : d.Sound) (h : Next d t d') (hl : d.link? c = some l)
    (hs : l.Staged c d.hub) : ∃ l', d'.link? c = some l' ∧ l'.Staged c d'.hub ∧
      (l'.supervisor = l.supervisor ∨ t = some (c, .supervisor) ∧
        Link.stepSupervisor d.hub l = some (d'.hub, l')) := by
  obtain ⟨l', e, w, hp⟩ := h.passes hd hl
  obtain ⟨m, hm, he⟩ := h.errands hd hl
  obtain rfl : m = l' := Option.some.inj (hm.symm.trans hp.link)
  refine ⟨m, hm, ?_⟩
  rcases hp.origin with ⟨who, rfl, hstep, -⟩ | ⟨ha, -⟩
  · by_cases hw : who = .supervisor
    · subst hw
      exact ⟨hs.supervise (id_of_link? hl) hstep, .inr ⟨rfl, hstep⟩⟩
    · obtain ⟨hf, hsup⟩ := Link.step_follows hw hstep
      exact ⟨hs.change hp.change hp.like he hf hsup, .inl hsup⟩
  · obtain ⟨_, _, _, _, _, _, _, rfl⟩ := ha
    exact ⟨hs.change hp.change hp.like he (.of_eq rfl rfl rfl rfl) rfl, .inl rfl⟩

theorem Reachable.staged {x : Dispatcher × Ledger} (h : Reachable c x) (hl : x.1.link? c = some l) :
    l.Staged c x.1.hub := by
  refine h.invariant (I := fun h l _ => l.Staged c h) hl (fun _ _ => Link.staged_attach _ _ _) ?_
  intro y z t m m' hy hn _ hm hm' hs
  obtain ⟨l', hl', hs', -⟩ := hn.staged hy.accounted.sound hm hs
  obtain rfl : l' = m' := Option.some.inj (hl'.symm.trans hm')
  exact hs'

def Onward : Dispatcher → Dispatcher → Prop := Relation.ReflTransGen fun d d' => ∃ t, Next d t d'

theorem isClosed_eq_true :
    d.isClosed c = true ↔ ∃ l, d.link? c = some l ∧ l.supervisor = .done := by
  simp only [isClosed, Option.any_eq_true, Link.isClosed, decide_eq_true_eq]

theorem Next.linked (hd : d.Sound) (h : Next d t d') (hc : d.link? c ≠ none) :
    d'.link? c ≠ none := by
  obtain ⟨l, hl⟩ := Option.ne_none_iff_exists'.1 hc
  obtain ⟨l', e, w, hp⟩ := h.passes hd hl
  rw [hp.link]
  nofun

/-- A connection that has been cleaned up stays so: its supervisor has no more steps to take. -/
theorem Next.closed (hd : d.Sound) (h : Next d t d') (hc : d.isClosed c = true) :
    d'.isClosed c = true := by
  obtain ⟨l, hl, hdone⟩ := isClosed_eq_true.1 hc
  obtain ⟨l', e, w, hp⟩ := h.passes hd hl
  refine isClosed_eq_true.2 ⟨l', hp.link, ?_⟩
  rcases hp.origin with ⟨who, -, hstep, -⟩ | ⟨ha, -⟩
  · have hw : who ≠ .supervisor := by
      rintro rfl
      simp [Link.step, Link.stepSupervisor, hdone] at hstep
    exact (Link.step_follows hw hstep).2.trans hdone
  · obtain ⟨_, _, _, _, _, _, _, rfl⟩ := ha
    exact hdone

namespace Onward

theorem next (h : Next d t d') : Onward d d' := .single ⟨t, h⟩

theorem kept {P : Dispatcher → Prop}
    (hP : ∀ {d d' : Dispatcher} {t}, d.Sound → Next d t d' → P d → P d') (h : Onward d d')
    (hd : d.Sound) (hp : P d) : d'.Sound ∧ P d' := by
  induction h with
  | refl => exact ⟨hd, hp⟩
  | tail _ hn ih =>
      obtain ⟨t, hn⟩ := hn
      exact ⟨ih.1.next hn, hP ih.1 hn ih.2⟩

theorem sound (h : Onward d d') (hd : d.Sound) : d'.Sound :=
  (h.kept (P := fun _ => True) (fun _ _ _ => trivial) hd trivial).1

theorem linked (h : Onward d d') (hd : d.Sound) (hc : d.link? c ≠ none) : d'.link? c ≠ none :=
  (h.kept (P := fun d => d.link? c ≠ none) (fun hd hn => hn.linked hd) hd hc).2

theorem closed (h : Onward d d') (hd : d.Sound) (hc : d.isClosed c = true) :
    d'.isClosed c = true :=
  (h.kept (P := fun d => d.isClosed c = true) (fun hd hn => hn.closed hd) hd hc).2

theorem closeAll (cs : List ConnectionId) (d : Dispatcher) : Onward d (cs.foldl close d) := by
  induction cs generalizing d with
  | nil => exact .refl
  | cons c cs ih => exact .head ⟨none, .close d c⟩ (ih (d.close c))

end Onward

end Parley.Dispatcher
