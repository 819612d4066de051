import Parley.Proofs.Dispatch.Errand

namespace Parley.Dispatch.Link

def IsLive (l : Link) (a : Awaited) : Prop := ∃ who, l.errands.Awaits who a

/-- The request `a` has not ended, and the one who waited for it has been dropped. -/
def IsDropped (l : Link) (k : Docket) (a : Awaited) : Prop :=
  a ∈ k.registered ∧ ¬l.IsLive a ∧ ∀ x ∈ k.ended, x.request ≠ a

end Parley.Dispatch.Link

namespace Parley.Dispatcher

open Dispatch

variable {d d' : Dispatcher} {c : ConnectionId} {l l' : Link} {k : Docket} {a : Awaited}
  {id : RequestId} {s : Nat}

theorem slot_owner (h : Docketed.Sound c (d, k)) (hl : d.link? c = some l)
    (hs : (id, s) ∈ l.desk.peer.pending.slots) :
    ∃ a, a.id = id ∧ a.slot = s ∧ (l.IsLive a ∨ l.IsDropped k a) := by
  have hv := h.errands hl
  obtain ⟨a, ha, rfl, rfl⟩ := hv.slotted.owner hs
  refine ⟨a, rfl, rfl, Classical.or_iff_not_imp_left.2 fun hn => ⟨ha, hn, fun x hx he => ?_⟩⟩
  subst he
  exact (hv.finished.past hx).2.2 _ hs

/-- Each slot is that of a request that somebody waits for, or of one that has been dropped; an id
is refused as a duplicate only if there is such a request with it; and the slot of a request stays
when the one who waits for it is dropped. -/
theorem slots_owned (h : Docketed.Reachable c (d, k)) (hl : d.link? c = some l) :
    (∀ id s, (id, s) ∈ l.desk.peer.pending.slots →
      ∃ a, a.id = id ∧ a.slot = s ∧ (l.IsLive a ∨ l.IsDropped k a)) ∧
    (∀ id id' s, l.desk.peer.pending.register id s = .error (.duplicateId id') →
      id' = id ∧ ∃ a, a.id = id ∧ (id, a.slot) ∈ l.desk.peer.pending.slots ∧
        (l.IsLive a ∨ l.IsDropped k a)) ∧
    ∀ t d' l' a, Next d t d' → d'.link? c = some l' → l.IsLive a →
      l'.IsDropped (docket c k d t) a → l'.desk.peer.pending = l.desk.peer.pending := by
  have hd := h.sound
  refine ⟨fun id s hs => slot_owner hd hl hs, fun id id' s hr => ?_,
    fun t d' l' a hn hl' ha hdrop => ?_⟩
  · obtain ⟨-, ⟨s, hs⟩, rfl⟩ := Pending.register_eq_duplicate.1 hr
    obtain ⟨a, rfl, rfl, ha⟩ := slot_owner hd hl hs
    exact ⟨rfl, a, rfl, hs, ha⟩
  · obtain ⟨who, ha⟩ := ha
    obtain ⟨-, hno, hend⟩ := hdrop
    obtain ⟨m, hm, hc⟩ := hn.errands hd.sound hl
    obtain rfl : m = l' := Option.some.inj (hm.symm.trans hl')
    -- It is the waiting that has ended, and not the request: so the change was a drop.
    refine (hc.dropped_pending ha (fun hw => hno ⟨who, hw⟩) fun x hx => hend x ?_).2
    simp [docket, hl, hx, Docket.record]

def forsaken : Option (Dispatcher × Docket) :=
  let request := Message.request ⟨.number 1, "ask", none⟩
  let cancellation := Message.notification ⟨Message.cancelMethod, some (.obj [("id", .int 1)])⟩
  let spec : RequestSpec := { method := "m", id := some (.number 7) }
  let program : Program := .send (.request spec) fun _ => .finish (.ok .null)
  let service : Service := { routes := { entries := [(.any, fun _ _ => program)] } }
  let reading : List Docketed.Move := [.act .reader, .act .reader, .act .reader]
  let calling : List Docketed.Move := [.act (.call 0), .act (.call 0), .act (.call 0), .act (.call 0)]
  let pumping : List Docketed.Move := [.act .requests, .act .requests]
  Docketed.follow ⟨"c"⟩ (.arrive (Frame.encode request.encode) :: reading ++ pumping ++ calling ++
    reading ++ .arrive (Frame.encode cancellation.encode) :: reading ++ pumping ++ [.act (.call 0)])
    ((serving service { store := { maxIdle := 0 } }).attach ⟨"c"⟩, {})

theorem forsaken_spec : ∃ d k l, Docketed.Reachable ⟨"c"⟩ (d, k) ∧ d.link? ⟨"c"⟩ = some l ∧
    d.hub.isStopped ⟨"c"⟩ = false ∧ l.desk.peer.pending.closed = false ∧
    l.desk.peer.pending.slots = [(.number 7, 0)] ∧ ∀ a, ¬l.IsLive a := by
  have hs : (forsaken.bind fun x => (x.1.link? ⟨"c"⟩).map fun l => (x.1.hub.isStopped ⟨"c"⟩,
      l.desk.peer.pending.closed, l.desk.peer.pending.slots, l.calls.isEmpty,
      l.desk.callers.isEmpty)) = some (false, false, [(.number 7, 0)], true, true) := by
    decide +kernel
  obtain ⟨⟨d, k⟩, hx, h⟩ := Option.bind_eq_some_iff.1 hs
  obtain ⟨l, hl, h⟩ := Option.map_eq_some_iff.1 h
  simp only [Prod.mk.injEq, List.isEmpty_iff] at h
  obtain ⟨ho, hc, hslots, hcalls, hcallers⟩ := h
  refine ⟨d, k, l, Docketed.reachable_of_follow _ _ hx, hl, ho, hc, hslots, fun a ⟨who, ha⟩ => ?_⟩
  cases who <;>
    simp [Errands.Awaits, Link.errands, Peer.errands, Link.errand?, Link.call?, hcalls, hcallers] at ha

theorem slots_owned_of_forsaken : ∃ d k l, Docketed.Reachable ⟨"c"⟩ (d, k) ∧
    d.link? ⟨"c"⟩ = some l ∧ ∃ a, a.id = .number 7 ∧ a.slot = 0 ∧ l.IsDropped k a := by
  obtain ⟨d, k, l, hr, hl, -, -, hslots, hno⟩ := forsaken_spec
  obtain ⟨a, hid, hs, ha⟩ := (slots_owned hr hl).1 (.number 7) 0 (by simp [hslots])
  exact ⟨d, k, l, hr, hl, a, hid, hs, ha.resolve_left (hno a)⟩

theorem duplicate_without_request : ∃ d k l, Docketed.Reachable ⟨"c"⟩ (d, k) ∧
    d.link? ⟨"c"⟩ = some l ∧ d.hub.isStopped ⟨"c"⟩ = false ∧ (∀ a, ¬l.IsLive a) ∧
    l.desk.peer.pending.contains (.number 7) = true ∧
    l.desk.peer.pending.register (.number 7) l.desk.peer.nextSlot =
      .error (.duplicateId (.number 7)) := by
  obtain ⟨d, k, l, hr, hl, ho, hc, hslots, hno⟩ := forsaken_spec
  refine ⟨d, k, l, hr, hl, ho, hno, ?_, Pending.register_eq_duplicate.2 ⟨hc, ⟨0, ?_⟩, rfl⟩⟩
  · simp [Pending.contains, hslots]
  · simp [hslots]

end Parley.Dispatcher
