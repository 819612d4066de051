import Parley.Proofs.Dispatch.Timetable

namespace Parley.Dispatch

namespace Call

variable {sv : Service} {h : Hub} {p : Peer Actor} {conn : ConnectionId} {k : Call} {x : Exchange}

theorem step_waiting (hx : k.phase.exchange? = some x) (hs : k.step sv h p conn = none) :
    (p.step (.call k.serial) h.now x).2 = .waiting := by
  obtain ⟨next, deadline, s, hp⟩ :
      ∃ next deadline s, k.phase = .executing (.sending x next) deadline s := by
    cases hp : k.phase with
    | executing a deadline s =>
        rw [hp] at hx
        cases a with
        | sending y next => cases hx; exact ⟨next, deadline, s, rfl⟩
        | _ => cases hx
    | _ => rw [hp] at hx; cases hx
  simp only [step, hp] at hs
  split at hs
  · cases hs
  · rcases hr : p.step (.call k.serial) h.now x with ⟨q, y | _ | outcome⟩
    · simp [Activity.step, hr] at hs
    · rfl
    · simp [Activity.step, hr] at hs

end Call

namespace Link

variable {sv : Service} {h : Hub} {l : Link} {who : Actor} {x : Exchange} {τ : Timetable}

def Idle (sv : Service) (h : Hub) (l : Link) : Prop :=
  ∀ who ∈ l.actors, who ≠ .writer → (l.step sv h who).isNone = true

instance : Decidable (l.Idle sv h) :=
  inferInstanceAs (Decidable (∀ who ∈ l.actors, who ≠ .writer → (l.step sv h who).isNone = true))

theorem mem_actors (hw : who.Sends) (hx : l.errand? who = some x) : who ∈ l.actors := by
  cases who with
  | call n =>
      obtain ⟨k, hk, -⟩ := Option.bind_eq_some_iff.1 hx
      have hn : k.serial = n := Link.serial_of_call? hk
      simp only [actors, List.mem_append, List.mem_map]
      exact .inl (.inr ⟨k, List.mem_of_find?_eq_some hk, by rw [hn]⟩)
  | caller n =>
      obtain ⟨before, after, hc, -⟩ := List.lookup_eq_some_iff.1 hx
      simp only [actors, List.mem_append, List.mem_map]
      exact .inr ⟨(.caller n, x), by rw [hc]; simp, rfl⟩
  | _ => cases hw

theorem step_waiting (hw : who.Sends) (hx : l.errand? who = some x) (hs : l.step sv h who = none) :
    (l.desk.peer.step who h.now x).2 = .waiting := by
  cases who with
  | call n =>
      obtain ⟨k, hk, hkx⟩ := Option.bind_eq_some_iff.1 hx
      have hn : k.serial = n := Link.serial_of_call? hk
      subst hn
      have hk : (l.calls.find? fun d => d.serial = k.serial) = some k := hk
      simp only [step, stepCall, Option.bind_eq_bind, hk, Option.bind_some] at hs
      have hc : k.step sv h l.desk.peer l.id = none := by
        cases hc : k.step sv h l.desk.peer l.id with
        | none => rfl
        | some r => rw [hc] at hs; cases hs
      exact Call.step_waiting hkx hc
  | caller n =>
      have hx : l.desk.callers.lookup (.caller n) = some x := hx
      rcases hr : l.desk.peer.step (.caller n) h.now x with ⟨q, y | _ | outcome⟩
      · simp [step, stepCaller, Desk.step, hx, hr] at hs
      · rfl
      · simp [step, stepCaller, Desk.step, hx, hr] at hs
  | _ => cases hw

/-- Why a request with a time limit has not come to its end. -/
inductive Excuse (now : Nat) (l : Link) (τ : Timetable) (e : Start) (limit : Nat) : Prop
  /-- The one who waited for it has been dropped, and its slot has stayed. -/
  | dropped (hd : l.IsDropped τ.docket e.request)
  /-- Its message stands in line for the write queue, in which there is no room for it. -/
  | inLine {who : Actor} {m : Message}
      (hx : l.errand? who = some (.queueing m (some e.request)))
      (hq : ∀ q, (e.request, q) ∉ τ.queued) (hl : who ∈ l.desk.peer.outbound.line)
      (ho : l.desk.peer.outbound.shut = false)
      (hr : l.desk.peer.outbound.room ≤ l.desk.peer.outbound.place who)
  /-- The limit has not passed since its message was queued. -/
  | inTime {q : Nat} (hq : (e.request, q) ∈ τ.queued) (hs : e.since ≤ q) (ht : now < q + limit)

theorem Timely.excuse {e : Start} {limit : Nat} (ht : l.Timely sv h.now τ) (hi : l.Idle sv h)
    (he : e ∈ τ.started) (hlimit : Timetable.limit sv e.spec = some limit)
    (hlive : l.IsLive e.request) : l.Excuse h.now τ e limit := by
  obtain ⟨who, hw⟩ := hlive
  obtain ⟨x, hx, hxe⟩ := Option.bind_eq_some_iff.1 hw
  have hsends := ht.sends hx
  have hstuck := hi who (mem_actors hsends hx) fun hwr => by rw [hwr] at hsends; exact hsends
  rcases Peer.step_waiting (step_waiting hsends hx (Option.isNone_iff_eq_none.1 hstuck)) with
    ⟨m, o, rfl, hline, hopen, hroom⟩ | ⟨a, deadline, rfl, hdeadline⟩
  · obtain rfl : o = some e.request := hxe
    exact .inLine hx (ht.queueing hx) hline hopen hroom
  · obtain rfl : a = e.request := Option.some.inj hxe
    obtain ⟨q, hq, rfl⟩ := ht.awaiting hx
    rw [ht.limited e he, hlimit] at hdeadline
    exact .inTime hq ((ht.queued hq).2 e he rfl) (hdeadline _ rfl)

end Link

end Parley.Dispatch

namespace Parley.Dispatcher.Timed

open Dispatch

variable {d : Dispatcher} {c : ConnectionId} {l : Link} {k : Docket} {τ : Timetable} {a : Awaited}

theorem unended (h : Docketed.Sound c (d, k)) (hl : d.link? c = some l) (ha : a ∈ k.registered)
    (hs : (a.id, a.slot) ∈ l.desk.peer.pending.slots) : l.IsLive a ∨ l.IsDropped k a := by
  have hv := (h.errands hl).slotted
  obtain ⟨b, -, hslot, hb⟩ := slot_owner h hl hs
  have hreg : b ∈ k.registered := by
    rcases hb with ⟨who, hw⟩ | hb
    · exact hv.awaited hw
    · exact hb.1
  rwa [← hv.eq hreg ha hslot]

/-- When nobody can go on, a request with a time limit that is outstanding, or has a slot, has an
excuse: it has been queued for less than its limit, or has not been queued at all because there is
no room, or its slot is all that is left of it. -/
theorem Reachable.excused (h : Reachable c (d, τ)) (hl : d.link? c = some l)
    (hi : l.Idle d.service d.hub) :
    (∀ a, l.IsLive a → ∃ e ∈ τ.started, e.request = a) ∧ (τ.queued.map (·.1)).Nodup ∧
    ∀ e ∈ τ.started, e.since ≤ d.hub.now ∧ ∀ limit,
      Timetable.limit d.service e.spec = some limit →
      (l.IsLive e.request ∨ (e.request.id, e.request.slot) ∈ l.desk.peer.pending.slots) →
      l.Excuse d.hub.now τ e limit := by
  have hs := h.sound
  have ht : l.Timely d.service d.hub.now τ := hs.timely hl
  have hreg {a : Awaited} : a ∈ τ.docket.registered ↔ ∃ e ∈ τ.started, e.request = a := by
    rw [← ht.started, List.mem_map]
  refine ⟨fun a ha => ?_, ht.once, fun e he => ⟨ht.past e he, fun limit hlimit hout => ?_⟩⟩
  · obtain ⟨who, hw⟩ := ha
    exact hreg.1 ((hs.docketed.errands hl).slotted.awaited hw)
  · rcases hout with hlive | hslot
    · exact ht.excuse hi he hlimit hlive
    · rcases unended hs.docketed hl (hreg.2 ⟨e, he, rfl⟩) hslot with hlive | hdropped
      · exact ht.excuse hi he hlimit hlive
      · exact .dropped hdropped

structure Overdue (x : Dispatcher × Timetable) (l : Link) (e : Start) (limit : Nat) : Prop where
  idle : l.Idle x.1.service x.1.hub
  started : e ∈ x.2.started
  limited : Timetable.limit x.1.service e.spec = some limit
  late : e.since + limit ≤ x.1.hub.now
  live : l.IsLive e.request
  slot : (e.request.id, e.request.slot) ∈ l.desk.peer.pending.slots

def crowded : List Move := [
  .move (.send (.request { method := "m" })), .move (.act (.caller 0)), .move (.act (.caller 0)),
  .move (.send (.request { method := "m", timeout := some 5 })), .move (.act (.caller 1)),
  .move (.act (.caller 1)), .wait 5]

def late : Start := ⟨{ method := "m", timeout := some 5 }, ⟨.number 2, 1, "m", some 5, .any⟩, 0⟩

def after (moves : List Move) : Option (Dispatcher × Timetable) :=
  follow ⟨"c"⟩ moves ((serving { config := { outboundQueue := 1 } } { store := { maxIdle := 0 } }).attach
    ⟨"c"⟩, {})

theorem overdue_after (moves : List Move) {P : Dispatcher → Link → Prop}
    [∀ d l, Decidable (P d l)]
    (h : ((after moves).bind fun x => (x.1.link? ⟨"c"⟩).map fun l =>
      decide (l.Idle x.1.service x.1.hub ∧ late ∈ x.2.started ∧
        Timetable.limit x.1.service late.spec = some 5 ∧ late.since + 5 ≤ x.1.hub.now ∧
        (l.errand? (.caller 1)).bind Exchange.awaited? = some late.request ∧
        (late.request.id, late.request.slot) ∈ l.desk.peer.pending.slots ∧ P x.1 l)) = some true) :
    ∃ d τ l, Reachable ⟨"c"⟩ (d, τ) ∧ d.link? ⟨"c"⟩ = some l ∧ Overdue (d, τ) l late 5 ∧ P d l := by
  obtain ⟨⟨d, τ⟩, hx, h⟩ := Option.bind_eq_some_iff.1 h
  obtain ⟨l, hl, h⟩ := Option.map_eq_some_iff.1 h
  obtain ⟨hidle, hstarted, hlimit, hover, hlive, hslot, hp⟩ := of_decide_eq_true h
  exact ⟨d, τ, l, reachable_of_follow _ _ hx, hl,
    ⟨hidle, hstarted, hlimit, hover, ⟨.caller 1, hlive⟩, hslot⟩, hp⟩

theorem excused_of_crowded : ∃ d τ l, Reachable ⟨"c"⟩ (d, τ) ∧ d.link? ⟨"c"⟩ = some l ∧
    l.Idle d.service d.hub ∧ late.since + 5 ≤ d.hub.now ∧ l.Excuse d.hub.now τ late 5 := by
  obtain ⟨d, τ, l, hr, hl, ho, -⟩ := overdue_after crowded (P := fun _ _ => True) (by decide +kernel)
  obtain ⟨-, -, hexcused⟩ := hr.excused hl ho.idle
  exact ⟨d, τ, l, hr, hl, ho.idle, ho.late,
    (hexcused late ho.started).2 5 ho.limited (.inl ho.live)⟩

/-- A request is outstanding when its limit has passed since it was started: while the queue is full
and the writer does not go on, and also when the writer has written everything. -/
theorem overdue_when_idle :
    (∃ d τ l, Reachable ⟨"c"⟩ (d, τ) ∧ d.link? ⟨"c"⟩ = some l ∧ Overdue (d, τ) l late 5 ∧
      l.desk.peer.outbound.room = 0) ∧
    ∃ d τ l, Reachable ⟨"c"⟩ (d, τ) ∧ d.link? ⟨"c"⟩ = some l ∧ Overdue (d, τ) l late 5 ∧
      (l.step d.service d.hub .writer).isNone = true :=
  ⟨overdue_after crowded (by decide +kernel),
    overdue_after (crowded ++ [.move (.act .writer), .move (.act (.caller 1)),
      .move (.act .writer)]) (by decide +kernel)⟩

end Parley.Dispatcher.Timed
