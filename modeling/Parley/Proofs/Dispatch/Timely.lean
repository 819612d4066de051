import Parley.Proofs.Dispatch.Asking
import Parley.Proofs.Peer.Errand

namespace Parley.Dispatch

structure Start where
  spec : RequestSpec
  request : Awaited
  since : Nat
  deriving DecidableEq

structure Timetable where
  docket : Docket := {}
  started : List Start := []
  queued : List (Awaited × Nat) := []

def queuing? : Option Exchange → Option Exchange → Option Awaited
  | some (.queueing _ (some a)), some (.awaiting _ _) => some a
  | _, _ => none

namespace Timetable

def note (τ : Timetable) (h : Hub) (l l' : Link) (who : Actor) : Timetable where
  docket := τ.docket.record l.desk.peer.pending (l.event h who)
  started := τ.started ++ (l.asking h who).map fun e => ⟨e.1, e.2, h.now⟩
  queued := τ.queued ++ (queuing? (l.errand? who) (l'.errand? who)).toList.map (·, h.now)

def limit (sv : Service) (spec : RequestSpec) : Option Nat :=
  spec.timeout.orElse fun _ => sv.config.requestTimeout

end Timetable

def Actor.Sends : Actor → Prop
  | .call _ | .caller _ => True
  | _ => False

def Calmer (f g : Actor → Option Exchange) : Prop := ∀ who x, g who = some x →
  f who = some x ∨ who.Sends ∧ (x.awaited? = none ∨ x.isLeaving = true)

variable {f g : Actor → Option Exchange} {who : Actor} {o : Option Exchange}

theorem Calmer.refl (f : Actor → Option Exchange) : Calmer f f := fun _ _ => .inl

theorem Calmer.update (ho : ∀ x, o = some x →
      f who = some x ∨ who.Sends ∧ (x.awaited? = none ∨ x.isLeaving = true)) :
    Calmer f (Function.update f who o) := by
  intro u x hu
  rcases update_eq_some.1 hu with ⟨rfl, hx⟩ | ⟨-, hx⟩
  · exact ho x hx
  · exact .inl hx

theorem Calmer.queuing? (h : Calmer f g) (who : Actor) : queuing? (f who) (g who) = none := by
  cases hg : g who with
  | none => cases f who <;> simp [Dispatch.queuing?]
  | some y =>
      rcases h who y hg with hf | ⟨-, hy⟩
      · cases y <;> simp [Dispatch.queuing?, hf]
      · cases y with
        | awaiting a deadline => rcases hy with hy | hy <;> cases hy
        | _ => cases hf : f who <;> simp [Dispatch.queuing?]

namespace Link

variable {sv : Service} {h h' : Hub} {l l' : Link} {n : Nat} {τ : Timetable}

inductive Moves (h : Hub) (l : Link) (who : Actor) (l' : Link) : Prop
  | errand {x : Exchange} {r : Peer.Progress} (hw : who.Sends) (hx : l.errand? who = some x)
      (hr : l.desk.peer.step who h.now x = (l'.desk.peer, r)) (he : l.event h who = r.event x)
      (hf : l'.errand? = Function.update l.errand? who r.exchange?) : Moves h l who l'
  | other (hf : Calmer l.errand? l'.errand?) (hp : l'.desk.peer.timeout = l.desk.peer.timeout)
      (he : ∀ a, l.event h who ≠ .registered a) : Moves h l who l'

theorem stepCall_moves (ht : l.Tidy) (hs : stepCall sv h l n = some (h', l')) :
    l.Moves h (.call n) l' := by
  obtain ⟨k, k', htk, rfl, hc, hx, hev, hf⟩ := stepCall_exchange ht hs
  rcases Call.step_exchange htk hc with ⟨x, r, he, hr, -, hevent, hk'⟩ | ⟨he, hl, hk'⟩
  · exact .errand trivial (hx.trans he) hr (hev.trans hevent) (hk' ▸ hf)
  · refine .other (hf ▸ Calmer.update fun x ho => ?_) ?_ (by simp [hev, he])
    · rcases hk' with hk' | ⟨-, errand, hk'⟩ <;> rw [hk'] at ho <;> cases ho
      exact .inr ⟨trivial, .inl rfl⟩
    · obtain ⟨outbound, hp, -⟩ := hl
      rw [hp]

theorem step_moves (ht : l.Tidy) (hs : l.step sv h who = some (h', l')) : l.Moves h who l' := by
  cases who with
  | writer =>
      obtain ⟨_, _, _, rfl, -⟩ := stepWriter_footprint hs
      exact .other (.refl _) rfl fun a he => by cases he
  | reader =>
      obtain ⟨-, _, _, _, rfl⟩ := stepReader_footprint hs
      exact .other (.refl _) rfl fun a he => by cases he
  | requests =>
      obtain ⟨⟨outbound, hp, -⟩, hf⟩ := stepRequests_leaves ht hs
      exact .other (hf ▸ .refl _) (by rw [hp]) fun a he => by cases he
  | responses =>
      obtain ⟨-, _, _, _, rfl⟩ := stepResponses_footprint hs
      refine .other (.refl _) rfl fun a he => ?_
      simp only [event] at he
      split at he <;> cases he
  | supervisor =>
      obtain ⟨_, _, rfl⟩ := stepSupervisor_footprint hs
      exact .other (.refl _) rfl fun a he => by cases he
  | call n => exact stepCall_moves ht hs
  | caller n =>
      obtain ⟨x, r, hx, hr, -, he, hf⟩ := stepCaller_exchange hs
      exact .errand trivial hx hr he hf

theorem calmer_aside (ha : l.Aside l') :
    Calmer l.errand? l'.errand? ∧ l'.desk.peer.timeout = l.desk.peer.timeout := by
  cases ha with
  | same => exact ⟨.refl _, rfl⟩
  | send errand =>
      have hf := errand?_desk (l := l) _ (lookup_send l.desk (.caller l.numbered) errand)
      refine ⟨hf ▸ Calmer.update fun x hx => ?_, rfl⟩
      rcases Option.or_eq_some_iff.1 hx with hx | ⟨-, hx⟩
      · exact .inl hx
      · cases hx
        exact .inr ⟨trivial, .inl rfl⟩
  | abort n =>
      have hf := errand?_desk (l := l) (l.desk.drop (.caller n)) fun u => lookup_remove
      exact ⟨hf ▸ Calmer.update fun x hx => (nomatch hx), rfl⟩
  | outside ho =>
      obtain ⟨_, _, _, _, rfl⟩ := ho
      exact ⟨.refl _, rfl⟩

theorem awaits_of_errand {x : Exchange} {a : Awaited} (hx : l.errand? who = some x)
    (ha : x.awaited? = some a) : l.errands.Awaits who a := by
  change (l.errand? who).bind Exchange.awaited? = some a
  rw [hx]
  exact ha

/-- The timetable tells of the requests of a connection when they were started and queued. -/
structure Timely (sv : Service) (now : Nat) (l : Link) (τ : Timetable) : Prop where
  limit : l.desk.peer.timeout = sv.config.requestTimeout
  sends : ∀ {who x}, l.errand? who = some x → who.Sends
  started : τ.started.map (·.request) = τ.docket.registered
  limited : ∀ e ∈ τ.started, e.request.timeout = Timetable.limit sv e.spec
  past : ∀ e ∈ τ.started, e.since ≤ now
  queued : ∀ {a q}, (a, q) ∈ τ.queued → a ∈ τ.docket.registered ∧
    ∀ e ∈ τ.started, e.request = a → e.since ≤ q
  once : (τ.queued.map (·.1)).Nodup
  queueing : ∀ {who m a}, l.errand? who = some (.queueing m (some a)) → ∀ q, (a, q) ∉ τ.queued
  awaiting : ∀ {who a deadline}, l.errand? who = some (.awaiting a deadline) →
    ∃ q, (a, q) ∈ τ.queued ∧ deadline = a.timeout.map (q + ·)

namespace Timely

variable {now now' : Nat} {k : Docket} {a : Awaited} {m : Message} {spec : RequestSpec}

theorem attach (sv : Service) (c : ConnectionId) (now : Nat) : Timely sv now (attach sv c) {} := by
  have hf (who : Actor) : (Link.attach sv c).errand? who = none := by
    cases who <;> simp [errand?, call?, Link.attach]
  refine ⟨rfl, ?_, rfl, ?_, ?_, ?_, .nil, ?_, ?_⟩ <;> simp [hf]

theorem sends_update {o : Option Exchange} (ht : l.Timely sv now τ) (hw : who.Sends)
    (hf : l'.errand? = Function.update l.errand? who o) {u : Actor} {x : Exchange}
    (hu : l'.errand? u = some x) : u.Sends := by
  rcases update_eq_some.1 (hf ▸ hu) with ⟨rfl, -⟩ | ⟨-, hu⟩
  · exact hw
  · exact ht.sends hu

theorem calm (ht : l.Timely sv now τ) (hf : Calmer l.errand? l'.errand?)
    (hp : l'.desk.peer.timeout = l.desk.peer.timeout) (hn : now ≤ now')
    (hk : k.registered = τ.docket.registered) : l'.Timely sv now' { τ with docket := k } where
  limit := hp.trans ht.limit
  sends hx := (hf _ _ hx).elim ht.sends And.left
  started := ht.started.trans hk.symm
  limited := ht.limited
  past e he := Nat.le_trans (ht.past e he) hn
  queued hq := hk ▸ ht.queued hq
  once := ht.once
  queueing hx := by
    rcases hf _ _ hx with hx | ⟨-, hx⟩
    · exact ht.queueing hx
    · rcases hx with hx | hx <;> cases hx
  awaiting hx := by
    rcases hf _ _ hx with hx | ⟨-, hx⟩
    · exact ht.awaiting hx
    · rcases hx with hx | hx <;> cases hx

theorem note_calm (ht : l.Timely sv h.now τ) (hf : Calmer l.errand? l'.errand?)
    (hp : l'.desk.peer.timeout = l.desk.peer.timeout) (hn : h.now ≤ now')
    (he : ∀ a, l.event h who ≠ .registered a) : l'.Timely sv now' (τ.note h l l' who) := by
  have hnote : τ.note h l l' who =
      { τ with docket := τ.docket.record l.desk.peer.pending (l.event h who) } := by
    simp [Timetable.note, asking_eq_nil he, hf.queuing? who]
  rw [hnote]
  refine ht.calm hf hp hn ?_
  rw [registered_record, asking_eq_nil he, List.map_nil, List.append_nil]

/-- A request is started. It is a new one, for nobody has had its slot. -/
theorem note_registered (ht : l.Timely sv h.now τ) (hv : l.errands.Slotted τ.docket)
    (hw : who.Sends) (hx : l.errand? who = some (.fresh (.request spec)))
    (he : l.event h who = .registered a)
    (hf : l'.errand? = Function.update l.errand? who (some (.queueing m (some a))))
    (hp : l'.desk.peer.timeout = l.desk.peer.timeout) (hn : h.now ≤ now')
    (hs : a.slot = l.desk.peer.nextSlot)
    (hl : a.timeout = spec.timeout.orElse fun _ => l.desk.peer.timeout) :
    l'.Timely sv now' (τ.note h l l' who) := by
  have hask : l.asking h who = [(spec, a)] := by simp [asking, hx, he, Exchange.asking]
  have hnew : a ∉ τ.docket.registered := fun ha => Nat.ne_of_lt (hv.lt ha) hs
  have hqueuing : queuing? (l.errand? who) (l'.errand? who) = none := by rw [hx]; rfl
  have hreg := registered_record τ.docket l.desk.peer.pending h l who
  have hnote : τ.note h l l' who =
      { docket := τ.docket.record l.desk.peer.pending (l.event h who)
        started := τ.started ++ [⟨spec, a, h.now⟩]
        queued := τ.queued } := by
    simp [Timetable.note, hask, hqueuing]
  rw [hnote]
  rw [hask] at hreg
  constructor
  case limit => exact hp.trans ht.limit
  case sends => exact ht.sends_update hw hf
  case started => rw [List.map_append, ht.started, hreg, List.map_singleton, List.map_singleton]
  case limited =>
    refine List.forall_mem_append.2 ⟨ht.limited, List.forall_mem_singleton.2 ?_⟩
    rw [Timetable.limit, ← ht.limit]
    exact hl
  case past =>
    refine List.forall_mem_append.2 ⟨fun e he => Nat.le_trans (ht.past e he) hn, ?_⟩
    exact List.forall_mem_singleton.2 hn
  case queued =>
    intro b q hq
    obtain ⟨hb, hsince⟩ := ht.queued hq
    refine ⟨hreg ▸ List.mem_append_left _ hb, List.forall_mem_append.2 ⟨hsince, ?_⟩⟩
    refine List.forall_mem_singleton.2 fun hab => absurd hb ?_
    exact hab ▸ hnew
  case once => exact ht.once
  case queueing =>
    intro u m' b hu q hq
    rcases update_eq_some.1 (hf ▸ hu) with ⟨rfl, hb⟩ | ⟨-, hu⟩
    · cases hb
      exact hnew (ht.queued hq).1
    · exact ht.queueing hu q hq
  case awaiting =>
    intro u b deadline hu
    rcases update_eq_some.1 (hf ▸ hu) with ⟨rfl, hb⟩ | ⟨-, hu⟩
    · cases hb
    · exact ht.awaiting hu

theorem note_queued (ht : l.Timely sv h.now τ) (hv : l.errands.Slotted τ.docket)
    (hw : who.Sends) (hx : l.errand? who = some (.queueing m (some a)))
    (he : l.event h who = .quiet)
    (hf : l'.errand? = Function.update l.errand? who
      (some (.awaiting a (a.timeout.map (h.now + ·)))))
    (hp : l'.desk.peer.timeout = l.desk.peer.timeout) (hn : h.now ≤ now') :
    l'.Timely sv now' (τ.note h l l' who) := by
  have hmine : l.errands.Awaits who a := awaits_of_errand hx rfl
  have hnote : τ.note h l l' who = { τ with queued := τ.queued ++ [(a, h.now)] } := by
    have hask : l.asking h who = [] := asking_eq_nil (by simp [he])
    simp [Timetable.note, hask, he, Docket.record, hx, hf, queuing?]
  rw [hnote]
  constructor
  case limit => exact hp.trans ht.limit
  case sends => exact ht.sends_update hw hf
  case started => exact ht.started
  case limited => exact ht.limited
  case past => exact fun e he => Nat.le_trans (ht.past e he) hn
  case queued =>
    intro b q hq
    rcases List.mem_append.1 hq with hq | hq
    · exact ht.queued hq
    · cases List.mem_singleton.1 hq
      exact ⟨hv.awaited hmine, fun e he _ => ht.past e he⟩
  case once =>
    rw [List.map_append]
    refine List.nodup_append.2 ⟨ht.once, List.nodup_singleton _, fun b hb b' hb' hbb => ?_⟩
    obtain ⟨⟨b, q⟩, hq, rfl⟩ := List.mem_map.1 hb
    have hba : b = a := hbb.trans (List.mem_singleton.1 hb')
    exact ht.queueing hx q (hba ▸ hq)
  case queueing =>
    intro u m' b hu q hq
    rcases update_eq_some.1 (hf ▸ hu) with ⟨rfl, hb⟩ | ⟨huw, hu⟩
    · cases hb
    · rcases List.mem_append.1 hq with hq | hq
      · exact ht.queueing hu q hq
      · -- Nobody else waits for what is queued.
        have hba : b = a := (Prod.mk.inj (List.mem_singleton.1 hq)).1
        exact huw (hv.unique (awaits_of_errand (hba ▸ hu) rfl) hmine rfl)
  case awaiting =>
    intro u b deadline hu
    rcases update_eq_some.1 (hf ▸ hu) with ⟨rfl, hb⟩ | ⟨-, hu⟩
    · cases hb
      exact ⟨h.now, List.mem_append_right _ (List.mem_singleton.2 rfl), rfl⟩
    · obtain ⟨q, hq, hd⟩ := ht.awaiting hu
      exact ⟨q, List.mem_append_left _ hq, hd⟩

theorem step (ht : l.Timely sv h.now τ) (hv : l.errands.Slotted τ.docket) (htidy : l.Tidy)
    (hs : l.step sv h who = some (h', l')) (hn : h.now ≤ h'.now) :
    l'.Timely sv h'.now (τ.note h l l' who) := by
  cases step_moves htidy hs with
  | other hf hp he => exact ht.note_calm hf hp hn he
  | @errand x r hw hx hr he hf =>
      obtain ⟨hp, hmoved⟩ := Peer.step_moved hr
      cases r with
      | waiting | done outcome =>
          have hcalm : Calmer l.errand? l'.errand? := hf ▸ Calmer.update fun x hx => by cases hx
          refine ht.note_calm hcalm hp hn fun a ha => ?_
          rw [he] at ha
          cases hxa : x.awaited? <;> simp [Peer.Progress.event, hxa] at ha
      | moved y =>
          cases hmoved y rfl with
          | registered hslot hlimit => exact ht.note_registered hv hw hx he hf hp hn hslot hlimit
          | queued m a => exact ht.note_queued hv hw hx he hf hp hn
          | encoded =>
              refine ht.note_calm (hf ▸ Calmer.update fun x hx => ?_) hp hn fun a ha => ?_
              · cases hx
                exact .inr ⟨hw, .inl rfl⟩
              · rw [he] at ha
                cases ha
          | lined m o =>
              refine ht.note_calm (hf ▸ Calmer.update fun x hy => ?_) hp hn fun a ha => ?_
              · cases hy
                exact .inl hx
              · rw [he] at ha
                cases o <;> cases ha
          | unsent | overdue =>
              refine ht.note_calm (hf ▸ Calmer.update fun x hy => ?_) hp hn fun a ha => ?_
              · cases hy
                exact .inr ⟨hw, .inr rfl⟩
              · rw [he] at ha
                cases ha

end Timely

end Link

end Parley.Dispatch
