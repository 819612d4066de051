import Parley.Proofs.Dispatch.Timely

namespace Parley.Dispatcher

open Dispatch

variable {d d' : Dispatcher} {c : ConnectionId} {l l' : Link} {t : Option Task} {τ : Timetable}

def timetable (c : ConnectionId) (τ : Timetable) (d d' : Dispatcher) : Option Task → Timetable
  | none => τ
  | some (c', who) =>
    match d.link? c, d'.link? c with
    | some l, some l' => if c' = c then τ.note d.hub l l' who else τ
    | _, _ => τ

theorem timetable_own {who : Actor} (τ : Timetable) (hl : d.link? c = some l)
    (hl' : d'.link? c = some l') :
    timetable c τ d d' (some (c, who)) = τ.note d.hub l l' who := by
  simp only [timetable, hl, hl', if_true]

theorem timetable_aside (τ : Timetable) (ht : ∀ who, t ≠ some (c, who)) :
    timetable c τ d d' t = τ := by
  rcases t with _ | ⟨c', who⟩
  · rfl
  · have hc : c' ≠ c := fun hc => ht who (hc ▸ rfl)
    simp only [timetable, if_neg hc]
    split <;> rfl

theorem timetable_blank (hl : d.link? c = none) : timetable c τ d d' t = τ := by
  cases t <;> simp [timetable, hl]

theorem docket_timetable (hd : d.Sound) (h : Next d t d') :
    (timetable c τ d d' t).docket = docket c τ.docket d t := by
  cases hl : d.link? c with
  | none => simp only [timetable_blank hl, docket, hl]
  | some l =>
      obtain ⟨l', hl', ⟨who, rfl, -⟩ | ⟨ht, -⟩⟩ := h.own_or_aside hd hl
      · simp only [timetable_own τ hl hl', Timetable.note, docket, event, hl, if_true]
      · rw [timetable_aside τ ht, docket_aside _ ht]

namespace Timed

/-- A dispatcher and the timetable of one of its connections go on together. The clock does not go
back. -/
def Step (c : ConnectionId) (x y : Dispatcher × Timetable) : Prop :=
  ∃ t, Next x.1 t y.1 ∧ x.1.hub.now ≤ y.1.hub.now ∧ y.2 = timetable c x.2 x.1 y.1 t

def Runs (c : ConnectionId) : Dispatcher × Timetable → Dispatcher × Timetable → Prop :=
  Relation.ReflTransGen (Step c)

def Reachable (c : ConnectionId) (x : Dispatcher × Timetable) : Prop :=
  ∃ service sessions, Runs c (serving service sessions, {}) x

structure Sound (c : ConnectionId) (x : Dispatcher × Timetable) : Prop where
  docketed : Docketed.Sound c (x.1, x.2.docket)
  fresh : x.1.link? c = none → x.2 = {}
  timely : ∀ {l}, x.1.link? c = some l → l.Timely x.1.service x.1.hub.now x.2

variable {x y : Dispatcher × Timetable}

theorem Sound.step (hx : Sound c x) (h : Step c x y) : Sound c y := by
  obtain ⟨d, τ⟩ := x
  obtain ⟨d', τ'⟩ := y
  obtain ⟨t, hn, hnow, rfl : τ' = timetable c τ d d' t⟩ := h
  have hd : d.Sound := hx.docketed.sound
  have hdocketed : Docketed.Sound c (d', (timetable c τ d d' t).docket) :=
    hx.docketed.step ⟨t, hn, docket_timetable hd hn⟩
  refine ⟨hdocketed, fun hl' => ?_, fun {m} hm => ?_⟩
  · cases hl : d.link? c with
    | none => exact (timetable_blank hl).trans (hx.fresh hl)
    | some l =>
        obtain ⟨l', hl, -⟩ := hn.own_or_aside hd hl
        cases hl.symm.trans hl'
  · change m.Timely d'.service d'.hub.now _
    rw [hn.service]
    cases hl : d.link? c with
    | none =>
        obtain rfl := (hn.blank hd hl).2.2 m hm
        have hτ : τ = {} := hx.fresh hl
        rw [timetable_blank hl, hτ]
        exact .attach ..
    | some l =>
        have ht : l.Timely d.service d.hub.now τ := hx.timely hl
        obtain ⟨l', hl', hc⟩ := hn.own_or_aside hd hl
        obtain rfl : l' = m := Option.some.inj (hl'.symm.trans hm)
        rcases hc with ⟨who, rfl, hs⟩ | ⟨hother, ha⟩
        · rw [timetable_own τ hl hl']
          exact ht.step (hx.docketed.errands hl).slotted (hd.linked hl).1 hs hnow
        · rw [timetable_aside τ hother]
          obtain ⟨hf, hp⟩ := Link.calmer_aside ha
          exact ht.calm hf hp hnow rfl

theorem Reachable.sound (h : Reachable c x) : Sound c x := by
  obtain ⟨service, sessions, h⟩ := h
  induction h with
  | refl =>
      have hr : Docketed.Reachable c (serving service sessions, {}) := ⟨_, _, .refl⟩
      exact ⟨hr.sound, fun _ => rfl, fun hl => by cases hl⟩
  | tail _ h ih => exact ih.step h

inductive Move
  | move (m : Docketed.Move)
  | wait (ms : Nat)

def follow (c : ConnectionId) : List Move → Dispatcher × Timetable → Option (Dispatcher × Timetable)
  | [], x => some x
  | .wait ms :: moves, (d, τ) => follow c moves (d.advance ms, τ)
  | .move m :: moves, (d, τ) => do
    let (d', t) ← m.perform c d
    if d.hub.now ≤ d'.hub.now then follow c moves (d', timetable c τ d d' t) else none

theorem follow_runs {moves : List Move} (h : follow c moves x = some y) : Runs c x y := by
  induction moves generalizing x with
  | nil =>
      cases h
      exact .refl
  | cons m moves ih =>
      obtain ⟨d, τ⟩ := x
      cases m with
      | wait ms =>
          have hn : Step c (d, τ) (d.advance ms, τ) :=
            ⟨none, .world rfl, Nat.le_add_right d.hub.now ms, rfl⟩
          exact .head hn (ih h)
      | move m =>
          simp only [follow, Option.bind_eq_bind, Option.bind_eq_some_iff] at h
          obtain ⟨⟨d', t⟩, hm, h⟩ := h
          split at h
          · next hnow => exact .head ⟨t, Docketed.Move.next hm, hnow, rfl⟩ (ih h)
          · cases h

theorem reachable_of_follow {moves : List Move} (service : Service)
    (sessions : Session.Manager CallName)
    (h : follow c moves ((serving service sessions).attach c, {}) = some x) : Reachable c x := by
  have hn : Step c (serving service sessions, {}) ((serving service sessions).attach c, {}) :=
    ⟨none, .attach rfl, Nat.le_refl _, rfl⟩
  exact ⟨service, sessions, .head hn (follow_runs h)⟩

end Timed

end Parley.Dispatcher
