import Parley.Proofs.Dispatch.Errands

namespace Parley.Dispatcher

open Dispatch

variable {d d' : Dispatcher} {c : ConnectionId} {l l' : Link} {t : Option Task}

def event (c : ConnectionId) (d : Dispatcher) : Option Task → Errands.Event
  | some (c', who) =>
    match d.link? c with
    | some l => if c' = c then l.event d.hub who else .quiet
    | none => .quiet
  | none => .quiet

theorem event_aside (ht : ∀ who, t ≠ some (c, who)) : event c d t = .quiet := by
  rcases t with _ | ⟨c', who⟩
  · rfl
  · have hc : c' ≠ c := fun hc => ht who (hc ▸ rfl)
    simp only [event, if_neg hc]
    split <;> rfl

theorem Next.errands (hd : d.Sound) (h : Next d t d') (hl : d.link? c = some l) :
    ∃ l', d'.link? c = some l' ∧ l.errands.Change (event c d t) l'.errands := by
  obtain ⟨l', hl', ⟨who, rfl, hs⟩ | ⟨ht, ha⟩⟩ := h.own_or_aside hd hl
  · refine ⟨l', hl', ?_⟩
    simp only [event, hl, if_true]
    exact Link.step_errands (hd.linked hl).1 hs
  · exact ⟨l', hl', event_aside (d := d) ht ▸ Link.aside_errands ha⟩

theorem attached_errands (sv : Service) (c : ConnectionId) : (Link.attach sv c).errands.Sound {} := by
  refine Errands.sound_empty rfl rfl fun who => ?_
  cases who <;> simp [Link.errands, Peer.errands, Link.errand?, Link.call?, Link.attach]

def docket (c : ConnectionId) (k : Docket) (d : Dispatcher) (t : Option Task) : Docket :=
  match d.link? c with
  | some l => k.record l.desk.peer.pending (event c d t)
  | none => k

theorem docket_aside (k : Docket) (ht : ∀ who, t ≠ some (c, who)) : docket c k d t = k := by
  rw [docket, event_aside ht]
  split <;> rfl

namespace Docketed

/-- A dispatcher and the docket of one of its connections go on together. -/
def Step (c : ConnectionId) (x y : Dispatcher × Docket) : Prop :=
  ∃ t, Next x.1 t y.1 ∧ y.2 = docket c x.2 x.1 t

def Runs (c : ConnectionId) : Dispatcher × Docket → Dispatcher × Docket → Prop :=
  Relation.ReflTransGen (Step c)

def Reachable (c : ConnectionId) (x : Dispatcher × Docket) : Prop :=
  ∃ service sessions, Runs c (serving service sessions, {}) x

structure Sound (c : ConnectionId) (x : Dispatcher × Docket) : Prop where
  sound : x.1.Sound
  fresh : x.1.link? c = none → x.2 = {}
  errands : ∀ {l}, x.1.link? c = some l → l.errands.Sound x.2

variable {x y : Dispatcher × Docket}

theorem Sound.step (hx : Sound c x) (h : Step c x y) : Sound c y := by
  obtain ⟨d, k⟩ := x
  obtain ⟨d', k'⟩ := y
  obtain ⟨t, h, rfl : k' = docket c k d t⟩ := h
  cases hl : d.link? c with
  | none =>
      have hk : docket c k d t = {} := by
        rw [docket, hl]
        exact hx.fresh hl
      refine ⟨hx.sound.next h, fun _ => hk, fun {l'} hl' => ?_⟩
      obtain rfl := (h.blank hx.sound hl).2.2 l' hl'
      simp only [hk]
      exact attached_errands _ _
  | some l =>
      obtain ⟨m, hm, hc⟩ := h.errands hx.sound hl
      refine ⟨hx.sound.next h, fun hl' => ?_, fun {l'} hl' => ?_⟩
      · cases hm.symm.trans hl'
      · obtain rfl : m = l' := Option.some.inj (hm.symm.trans hl')
        simp only [docket, hl]
        exact (hx.errands hl).change hc

theorem Reachable.sound (h : Reachable c x) : Sound c x := by
  obtain ⟨service, sessions, h⟩ := h
  induction h with
  | refl => exact ⟨sound_serving _ _, fun _ => rfl, fun hl => by cases hl⟩
  | tail _ h ih => exact ih.step h

inductive Move
  | arrive (bytes : Bytes)
  | act (who : Actor)
  | send (errand : Errand)
  | close

def Move.perform (c : ConnectionId) (d : Dispatcher) : Move → Option (Dispatcher × Option Task)
  | .arrive bytes => (d.link? c).map fun l => (d.put (l.receive bytes), none)
  | .act who => (d.step (c, who)).map (·, some (c, who))
  | .send errand => (d.send c errand).map fun r => (r.1, none)
  | .close => some (d.close c, none)

theorem Move.next {m : Move} (h : m.perform c d = some (d', t)) : Next d t d' := by
  cases m with
  | arrive bytes =>
      obtain ⟨l, hl, he⟩ := Option.map_eq_some_iff.1 h
      cases he
      exact .outside hl ⟨_, _, _, _, rfl⟩
  | act who =>
      obtain ⟨e, hs, he⟩ := Option.map_eq_some_iff.1 h
      cases he
      exact .step hs
  | send errand =>
      obtain ⟨r, hs, he⟩ := Option.map_eq_some_iff.1 h
      cases he
      exact .send hs
  | close =>
      cases h
      exact .close d c

def follow (c : ConnectionId) : List Move → Dispatcher × Docket → Option (Dispatcher × Docket)
  | [], x => some x
  | m :: ms, (d, k) => do
    let (d', t) ← m.perform c d
    follow c ms (d', docket c k d t)

theorem follow_runs {ms : List Move} (h : follow c ms x = some y) : Runs c x y := by
  induction ms generalizing x with
  | nil =>
      cases h
      exact .refl
  | cons m ms ih =>
      obtain ⟨d, k⟩ := x
      simp only [follow, Option.bind_eq_bind, Option.bind_eq_some_iff] at h
      obtain ⟨⟨d', t⟩, hm, h⟩ := h
      exact .head ⟨t, Move.next hm, rfl⟩ (ih h)

theorem reachable_of_follow {ms : List Move} (service : Service)
    (sessions : Session.Manager CallName)
    (h : follow c ms ((serving service sessions).attach c, {}) = some x) : Reachable c x := by
  have hn : Step c (serving service sessions, {}) ((serving service sessions).attach c, {}) :=
    ⟨none, .attach rfl, rfl⟩
  exact ⟨service, sessions, .head hn (follow_runs h)⟩

end Docketed

theorem Reachable.docketed {x : Dispatcher × Ledger} (h : Reachable c x) :
    ∃ k, Docketed.Reachable c (x.1, k) := by
  obtain ⟨service, sessions, h⟩ := h
  suffices hk : ∃ k, Docketed.Runs c (serving service sessions, {}) (x.1, k) by
    obtain ⟨k, hk⟩ := hk
    exact ⟨k, service, sessions, hk⟩
  induction h with
  | refl => exact ⟨{}, .refl⟩
  | tail _ h ih =>
      obtain ⟨k, hk⟩ := ih
      obtain ⟨t, hn, -⟩ := h
      exact ⟨_, hk.tail ⟨t, hn, rfl⟩⟩

end Parley.Dispatcher
