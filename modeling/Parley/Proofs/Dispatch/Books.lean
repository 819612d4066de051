import Parley.Proofs.Dispatch.Correlation
import Parley.Proofs.Peer.Asking

namespace Parley.Dispatch

structure Books where
  ledger : Ledger := {}
  docket : Docket := {}
  asked : List (RequestSpec × Awaited) := []

namespace Link

def asking (h : Hub) (l : Link) (who : Actor) : List (RequestSpec × Awaited) :=
  match l.errand? who with
  | some x => x.asking (l.event h who)
  | none => []

end Link

end Parley.Dispatch

namespace Parley.Dispatcher

open Dispatch

variable {d d' : Dispatcher} {c : ConnectionId} {l l' : Link} {t : Option Task}

def asking (c : ConnectionId) (d : Dispatcher) : Option Task → List (RequestSpec × Awaited)
  | some (c', who) =>
    match d.link? c with
    | some l => if c' = c then l.asking d.hub who else []
    | none => []
  | none => []

def books (c : ConnectionId) (b : Books) (d d' : Dispatcher) (t : Option Task) : Books where
  ledger := account c b.ledger d d' t
  docket := docket c b.docket d t
  asked := b.asked ++ asking c d t

namespace Booked

/-- A dispatcher and the books of one of its connections go on together. -/
def Step (c : ConnectionId) (x y : Dispatcher × Books) : Prop :=
  ∃ t, Next x.1 t y.1 ∧ y.2 = books c x.2 x.1 y.1 t

def Reachable (c : ConnectionId) (x : Dispatcher × Books) : Prop :=
  ∃ service sessions, Relation.ReflTransGen (Step c) (serving service sessions, {}) x

variable {x y : Dispatcher × Books}

theorem Reachable.next (h : Reachable c x) (hn : Next x.1 t d') :
    Reachable c (d', books c x.2 x.1 d' t) := by
  obtain ⟨service, sessions, h⟩ := h
  exact ⟨service, sessions, h.tail ⟨t, hn, rfl⟩⟩

theorem Reachable.audited (h : Reachable c x) : Dispatcher.Reachable c (x.1, x.2.ledger) := by
  obtain ⟨service, sessions, h⟩ := h
  exact ⟨service, sessions, Recorded.map (p := Books.ledger) (fun _ _ _ _ => rfl) h⟩

theorem Reachable.docketed (h : Reachable c x) : Docketed.Reachable c (x.1, x.2.docket) := by
  obtain ⟨service, sessions, h⟩ := h
  exact ⟨service, sessions, Recorded.map (g := fun k d _ t => Dispatcher.docket c k d t)
    (p := Books.docket) (fun _ _ _ _ => rfl) h⟩

theorem Reachable.sound (h : Reachable c x) : x.1.Sound := h.docketed.sound.sound

/-- Before the connection comes there is nothing to write down. -/
theorem books_blank (hd : d.Sound) (h : Next d t d') (hl : d.link? c = none) :
    books c {} d d' t = {} := by
  rw [books, (h.blank hd hl).2.1]
  simp only [docket, asking, hl]
  cases t <;> rfl

theorem books_own {who : Actor} (b : Books) (hl : d.link? c = some l) (hl' : d'.link? c = some l') :
    books c b d d' (some (c, who)) = ⟨b.ledger.observe d.hub l l' who,
      b.docket.record l.desk.peer.pending (l.event d.hub who), b.asked ++ l.asking d.hub who⟩ := by
  simp only [books, account_own _ hl hl', docket, event, asking, hl, if_true]

theorem asking_aside (ht : ∀ who, t ≠ some (c, who)) : Dispatcher.asking c d t = [] := by
  rcases t with _ | ⟨c', who⟩
  · rfl
  · have hc : c' ≠ c := fun hc => ht who (hc ▸ rfl)
    simp only [Dispatcher.asking, if_neg hc]
    split <;> rfl

theorem books_aside (b : Books) (ht : ∀ who, t ≠ some (c, who)) : books c b d d' t = b := by
  rw [books, account_aside _ ht, docket_aside _ ht, asking_aside ht, List.append_nil]

theorem Reachable.fresh (h : Reachable c x) (hl : x.1.link? c = none) : x.2 = {} := by
  obtain ⟨service, sessions, h⟩ := h
  exact Recorded.fresh books_blank h hl

theorem Reachable.invariant {I : Link → Books → Prop} (h : Reachable c x)
    (hl : x.1.link? c = some l) (hattach : ∀ sv, I (.attach sv c) {})
    (hown : ∀ {y d' m m' who}, Reachable c y → y.1.link? c = some m →
      Reachable c (d', books c y.2 y.1 d' (some (c, who))) → d'.link? c = some m' →
      m.step y.1.service y.1.hub who = some (d'.hub, m') → I m y.2 →
        I m' ⟨y.2.ledger.observe y.1.hub m m' who,
          y.2.docket.record m.desk.peer.pending (m.event y.1.hub who),
          y.2.asked ++ m.asking y.1.hub who⟩)
    (haside : ∀ {m m' b}, m.Aside m' → I m b → I m' b) : I l x.2 := by
  obtain ⟨service, sessions, h⟩ := h
  refine Recorded.invariant (I := fun _ l b => I l b) books_blank h hl (fun sv _ => hattach sv)
    (fun {y d' m m' who} hy hn hm hm' hs hb => ?_) fun _ _ _ _ ht ha hb => ?_
  · have hy : Reachable c y := ⟨service, sessions, hy⟩
    rw [books_own _ hm hm']
    exact hown hy hm (hy.next hn) hm' hs hb
  · rw [books_aside _ ht]
    exact haside ha hb

end Booked

end Parley.Dispatcher
