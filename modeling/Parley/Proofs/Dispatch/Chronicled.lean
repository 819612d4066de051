import Parley.Proofs.Dispatch.Books
import Parley.Proofs.Dispatch.Hooks

namespace Parley.Dispatcher

open Dispatch

variable {d d' : Dispatcher} {c : ConnectionId} {l l' : Link} {t : Option Task} {x : Chronicle}

def chronicle (c : ConnectionId) (x : Chronicle) (d d' : Dispatcher) : Option Task → Chronicle
  | none => x
  | some (c', who) =>
    match d.link? c, d'.link? c with
    | some l, some l' => if c' = c then x.observe d.hub l l' who else x
    | _, _ => x

theorem chronicle_own {who : Actor} (x : Chronicle) (hl : d.link? c = some l)
    (hl' : d'.link? c = some l') :
    chronicle c x d d' (some (c, who)) = x.observe d.hub l l' who := by
  simp only [chronicle, hl, hl', if_pos]

theorem chronicle_aside (x : Chronicle) (ht : ∀ who, t ≠ some (c, who)) :
    chronicle c x d d' t = x := by
  rcases t with _ | ⟨c', who⟩
  · rfl
  · have hc : c' ≠ c := fun hc => ht who (hc ▸ rfl)
    simp only [chronicle, if_neg hc]
    split <;> rfl

theorem chronicle_blank (x : Chronicle) (hl : d.link? c = none) : chronicle c x d d' t = x := by
  rcases t with _ | ⟨c', who⟩
  · rfl
  · simp only [chronicle, hl]

theorem chronicle_ledger (c : ConnectionId) (x : Chronicle) (d d' : Dispatcher) (t : Option Task) :
    (chronicle c x d d' t).ledger = account c x.ledger d d' t := by
  rcases t with _ | ⟨c', who⟩
  · rfl
  · cases hl : d.link? c <;> cases hl' : d'.link? c <;> simp only [chronicle, account, hl, hl']
    split <;> rfl

namespace Chronicled

def Step (c : ConnectionId) (y z : Dispatcher × Chronicle) : Prop :=
  ∃ t, Next y.1 t z.1 ∧ z.2 = chronicle c y.2 y.1 z.1 t

def Reachable (c : ConnectionId) (y : Dispatcher × Chronicle) : Prop :=
  ∃ service sessions, Relation.ReflTransGen (Step c) (serving service sessions, {}) y

variable {y z : Dispatcher × Chronicle}

theorem Reachable.audited (h : Reachable c y) : Dispatcher.Reachable c (y.1, y.2.ledger) := by
  obtain ⟨service, sessions, h⟩ := h
  exact ⟨service, sessions, Recorded.map (p := Chronicle.ledger) (chronicle_ledger c) h⟩

theorem Reachable.sound (h : Reachable c y) : y.1.Sound := h.audited.accounted.sound

/-- What is told of a connection by its chronicle. -/
structure Holds (c : ConnectionId) (h : Hub) (l : Link) (x : Chronicle) : Prop where
  recorded : l.Recorded x.diary
  sourced : (l.view h).Sourced c x.ledger x.diary x.posts
  posts : x.posts.map (·.2) = l.responses

theorem Holds.own {who : Actor} (hy : Reachable c (d, x)) (hl : d.link? c = some l)
    (hs : l.step d.service d.hub who = some (d'.hub, l')) (hx : Holds c d.hub l x) :
    Holds c d'.hub l' (x.observe d.hub l l' who) := by
  obtain ⟨ht, hv⟩ := hy.sound.linked hl
  have hi := id_of_link? hl
  have hsteps := Link.step_steps ht hs
  have hc := hsteps.change
  have hg := Link.goes_diary (x := x) ht (hi ▸ hv) hs
  rw [hi] at hc hg
  have hsrc := hx.sourced.change who (hy.audited.tallied hl) (hy.audited.paired hl) hv hc hg
    (fun s j hj hst => ?_) fun u hu => Link.deed_eq_post hu
  · have hled : x.ledger.observe d.hub l l' who = { x.ledger.after c (l.view d.hub)
        (l'.view d'.hub) (l.deed l' who) with read := x.ledger.read ++ Ledger.published l l' } := by
      rw [Ledger.observe, record_eq x.ledger d.hub d'.hub hi]
    refine ⟨hx.recorded.step ht hs, ?_, ?_⟩
    · simp only [Chronicle.observe, hled]
      exact hsrc.read _
    · obtain ⟨ys, hys, -⟩ := hc.responses
      have hys : l'.responses = l.responses ++ ys := hys
      simp [Chronicle.observe, hx.posts, hys, Function.comp_def]
  · obtain ⟨k, hk, rfl⟩ := call_of_job (d := d) hj
    exact (hk ▸ hx.recorded.told s).bare hst

theorem Holds.aside (hy : Reachable c (d, x)) (hn : Next d t d') (hl : d.link? c = some l)
    (hl' : d'.link? c = some l') (ht : ∀ who, t ≠ some (c, who)) (ha : l.Aside l')
    (hx : Holds c d.hub l x) : Holds c d'.hub l' x := by
  have hv := (hy.sound.linked hl).2
  obtain ⟨m, e, w, hp⟩ := hn.passes hy.sound hl
  obtain rfl : m = l' := Option.some.inj (hp.link.symm.trans hl')
  obtain rfl : e = .nothing := by
    rcases hp.origin with ⟨who, hw, -⟩ | ⟨-, he, -⟩
    · exact absurd hw (ht who)
    · exact he
  obtain ⟨ys, hys, hnil⟩ := hp.change.responses
  rw [hnil rfl, List.append_nil] at hys
  have hg : View.Goes c (l.view d.hub) w .nothing x.diary x.diary :=
    ⟨fun h => h, fun _ h => h, fun _ => rfl, fun h => by cases h⟩
  have hsrc := hx.sourced.change .writer (hy.audited.tallied hl) (hy.audited.paired hl) hv
    hp.change hg (fun s j hj hst => ?_) fun u hu => by cases hu
  · rw [hys, List.drop_length, List.map_nil, List.append_nil] at hsrc
    refine ⟨?_, hsrc.like hp.like, ?_⟩
    · cases ha with
      | same => exact hx.recorded
      | send errand => exact hx.recorded.congr rfl (Nat.le_succ _)
      | abort n => exact hx.recorded.congr rfl (Nat.le_refl _)
      | outside h =>
          obtain ⟨_, _, _, _, rfl⟩ := h
          exact hx.recorded.congr rfl (Nat.le_refl _)
    · exact hx.posts.trans (hys.symm.trans hp.like.responses.symm)
  · obtain ⟨k, hk, rfl⟩ := call_of_job (d := d) hj
    exact (hk ▸ hx.recorded.told s).bare hst

theorem Reachable.holds (h : Reachable c y) (hl : y.1.link? c = some l) :
    Holds c y.1.hub l y.2 := by
  obtain ⟨service, sessions, h⟩ := h
  refine Recorded.invariant (I := Holds c) (fun _ _ hl => chronicle_blank _ hl) h hl
    (fun sv hub => ?_) (fun {z d' m m' who} hz hn hm hm' hs hx => ?_)
    fun {z d' t m m'} hz hn hm hm' ht ha hx => ?_
  · refine ⟨⟨fun s => .dropped none, fun s _ => rfl⟩, ?_, rfl⟩
    rw [attached_view]
    exact ⟨.nil, fun _ hd => by cases hd⟩
  · have hz : Reachable c z := ⟨service, sessions, hz⟩
    rw [chronicle_own _ hm hm']
    exact .own hz hm hs hx
  · have hz : Reachable c z := ⟨service, sessions, hz⟩
    rw [chronicle_aside _ ht]
    exact .aside hz hn hm hm' ht ha hx

def follow (c : ConnectionId) : List Actor → Dispatcher × Chronicle → Option (Dispatcher × Chronicle)
  | [], y => some y
  | who :: ws, (d, x) => do
    let d' ← d.step (c, who)
    follow c ws (d', chronicle c x d d' (some (c, who)))

theorem Reachable.next (h : Reachable c (d, x)) (hn : Next d t d') :
    Reachable c (d', chronicle c x d d' t) := by
  obtain ⟨service, sessions, h⟩ := h
  exact ⟨service, sessions, h.tail ⟨t, hn, rfl⟩⟩

theorem Reachable.follow {ws : List Actor} (h : Reachable c y) (hf : follow c ws y = some z) :
    Reachable c z := by
  induction ws generalizing y with
  | nil =>
      cases hf
      exact h
  | cons who ws ih =>
      obtain ⟨d, x⟩ := y
      simp only [Chronicled.follow, Option.bind_eq_bind, Option.bind_eq_some_iff] at hf
      obtain ⟨d', hd, hf⟩ := hf
      exact ih (h.next (.step hd)) hf

def served (service : Service) (sessions : Session.Manager CallName) (c : ConnectionId)
    (bytes : Bytes) : Dispatcher :=
  ((serving service sessions).attach c).put ((Link.attach service c).receive bytes)

theorem reachable_of_follow {service : Service} {sessions : Session.Manager CallName}
    {bytes : Bytes}
    {ws : List Actor} (h : follow c ws (served service sessions c bytes, {}) = some y) :
    Reachable c y := by
  have hstart : Reachable c (serving service sessions, {}) := ⟨service, sessions, .refl⟩
  have hcome := hstart.next (.attach (c := c) rfl)
  have hl : ((serving service sessions).attach c).link? c = some (.attach service c) := by
    rw [link?_attach]
    simp [serving, link?]
  exact (hcome.next (.outside hl ⟨_, _, _, _, rfl⟩)).follow h

end Chronicled

end Parley.Dispatcher
