import Parley.Proofs.Dispatch.Apart

namespace Parley.Dispatcher

open Dispatch

variable {d d' : Dispatcher} {c : ConnectionId} {l l' : Link} {t : Option Task}

theorem id_of_link? (h : d.link? c = some l) : l.id = c := by
  simpa using List.find?_some h

theorem link?_put (d : Dispatcher) (l : Link) (c : ConnectionId) :
    (d.put l).link? c = if c = l.id then (d.link? c).map fun _ => l else d.link? c := by
  rcases d with ⟨service, hub, links⟩
  simp only [link?, put]
  induction links with
  | nil => simp
  | cons m ms ih => grind

theorem link?_put_self (h : d.link? c = some l) (hi : l'.id = c) :
    (d.put l').link? c = some l' := by
  rw [link?_put, if_pos hi.symm, h]
  rfl

theorem step_of_link {who : Actor} {h' : Hub} (hl : d.link? c = some l)
    (hs : l.step d.service d.hub who = some (h', l')) :
    d.step (c, who) = some { d.put l' with hub := h' } := by
  simp [step, hl, hs]

theorem link?_put_of_ne {c' : ConnectionId} (hi : l'.id = c') (hc : c' ≠ c) :
    (d.put l').link? c = d.link? c := by
  rw [link?_put, if_neg fun e => hc (hi.symm.trans e.symm)]

theorem link?_put_eq_none : (d.put l).link? c = none ↔ d.link? c = none := by
  rw [link?_put]
  split <;> simp

theorem link?_attach (d : Dispatcher) (c c' : ConnectionId) :
    (d.attach c').link? c =
      (d.link? c).or (if c' = c then some (.attach d.service c') else none) := by
  simp only [link?, attach, List.find?_append]
  congr 1
  by_cases h : c' = c <;> simp [Link.attach, h]

structure Sound (d : Dispatcher) : Prop where
  keyed : d.hub.inflight.Keyed
  linked : ∀ {c l}, d.link? c = some l → l.Tidy ∧ (l.view d.hub).Sound c
  blank : ∀ {c}, d.link? c = none → Blank c d.hub.inflight

def Apart (l l' : Link) : Prop :=
  ∃ inbound written farOpen callers outcomes peer numbered,
    l' = { l with inbound, written, farOpen, numbered, desk := ⟨peer, callers, outcomes⟩ }

/-- What a step of the dispatcher is for the connection `c`, which is `l` before it. Either one of
its own actors takes the step, or the connection is left alone. -/
structure Passes (c : ConnectionId) (d : Dispatcher) (t : Option Task) (d' : Dispatcher)
    (l l' : Link)
    (e : Deed) (w : View) : Prop where
  link : d'.link? c = some l'
  tidy : l'.Tidy
  change : Change c (l.view d.hub) e w
  like : View.Like c w (l'.view d'.hub)
  ledger : ∀ a : Ledger, ∃ read, account c a d d' t = { a.after c (l.view d.hub) w e with read }
  origin : (∃ who, t = some (c, who) ∧ l.step d.service d.hub who = some (d'.hub, l') ∧
      e = l.deed l' who ∧ w = l'.view d'.hub ∧
        ∀ a, account c a d d' t = a.observe d.hub l l' who) ∨
    Apart l l' ∧ e = .nothing ∧ ∀ a, account c a d d' t = a

theorem Passes.fired {e : Deed} {w : View} {x : Scope} (h : Passes c d t d' l l' e w)
    (hx : (c, x) ∈ d.hub.inflight.fired) : (c, x) ∈ d'.hub.inflight.fired :=
  (h.like.registry.fired x).2 (h.change.fired hx)

theorem record_eq (a : Ledger) (h h' : Hub) (hi : l.id = c) (e : Deed) :
    a.record h l l' e = a.after c (l.view h) (l'.view h') e := by
  subst hi
  cases e <;> rfl

theorem Apart.refl (l : Link) : Apart l l :=
  ⟨l.inbound, l.written, l.farOpen, l.desk.callers, l.desk.outcomes, l.desk.peer, l.numbered, rfl⟩

theorem passes_silent {v : View} (hl : d'.link? c = some l') (ht : l'.Tidy)
    (hc : Change c (l.view d.hub) .nothing v) (hv : View.Like c v (l'.view d'.hub))
    (ha : Apart l l') : Passes c d none d' l l' .nothing v :=
  ⟨hl, ht, hc, hv, fun a => ⟨a.read, rfl⟩, .inr ⟨ha, rfl, fun _ => rfl⟩⟩

theorem step_eq_some {who : Actor} (h : d.step (c, who) = some d') : ∃ l l' hub,
    d.link? c = some l ∧ l.step d.service d.hub who = some (hub, l') ∧
      d' = { d.put l' with hub } := by
  simp only [step, Option.bind_eq_bind, Option.bind_eq_some_iff] at h
  obtain ⟨l, hl, ⟨hub, l'⟩, hs, he⟩ := h
  exact ⟨l, l', hub, hl, hs, (Option.some.inj he).symm⟩

theorem change_of_step {who : Actor} (hd : d.Sound) (h : d.step (c, who) = some d') :
    ∃ l l' hub, d.link? c = some l ∧ l.step d.service d.hub who = some (hub, l') ∧
      d' = { d.put l' with hub } ∧ l'.id = c ∧
        Change c (l.view d.hub) (l.deed l' who) (l'.view hub) := by
  obtain ⟨l, l', hub, hl, hs, rfl⟩ := step_eq_some h
  have hsteps := Link.step_steps (hd.linked hl).1 hs
  have hi := id_of_link? hl
  exact ⟨l, l', hub, hl, hs, rfl, hsteps.id.trans hi, hi ▸ hsteps.change⟩

theorem send_eq_some {errand : Errand} {n : Nat} (h : d.send c errand = some (d', n)) :
    ∃ l, d.link? c = some l ∧ d' = d.put (l.send errand).1 ∧ n = l.numbered := by
  obtain ⟨l, hl, he⟩ := Option.map_eq_some_iff.1 h
  cases he
  exact ⟨l, hl, rfl, rfl⟩

theorem account_own {who : Actor} (a : Ledger) (hl : d.link? c = some l)
    (hl' : d'.link? c = some l') :
    account c a d d' (some (c, who)) = a.observe d.hub l l' who := by
  simp only [account, hl, hl', if_pos]

theorem passes_put {m m' : Link} {v : View} {c' : ConnectionId} (hd : d.Sound)
    (hl : d.link? c = some l) (hm : d.link? c' = some m) (ha : Apart m m') (ht : m'.Tidy)
    (hc : Change c' (m.view d.hub) .nothing v) (hv : m'.view d.hub = v) :
    ∃ l' e w, Passes c d none (d.put m') l l' e w := by
  have hi : m'.id = m.id := by
    obtain ⟨_, _, _, _, _, _, _, rfl⟩ := ha
    rfl
  have hm' : m'.id = c' := hi.trans (id_of_link? hm)
  by_cases hcc : c' = c
  · subst hcc
    obtain rfl : l = m := Option.some.inj (hl.symm.trans hm)
    subst hv
    exact ⟨m', _, _, passes_silent (link?_put_self hl hm') ht hc (.refl _ _) ha⟩
  · have hl' : (d.put m').link? c = some l := by
      rw [link?_put_of_ne hm' hcc, hl]
    exact ⟨l, _, _, passes_silent hl' (hd.linked hl).1 (.idle (Nat.le_refl _)) (.refl _ _) (.refl l)⟩

theorem passes_step {c' : ConnectionId} {who : Actor} (hd : d.Sound)
    (h : d.step (c', who) = some d') (hl : d.link? c = some l) :
    ∃ l' e w, Passes c d (some (c', who)) d' l l' e w := by
  have hi := id_of_link? hl
  obtain ⟨m, m', hub, hm, hs, rfl⟩ := step_eq_some h
  have hsteps := Link.step_steps (hd.linked hm).1 hs
  have hmi := id_of_link? hm
  have hm' : m'.id = c' := hsteps.id.trans hmi
  by_cases hc : c' = c
  · subst hc
    obtain rfl : l = m := Option.some.inj (hl.symm.trans hm)
    have hl' : ({ d.put m' with hub } : Dispatcher).link? c' = some m' := link?_put_self hl hm'
    have hacc (a : Ledger) : account c' a d _ (some (c', who)) = a.observe d.hub l m' who :=
      account_own a hl hl'
    refine ⟨m', _, _, hl', hsteps.tidy, hi ▸ hsteps.change, .refl _ _,
      fun a => ⟨a.read ++ Ledger.published l m', ?_⟩, .inl ⟨who, rfl, hs, rfl, rfl, hacc⟩⟩
    rw [hacc, ← record_eq a d.hub hub hi]
    rfl
  · have hl' : ({ d.put m' with hub } : Dispatcher).link? c = some l := by
      change (d.put m').link? c = some l
      rw [link?_put_of_ne hm' hc, hl]
    have hch : Change c' (m.view d.hub) (m.deed m' who) (m'.view hub) := hmi ▸ hsteps.change
    have hsame : SameOn c d.hub.inflight hub.inflight := (hd.linked hm).2.sameOn hc hch
    have hacc (a : Ledger) : account c a d { d.put m' with hub } (some (c', who)) = a := by
      simp only [account, hl, hl', if_neg hc]
    exact ⟨l, _, _, hl', (hd.linked hl).1, .idle (Nat.le_refl _),
      ⟨hsame, rfl, rfl, rfl, rfl, rfl, rfl⟩, fun a => ⟨a.read, hacc a⟩, .inr ⟨.refl l, rfl, hacc⟩⟩

theorem Next.passes (hd : d.Sound) (h : Next d t d') (hl : d.link? c = some l) :
    ∃ l' e w, Passes c d t d' l l' e w := by
  obtain ⟨ht, -⟩ := hd.linked hl
  have hidle : Change c (l.view d.hub) .nothing (l.view d.hub) := .idle (Nat.le_refl _)
  cases h with
  | step h => exact passes_step hd h hl
  | @attach c' h =>
      refine ⟨l, _, _, passes_silent ?_ ht hidle (.refl _ _) (.refl l)⟩
      rw [link?_attach, hl]
      rfl
  | close c' =>
      by_cases hc : c' = c
      · subst hc
        exact ⟨l, _, _, passes_silent hl ht .told (.refl _ _) (.refl l)⟩
      · exact ⟨l, _, _, passes_silent hl ht hidle ⟨.fire _ hc, rfl, rfl, rfl, rfl, rfl, rfl⟩ (.refl l)⟩
  | @send d' c' errand n h =>
      obtain ⟨m, hm, rfl, -⟩ := send_eq_some h
      obtain ⟨htm, -⟩ := hd.linked hm
      refine passes_put hd hl hm ⟨_, _, _, _, _, _, _, rfl⟩ ⟨fun k hk => ?_, fun x hx => ?_, htm.pump⟩
        (.idle (Nat.le_succ _)) rfl
      · exact ⟨(htm.calls k hk).1, Nat.lt_succ_of_lt (htm.calls k hk).2⟩
      · rcases List.mem_append.1 hx with hx | hx
        · exact htm.callers x hx
        · rw [List.mem_singleton.1 hx]
          trivial
  | @abort c' m n h =>
      obtain ⟨htm, -⟩ := hd.linked h
      refine passes_put hd hl h ⟨_, _, _, _, _, _, _, rfl⟩ ⟨htm.calls, fun x hx => ?_, htm.pump⟩
        (.idle (Nat.le_refl _)) ?_
      · rcases m.desk.abort_cases (.caller n) with ha | ha
        · exact htm.callers x (ha ▸ hx)
        · rw [ha] at hx
          exact htm.callers x (List.mem_filter.1 hx).1
      · rcases m.desk.abort_cases (.caller n) with ha | ha
        · rw [ha]
        · simp [ha, Link.view, Link.call?, Link.responses, Peer.responses, Desk.drop, Desk.dismiss,
            Peer.abandon]
  | @outside c' m m' h hm =>
      obtain ⟨inbound, written, farOpen, outcomes, rfl⟩ := hm
      obtain ⟨htm, -⟩ := hd.linked h
      exact passes_put hd hl h ⟨_, _, _, _, _, _, _, rfl⟩ (htm.congr rfl rfl rfl rfl)
        (.idle (Nat.le_refl _)) rfl
  | @world hub hi =>
      refine ⟨l, _, _, passes_silent hl ht hidle ⟨?_, rfl, rfl, rfl, rfl, rfl, rfl⟩ (.refl l)⟩
      change SameOn c d.hub.inflight hub.inflight
      rw [hi]
      exact .refl _ _

theorem Next.keyed (hd : d.Sound) (h : Next d t d') : d'.hub.inflight.Keyed := by
  cases h with
  | @step d' task h =>
      obtain ⟨c', who⟩ := task
      obtain ⟨m, m', hub, hm, -, rfl, -, hch⟩ := change_of_step hd h
      exact ((hd.linked hm).2.change hch).keyed
  | attach | close => exact hd.keyed
  | abort | outside => exact hd.keyed
  | send h =>
      obtain ⟨m, -, rfl, -⟩ := send_eq_some h
      exact hd.keyed
  | world hi => exact hi ▸ hd.keyed

theorem Next.service (h : Next d t d') : d'.service = d.service := by
  cases h with
  | @step d' t h =>
      obtain ⟨c, who⟩ := t
      obtain ⟨l, l', hub, -, -, rfl⟩ := step_eq_some h
      rfl
  | send h =>
      obtain ⟨l, -, rfl, -⟩ := send_eq_some h
      rfl
  | attach | close | world | abort | outside => rfl

theorem Next.blank (hd : d.Sound) (h : Next d t d') (hl : d.link? c = none) :
    Blank c d'.hub.inflight ∧ (∀ a, account c a d d' t = a) ∧
      ∀ l', d'.link? c = some l' → l' = .attach d.service c := by
  have hb := hd.blank hl
  have hacc (a : Ledger) : account c a d d' t = a := by
    cases t with
    | none => rfl
    | some t => simp only [account]; split <;> simp_all
  have hput {l l' : Link} (h : (d.put l).link? c = some l') : l' = .attach d.service c := by
    rw [link?_put_eq_none.2 hl] at h
    cases h
  cases h with
  | @step d' task h =>
      obtain ⟨c', who⟩ := task
      obtain ⟨m, m', hub, hm, -, rfl, -, hch⟩ := change_of_step hd h
      have hc : c' ≠ c := by
        rintro rfl
        rw [hl] at hm
        cases hm
      exact ⟨((hd.linked hm).2.sameOn hc hch).blank hb, hacc, fun l' h => hput h⟩
  | @attach c' h =>
      refine ⟨hb, hacc, fun l' h' => ?_⟩
      rw [link?_attach, hl] at h'
      by_cases hc : c' = c <;> simp [hc] at h'
      exact h'.symm
  | close c' =>
      refine ⟨⟨hb.entries, hb.claimed, fun x hx => ?_⟩, hacc, fun l' h => ?_⟩
      · rcases InFlight.mem_fired_fire.1 hx with hx | hx
        · exact hb.fired x hx
        · exact (Prod.mk.inj hx).2
      · change d.link? c = some l' at h
        rw [hl] at h
        cases h
  | send h =>
      obtain ⟨m, -, rfl, -⟩ := send_eq_some h
      exact ⟨hb, hacc, fun l' h => hput h⟩
  | abort | outside => exact ⟨hb, hacc, fun l' h => hput h⟩
  | world hi =>
      refine ⟨hi ▸ hb, hacc, fun l' h => ?_⟩
      change d.link? c = some l' at h
      rw [hl] at h
      cases h

theorem attached_tidy (sv : Service) (c : ConnectionId) : (Link.attach sv c).Tidy :=
  ⟨by simp [Link.attach], by simp [Link.attach], by simp [Link.attach]⟩

theorem attached_view (sv : Service) (c : ConnectionId) (h : Hub) :
    (Link.attach sv c).view h = ⟨h.inflight, fun _ => none, 0, .taking, [], false, .none⟩ := rfl

theorem attached_sound {sv : Service} {h : Hub} (hk : h.inflight.Keyed)
    (hb : Blank c h.inflight) : ((Link.attach sv c).view h).Sound c := by
  have hf (x : Scope) (hx : (c, x) ∈ h.inflight.fired) : x = .connection := hb.fired x hx
  rw [attached_view]
  constructor
  case keyed => exact hk
  case entry => exact fun ht hc => absurd hc (hb.entries _ ht)
  case claimed => exact fun hn => absurd hn (hb.claimed _)
  case fired => exact fun hs => by cases hf _ hs
  case handlers => exact fun hs => by cases hf _ hs
  all_goals simp [Purge.doomed]

theorem attached_balanced (sv : Service) (c : ConnectionId) (h : Hub) :
    ((Link.attach sv c).view h).Balanced c {} := by
  rw [attached_view]
  refine ⟨⟨?_, ?_, ?_⟩, ?_, .nil, .nil, ?_, ?_⟩ <;> simp

/-- Every step leaves the registry and the calls in agreement. -/
theorem Sound.next (hd : d.Sound) (h : Next d t d') : d'.Sound where
  keyed := h.keyed hd
  linked := by
    intro c l' hl'
    cases hl : d.link? c with
    | none =>
        obtain ⟨hb, -, hn⟩ := h.blank hd hl
        obtain rfl := hn l' hl'
        exact ⟨attached_tidy _ _, attached_sound (h.keyed hd) hb⟩
    | some l =>
        obtain ⟨m, e, w, hp⟩ := h.passes hd hl
        obtain rfl : m = l' := Option.some.inj (hp.link.symm.trans hl')
        exact ⟨hp.tidy, ((hd.linked hl).2.change hp.change).like hp.like (h.keyed hd)⟩
  blank := by
    intro c hl'
    cases hl : d.link? c with
    | none => exact (h.blank hd hl).1
    | some l =>
        obtain ⟨m, e, w, hp⟩ := h.passes hd hl
        rw [hp.link] at hl'
        cases hl'

theorem sound_serving (service : Service) (sessions : Session.Manager CallName) :
    (serving service sessions).Sound where
  keyed t ht := by cases ht
  linked hl := by cases hl
  blank _ := ⟨fun _ h => absurd h List.not_mem_nil, fun _ => List.not_mem_nil,
    fun _ h => absurd h List.not_mem_nil⟩

structure Accounted (c : ConnectionId) (x : Dispatcher × Ledger) : Prop where
  sound : x.1.Sound
  fresh : x.1.link? c = none → x.2 = {}
  balanced : ∀ {l}, x.1.link? c = some l → (l.view x.1.hub).IsOpen c → (l.view x.1.hub).Balanced c x.2

theorem Accounted.next {x y : Dispatcher × Ledger} (hx : Accounted c x) (h : Audited c x y) :
    Accounted c y := by
  obtain ⟨d, a⟩ := x
  obtain ⟨d', b⟩ := y
  obtain ⟨t, h, rfl : b = account c a d d' t⟩ := h
  refine ⟨hx.sound.next h, fun hl' => ?_, fun {l'} hl' ho => ?_⟩
  · cases hl : d.link? c with
    | none => exact ((h.blank hx.sound hl).2.1 a).trans (hx.fresh hl)
    | some l =>
        obtain ⟨m, e, w, hp⟩ := h.passes hx.sound hl
        rw [hp.link] at hl'
        cases hl'
  · cases hl : d.link? c with
    | none =>
        obtain ⟨-, hacc, hn⟩ := h.blank hx.sound hl
        obtain rfl := hn l' hl'
        have ha : a = {} := hx.fresh hl
        simp only [hacc a]
        rw [ha]
        exact attached_balanced _ _ _
    | some l =>
        obtain ⟨m, e, w, hp⟩ := h.passes hx.sound hl
        obtain rfl : m = l' := Option.some.inj (hp.link.symm.trans hl')
        obtain ⟨read, ha⟩ := hp.ledger a
        have how : w.IsOpen c := hp.like.isOpen.1 ho
        have hb := (hx.balanced hl (hp.change.isOpen how)).change (hx.sound.linked hl).2 hp.change how
        simp only [ha]
        exact (hb.like hp.like).read read

theorem Reachable.accounted {x : Dispatcher × Ledger} (h : Reachable c x) : Accounted c x := by
  obtain ⟨service, sessions, h⟩ := h
  induction h with
  | refl => exact ⟨sound_serving _ _, fun _ => rfl, fun hl => by cases hl⟩
  | tail _ h ih => exact ih.next h

theorem Reachable.runs {x y : Dispatcher × Ledger} (h : Reachable c x) (hr : Runs c x y) :
    Reachable c y := by
  obtain ⟨service, sessions, h⟩ := h
  exact ⟨service, sessions, h.trans hr⟩

/-- What holds of a connection when it comes, and is kept by every step, holds as long as it is
there. -/
theorem Reachable.invariant {I : Hub → Link → Ledger → Prop} {x : Dispatcher × Ledger}
    (h : Reachable c x) (hl : x.1.link? c = some l) (hattach : ∀ sv hub, I hub (.attach sv c) {})
    (hstep : ∀ {y z : Dispatcher × Ledger} {t m m'}, Reachable c y → Next y.1 t z.1 →
      z.2 = account c y.2 y.1 z.1 t → y.1.link? c = some m → z.1.link? c = some m' →
        I y.1.hub m y.2 → I z.1.hub m' z.2) : I x.1.hub l x.2 := by
  obtain ⟨service, sessions, h⟩ := h
  induction h generalizing l with
  | refl => cases hl
  | @tail y z hy h ih =>
      have hy : Reachable c y := ⟨service, sessions, hy⟩
      obtain ⟨t, hn, hz⟩ := h
      cases hl' : y.1.link? c with
      | none =>
          obtain ⟨-, ha, hnew⟩ := hn.blank hy.accounted.sound hl'
          obtain rfl := hnew l hl
          rw [hz, ha, hy.accounted.fresh hl']
          exact hattach _ _
      | some m => exact hstep hy hn hz hl' hl (ih hl')

/-- What the changes of the view keep, and what does not depend on other connections, holds of it.
-/
theorem Reachable.of_change {I : View → Ledger → Prop} {x : Dispatcher × Ledger}
    (h : Reachable c x) (hl : x.1.link? c = some l)
    (hattach : ∀ r, I ⟨r, fun _ => none, 0, .taking, [], false, .none⟩ {})
    (hchange : ∀ {v w e a}, v.Sound c → Change c v e w → I v a → I w (a.after c v w e))
    (hlike : ∀ {v w a}, View.Like c v w → I v a → ∀ read, I w { a with read }) :
    I (l.view x.1.hub) x.2 := by
  refine h.invariant (I := fun h l a => I (l.view h) a) hl (fun sv h => ?_) ?_
  · rw [attached_view]
    exact hattach _
  · intro y z t m m' hy hn hz hm hm' ha
    have hd := hy.accounted.sound
    obtain ⟨l', e, w, hp⟩ := hn.passes hd hm
    obtain rfl : l' = m' := Option.some.inj (hp.link.symm.trans hm')
    obtain ⟨read, hread⟩ := hp.ledger y.2
    rw [hz, hread]
    exact hlike hp.like (hchange (hd.linked hm).2 hp.change ha) read

end Parley.Dispatcher
