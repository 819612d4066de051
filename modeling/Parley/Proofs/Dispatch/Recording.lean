import Parley.Proofs.Dispatch.Reach

namespace Parley.Dispatch.Link

/-- What happens to a connection that none of its actors does. -/
inductive Aside (l : Link) : Link → Prop
  | same : Aside l l
  | send (errand : Errand) : Aside l (l.send errand).1
  | abort (n : Nat) : Aside l { l with desk := l.desk.drop (.caller n) }
  | outside {l' : Link} (h : l.Outside l') : Aside l l'

end Parley.Dispatch.Link

namespace Parley.Dispatcher

open Dispatch

variable {d d' : Dispatcher} {c : ConnectionId} {l l' : Link} {t : Option Task}

theorem step_own {who : Actor} (hd : d.Sound) (hl : d.link? c = some l)
    (h : d.step (c, who) = some d') : ∃ l', d'.link? c = some l' ∧
      l.step d.service d.hub who = some (d'.hub, l') ∧ Link.Steps d.hub l who d'.hub l' := by
  obtain ⟨m, l', hub, hm, hs, rfl⟩ := step_eq_some h
  obtain rfl : l = m := Option.some.inj (hl.symm.trans hm)
  have hsteps := Link.step_steps (hd.linked hl).1 hs
  exact ⟨l', link?_put_self hl (hsteps.id.trans (id_of_link? hl)), hs, hsteps⟩

theorem account_aside (a : Ledger) (ht : ∀ who, t ≠ some (c, who)) : account c a d d' t = a := by
  rcases t with _ | ⟨c', who⟩
  · rfl
  · have hc : c' ≠ c := fun hc => ht who (hc ▸ rfl)
    simp only [account, if_neg hc]
    split <;> rfl

theorem put_aside {m m' : Link} {c' : ConnectionId} (hl : d.link? c = some l)
    (hm : d.link? c' = some m) (hi : m'.id = m.id) (ha : m.Aside m') :
    ∃ l', (d.put m').link? c = some l' ∧ l.Aside l' := by
  have hm' : m'.id = c' := hi.trans (id_of_link? hm)
  by_cases hc : c' = c
  · subst hc
    obtain rfl : l = m := Option.some.inj (hl.symm.trans hm)
    exact ⟨m', link?_put_self hl hm', ha⟩
  · exact ⟨l, by rw [link?_put_of_ne hm' hc, hl], .same⟩

theorem Next.own_or_aside (hd : d.Sound) (h : Next d t d') (hl : d.link? c = some l) :
    ∃ l', d'.link? c = some l' ∧ ((∃ who, t = some (c, who) ∧
        l.step d.service d.hub who = some (d'.hub, l')) ∨
      (∀ who, t ≠ some (c, who)) ∧ l.Aside l') := by
  have hquiet (ht : t = none) (ha : ∃ l', d'.link? c = some l' ∧ l.Aside l') :
      ∃ l', d'.link? c = some l' ∧ ((∃ who, t = some (c, who) ∧
          l.step d.service d.hub who = some (d'.hub, l')) ∨
        (∀ who, t ≠ some (c, who)) ∧ l.Aside l') := by
    obtain ⟨l', hl', ha⟩ := ha
    exact ⟨l', hl', .inr ⟨by simp [ht], ha⟩⟩
  cases h with
  | @step d' task h =>
      obtain ⟨c', who⟩ := task
      by_cases hc : c' = c
      · subst hc
        obtain ⟨l', hl', hs, -⟩ := step_own hd hl h
        exact ⟨l', hl', .inl ⟨who, rfl, hs⟩⟩
      · obtain ⟨m, m', hub, hm, -, rfl, hm', -⟩ := change_of_step hd h
        refine ⟨l, ?_, .inr ⟨fun who h => hc (Prod.mk.inj (Option.some.inj h)).1, .same⟩⟩
        change (d.put m').link? c = some l
        rw [link?_put_of_ne hm' hc, hl]
  | attach h =>
      refine hquiet rfl ⟨l, ?_, .same⟩
      rw [link?_attach, hl]
      rfl
  | close | world => exact hquiet rfl ⟨l, hl, .same⟩
  | @send d' c' errand n h =>
      obtain ⟨m, hm, rfl, -⟩ := send_eq_some h
      exact hquiet rfl (put_aside hl hm rfl (.send errand))
  | @abort c' m n h =>
      refine hquiet rfl ?_
      rcases m.desk.abort_cases (.caller n) with ha | ha <;> rw [ha]
      · exact put_aside hl h rfl .same
      · exact put_aside hl h rfl (.abort n)
  | outside h hm =>
      refine hquiet rfl (put_aside hl h ?_ (.outside hm))
      obtain ⟨_, _, _, _, rfl⟩ := hm
      rfl

section Recorded

open Relation (ReflTransGen)

variable {β γ : Type} {f : β → Dispatcher → Dispatcher → Option Task → β} {b : β}
  {service : Service} {sessions : Session.Manager CallName} {x y : Dispatcher × β}

def Recorded (f : β → Dispatcher → Dispatcher → Option Task → β) (x y : Dispatcher × β) : Prop :=
  ∃ t, Next x.1 t y.1 ∧ y.2 = f x.2 x.1 y.1 t

/-- A part of what is recorded is itself recorded, if it goes on by itself. -/
theorem Recorded.map {g : γ → Dispatcher → Dispatcher → Option Task → γ} {p : β → γ}
    (hp : ∀ b d d' t, p (f b d d' t) = g (p b) d d' t) (h : ReflTransGen (Recorded f) x y) :
    ReflTransGen (Recorded g) (x.1, p x.2) (y.1, p y.2) :=
  h.lift (fun z => (z.1, p z.2)) fun _ _ ⟨t, hn, hz⟩ => ⟨t, hn, (congrArg p hz).trans (hp ..)⟩

theorem Recorded.sound (h : ReflTransGen (Recorded f) (serving service sessions, b) x) :
    x.1.Sound := by
  induction h with
  | refl => exact sound_serving _ _
  | tail _ h ih =>
      obtain ⟨t, hn, -⟩ := h
      exact ih.next hn

theorem Recorded.fresh
    (hblank : ∀ {d d' t}, d.Sound → Next d t d' → d.link? c = none → f b d d' t = b)
    (h : ReflTransGen (Recorded f) (serving service sessions, b) x) (hl : x.1.link? c = none) :
    x.2 = b := by
  induction h with
  | refl => rfl
  | @tail y z hy h ih =>
      obtain ⟨t, hn, hz⟩ := h
      have hd := Recorded.sound hy
      cases hl' : y.1.link? c with
      | some l =>
          obtain ⟨m, hm, -⟩ := hn.own_or_aside hd hl'
          cases hm.symm.trans hl
      | none => rw [hz, ih hl', hblank hd hn hl']

theorem Recorded.invariant {I : Hub → Link → β → Prop}
    (hblank : ∀ {d d' t}, d.Sound → Next d t d' → d.link? c = none → f b d d' t = b)
    (h : ReflTransGen (Recorded f) (serving service sessions, b) x) (hl : x.1.link? c = some l)
    (hattach : ∀ sv hub, I hub (.attach sv c) b)
    (hown : ∀ {y d' m m' who}, ReflTransGen (Recorded f) (serving service sessions, b) y →
      Next y.1 (some (c, who)) d' → y.1.link? c = some m → d'.link? c = some m' →
      m.step y.1.service y.1.hub who = some (d'.hub, m') → I y.1.hub m y.2 →
        I d'.hub m' (f y.2 y.1 d' (some (c, who))))
    (haside : ∀ {y d' t m m'}, ReflTransGen (Recorded f) (serving service sessions, b) y →
      Next y.1 t d' → y.1.link? c = some m → d'.link? c = some m' →
      (∀ who, t ≠ some (c, who)) → m.Aside m' → I y.1.hub m y.2 →
        I d'.hub m' (f y.2 y.1 d' t)) : I x.1.hub l x.2 := by
  induction h generalizing l with
  | refl => cases hl
  | @tail y z hy h ih =>
      obtain ⟨t, hn, hz⟩ := h
      have hd := Recorded.sound hy
      rw [hz]
      cases hl' : y.1.link? c with
      | none =>
          obtain rfl := (hn.blank hd hl').2.2 l hl
          rw [Recorded.fresh hblank hy hl', hblank hd hn hl']
          exact hattach _ _
      | some m =>
          obtain ⟨m', hm', hc⟩ := hn.own_or_aside hd hl'
          obtain rfl : m' = l := Option.some.inj (hm'.symm.trans hl)
          rcases hc with ⟨who, rfl, hs⟩ | ⟨ht, ha⟩
          · exact hown hy hn hl' hl hs (ih hl')
          · exact haside hy hn hl' hl ht ha (ih hl')

end Recorded

end Parley.Dispatcher
