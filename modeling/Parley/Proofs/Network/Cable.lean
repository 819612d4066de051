import Parley.Proofs.Network.Run

namespace Parley.Network

open Dispatch

variable {n n' : Network} {s u : Side} {d : Dispatcher} {c : ConnectionId} {l l' m : Link}
  {k k' : Cable} {t : Option Task} {x : Network × (Side → Books)}

structure Wired (n : Network) : Prop where
  there : ∀ k ∈ n.cables, ∀ s, k.side s ∈ (n.side s).ids
  apart : ∀ k ∈ n.cables, ∀ k' ∈ n.cables, ∀ s, k.side s = k'.side s → k = k'

theorem carry_congr {α : Type} (f : Dispatcher → α) (hput : ∀ d l, f (d.put l) = f d)
    (hmodify : ∀ d c l, f (d.modify c (conveyed l)) = f d) (n : Network) (s u : Side)
    (c : ConnectionId) : f ((n.carry s c).side u) = f (n.side u) := by
  rcases carry_cases n s c with hn | ⟨c', l, -, -, hown, hother⟩
  · rw [hn]
  · rcases Side.eq_or s u with rfl | rfl
    · rw [hown, hput]
    · rw [hother, hmodify]

theorem ids_carry (n : Network) (s u : Side) (c : ConnectionId) :
    ((n.carry s c).side u).ids = (n.side u).ids :=
  carry_congr Dispatcher.ids Dispatcher.ids_put
    (fun _ _ l => Dispatcher.ids_modify (conveyed_id l)) n s u c

theorem service_carry (n : Network) (s u : Side) (c : ConnectionId) :
    ((n.carry s c).side u).service = (n.side u).service :=
  carry_congr Dispatcher.service (fun _ _ => rfl) (fun _ _ _ => rfl) n s u c

theorem Next.service (h : Next n t n') (u : Side) : (n'.side u).service = (n.side u).service := by
  cases h with
  | @step t n' h =>
      obtain ⟨s, c, who⟩ := t
      obtain ⟨d, hd, rfl⟩ := step_eq_some h
      rw [service_carry]
      rcases Side.eq_or s u with rfl | rfl
      · rw [side_put]
        exact (Dispatcher.Next.step hd).service
      · rw [side_put_other]
  | join => rw [side_join]; rfl
  | @aside s d h =>
      rcases Side.eq_or s u with rfl | rfl
      · rw [side_put]
        exact h.service
      · rw [side_put_other]

theorem ids_put_of_next {t : Option Dispatcher.Task} (h : Dispatcher.Next (n.side s) t d)
    (u : Side) :
    (n.side u).ids ⊆ ((n.put d s).side u).ids := by
  rcases Side.eq_or s u with rfl | rfl
  · rw [side_put]
    rcases h.ids with h | ⟨c, -, rfl⟩
    · rw [h]
      exact List.Subset.refl _
    · rw [Dispatcher.ids_attach]
      exact List.subset_append_left _ _
  · rw [side_put_other]
    exact List.Subset.refl _

theorem Wired.mono (h : n.Wired) (hc : n'.cables = n.cables)
    (hi : ∀ u, (n.side u).ids ⊆ (n'.side u).ids) : n'.Wired where
  there k hk s := hi s (h.there k (hc ▸ hk) s)
  apart k hk k' hk' := h.apart k (hc ▸ hk) k' (hc ▸ hk')

theorem Wired.join (h : n.Wired) (hn : ∀ u, (n.side u).link? (k.side u) = none) :
    (n.join k).Wired := by
  have hnew (k' : Cable) (hk' : k' ∈ n.cables) (u : Side) : k'.side u ≠ k.side u := by
    intro he
    obtain ⟨l, hl⟩ := Dispatcher.mem_ids.1 (h.there k' hk' u)
    rw [he, hn u] at hl
    cases hl
  constructor
  · intro k' hk' u
    rw [side_join, Dispatcher.ids_attach]
    rcases List.mem_append.1 hk' with hk' | hk'
    · exact List.mem_append_left _ (h.there k' hk' u)
    · exact List.mem_append_right _ (List.mem_singleton.1 hk' ▸ List.mem_singleton_self _)
  · intro k₁ h₁ k₂ h₂ u he
    rcases List.mem_append.1 h₁ with h₁ | h₁ <;> rcases List.mem_append.1 h₂ with h₂ | h₂
    · exact h.apart k₁ h₁ k₂ h₂ u he
    · exact absurd (he.trans (by rw [List.mem_singleton.1 h₂])) (hnew k₁ h₁ u)
    · exact absurd (he.symm.trans (by rw [List.mem_singleton.1 h₁])) (hnew k₂ h₂ u)
    · rw [List.mem_singleton.1 h₁, List.mem_singleton.1 h₂]

theorem Next.wired (h : Next n t n') (hw : n.Wired) : n'.Wired := by
  cases h with
  | @step t n' h =>
      obtain ⟨s, c, who⟩ := t
      obtain ⟨d, hd, rfl⟩ := step_eq_some h
      refine hw.mono (by simp) fun u => ?_
      rw [ids_carry]
      exact ids_put_of_next (.step hd) u
  | join hn hf => exact hw.join fun u => by cases u <;> assumption
  | aside h => exact hw.mono (by simp) (ids_put_of_next h)

theorem Reachable.wired (h : Reachable k x) : x.1.Wired := by
  obtain ⟨near, far, h⟩ := h
  induction h with
  | refl => exact ⟨fun _ h _ => (List.not_mem_nil h).elim, fun _ h => (List.not_mem_nil h).elim⟩
  | tail _ h ih =>
      obtain ⟨t, hn, -⟩ := h
      exact hn.wired ih

namespace Wired

theorem across? (h : n.Wired) (hk : k ∈ n.cables) (s : Side) :
    n.across? s (k.side s) = some (k.side s.other) := by
  cases hf : n.cables.find? fun k' => k'.side s = k.side s with
  | none => simpa using List.find?_eq_none.1 hf k hk
  | some k' =>
      obtain rfl : k' = k :=
        h.apart k' (List.mem_of_find?_eq_some hf) k hk s (by simpa using List.find?_some hf)
      rw [Network.across?, hf]
      rfl

theorem eq_of_across? (h : n.Wired) (hk : k ∈ n.cables)
    (hc : n.across? s c = some (k.side s.other)) : c = k.side s := by
  obtain ⟨k', hf, he⟩ := Option.map_eq_some_iff.1 hc
  obtain rfl := h.apart k' (List.mem_of_find?_eq_some hf) k hk s.other he
  simpa [eq_comm] using List.find?_some hf

end Wired

theorem link?_carry (hw : n.Wired) (hk : k ∈ n.cables) (hl : (n.side s).link? (k.side s) = some l) :
    ((n.carry s (k.side s)).side s).link? (k.side s) = some { l with written := [] } ∧
      ((n.carry s (k.side s)).side s.other).link? (k.side s.other) =
        ((n.side s.other).link? (k.side s.other)).map (conveyed l) := by
  obtain ⟨hown, hother⟩ := carry_eq (hw.across? hk s) hl
  have hi : l.id = k.side s := Dispatcher.id_of_link? hl
  rw [hown, hother, Dispatcher.link?_modify (conveyed_id l), if_pos rfl]
  exact ⟨Dispatcher.link?_put_self hl hi, rfl⟩

theorem link?_carry_of_ne (hw : n.Wired) (hk : k ∈ n.cables) (hc : c ≠ k.side s) (u : Side) :
    ((n.carry s c).side u).link? (k.side u) = (n.side u).link? (k.side u) := by
  rcases carry_cases n s c with hn | ⟨c', l, ha, hl, hown, hother⟩
  · rw [hn]
  · rcases Side.eq_or s u with rfl | rfl
    · have hi : l.id = c := Dispatcher.id_of_link? hl
      rw [hown, Dispatcher.link?_put_of_ne (by exact hi) hc]
    · rw [hother, Dispatcher.link?_modify (conveyed_id l), if_neg]
      rintro rfl
      exact hc (hw.eq_of_across? hk ha)

/-- What a step of the network is for the ends `l` and `l'` of a cable and for what has been read at
the second one: an actor of one end takes a step, and what it writes comes to the other end, or
something happens beside the actors that leaves the cable alone. -/
inductive Ends (sv sv' : Service) (l l' : Link) (read : List Message) :
    Link → Link → List Message → Prop
  | sent {who : Actor} {h h' : Hub} {m : Link} (ht : l.Tidy) (hs : l.step sv h who = some (h', m)) :
      Ends sv sv' l l' read { m with written := [] } (conveyed m l') read
  | received {who : Actor} {h h' : Hub} {m : Link} (ht : l'.Tidy)
      (hs : l'.step sv' h who = some (h', m)) :
      Ends sv sv' l l' read (conveyed m l) { m with written := [] } (read ++ Ledger.published l' m)
  | beside {m : Link} (ha : l.Aside m) (hw : m.written = l.written) : Ends sv sv' l l' read m l' read
  | beyond {m : Link} (ha : l'.Aside m) (hi : m.inbound = l'.inbound) :
      Ends sv sv' l l' read l m read

theorem Ends.same (sv sv' : Service) (l l' : Link) (read : List Message) :
    Ends sv sv' l l' read l l' read := .beside .same rfl

theorem books_of_ne {b : Side → Books} {who : Actor} (hc : c ≠ k.side s) :
    books k b n (some (s, c, who)) = b := by
  simp only [books]
  split
  · next d hd =>
    rw [Dispatcher.Booked.books_aside _ fun who' he => hc (Prod.mk.inj (Option.some.inj he)).1]
    exact Function.update_eq_self s b
  · rfl

theorem Ends.step {b : Side → Books} {who : Actor} (hw : n.Wired) (hs : ∀ u, (n.side u).Sound)
    (hk : k ∈ n.cables) (hl : (n.side s).link? (k.side s) = some l)
    (hl' : (n.side s.other).link? (k.side s.other) = some l')
    (h : n.step (u, c, who) = some n') : ∃ m m', (n'.side s).link? (k.side s) = some m ∧
      (n'.side s.other).link? (k.side s.other) = some m' ∧
        Ends (n.side s).service (n.side s.other).service l l' (b s.other).ledger.read m m'
          (books k b n (some (u, c, who)) s.other).ledger.read := by
  obtain ⟨d, hd, rfl⟩ := step_eq_some h
  have hn : Dispatcher.Next (n.side u) (some (c, who)) d := .step hd
  have hw' : (n.put d u).Wired := hw.mono (cables_put ..) (ids_put_of_next hn)
  have hk' : k ∈ (n.put d u).cables := by rwa [cables_put]
  by_cases hc : c = k.side u
  · subst hc
    rcases Side.eq_or s u with rfl | rfl
    · obtain ⟨m, hm, hstep, -⟩ := Dispatcher.step_own (hs u) hl hd
      obtain ⟨hown, hfar⟩ := link?_carry hw' hk' (by rwa [side_put])
      rw [side_put_other, hl'] at hfar
      refine ⟨_, _, hown, hfar, ?_⟩
      simp only [books, hd, Function.update_of_ne u.other_ne]
      exact .sent ((hs u).linked hl).1 hstep
    · obtain ⟨m, hm, hstep, -⟩ := Dispatcher.step_own (hs _) hl' hd
      obtain ⟨hown, hfar⟩ := link?_carry hw' hk' (by rwa [side_put])
      rw [Side.other_other, side_put_other', hl] at hfar
      refine ⟨_, _, hfar, hown, ?_⟩
      simp only [books, hd, Function.update_self, Dispatcher.Booked.books_own _ hl' hm]
      exact .received ((hs _).linked hl').1 hstep
  · have hlink (v : Side) : ((n.put d u).side v).link? (k.side v) = (n.side v).link? (k.side v) := by
      rcases Side.eq_or u v with rfl | rfl
      · obtain ⟨m, m', hub, hm, hstep, rfl⟩ := Dispatcher.step_eq_some hd
        have hi : m'.id = c :=
          (Link.step_steps ((hs v).linked hm).1 hstep).id.trans (Dispatcher.id_of_link? hm)
        rw [side_put]
        change ((n.side v).put m').link? (k.side v) = _
        rw [Dispatcher.link?_put_of_ne hi hc]
      · rw [side_put_other]
    rw [link?_carry_of_ne hw' hk' hc, link?_carry_of_ne hw' hk' hc, hlink, hlink, books_of_ne hc]
    exact ⟨l, l', hl, hl', .same ..⟩

/-- A step of the network, as the ends of a cable have it. -/
theorem Next.ends {b : Side → Books} (hw : n.Wired) (hs : ∀ u, (n.side u).Sound)
    (hk : k ∈ n.cables) (hl : (n.side s).link? (k.side s) = some l)
    (hl' : (n.side s.other).link? (k.side s.other) = some l') (h : Next n t n') :
    ∃ m m', (n'.side s).link? (k.side s) = some m ∧
      (n'.side s.other).link? (k.side s.other) = some m' ∧
        Ends (n.side s).service (n.side s.other).service l l' (b s.other).ledger.read m m'
          (books k b n t s.other).ledger.read := by
  cases h with
  | @step t n' h =>
      obtain ⟨u, c, who⟩ := t
      exact Ends.step hw hs hk hl hl' h
  | @join k' hnear hfar =>
      refine ⟨l, l', ?_, ?_, .same ..⟩
      · rw [side_join, Dispatcher.link?_attach, hl]
        rfl
      · rw [side_join, Dispatcher.link?_attach, hl']
        rfl
  | @aside u d h hu =>
      rcases Side.eq_or s u with rfl | rfl
      · obtain ⟨m, hm, ⟨who, ht, -⟩ | ⟨-, ha⟩⟩ := h.own_or_aside (hs u) hl
        · cases ht
        refine ⟨m, l', by rwa [side_put], by rwa [side_put_other], .beside ha ?_⟩
        exact (hu k hk l m hl hm).2.1
      · obtain ⟨m, hm, ⟨who, ht, -⟩ | ⟨-, ha⟩⟩ := h.own_or_aside (hs _) hl'
        · cases ht
        exact ⟨l, m, by rwa [side_put_other'], by rwa [side_put], .beyond ha (hu k hk l' m hl' hm).1⟩

theorem Next.joined (h : Next n t n') (hk : k ∉ n.cables) (hk' : k ∈ n'.cables) :
    t = none ∧ n' = n.join k ∧ ∀ u, (n.side u).link? (k.side u) = none := by
  cases h with
  | @step t n' h =>
      obtain ⟨s, c, who⟩ := t
      obtain ⟨d, -, rfl⟩ := step_eq_some h
      simp only [cables_carry, cables_put] at hk'
      contradiction
  | @join k' hnear hfar =>
      obtain rfl := List.mem_singleton.1 ((List.mem_append.1 hk').resolve_left hk)
      exact ⟨rfl, rfl, fun u => by cases u <;> assumption⟩
  | aside =>
      rw [cables_put] at hk'
      contradiction

/-- What holds of the ends of a cable when it is joined, and is kept by each step, holds on. -/
theorem Reachable.ends {I : Link → Link → List Message → Prop} {sv sv' : Service} (s : Side)
    (h : Reachable k x) (hk : k ∈ x.1.cables) (hsv : (x.1.side s).service = sv)
    (hsv' : (x.1.side s.other).service = sv') (hl : (x.1.side s).link? (k.side s) = some l)
    (hl' : (x.1.side s.other).link? (k.side s.other) = some l')
    (hjoin : I (.attach sv (k.side s)) (.attach sv' (k.side s.other)) [])
    (hstep : ∀ {l l' read m m' read'}, Ends sv sv' l l' read m m' read' → I l l' read →
      I m m' read') : I l l' (x.2 s.other).ledger.read := by
  obtain ⟨near, far, h⟩ := h
  induction h generalizing l l' with
  | refl => cases hk
  | @tail y z hy h ih =>
      obtain ⟨n, b⟩ := y
      obtain ⟨n', b'⟩ := z
      have hy : Reachable k (n, b) := ⟨near, far, hy⟩
      obtain ⟨t, hn, rfl : b' = books k b n t⟩ := h
      have hsv₀ : (n.side s).service = sv := (hn.service s).symm.trans hsv
      have hsv₁ : (n.side s.other).service = sv' := (hn.service s.other).symm.trans hsv'
      by_cases hk₀ : k ∈ n.cables
      · obtain ⟨m, hm⟩ := Dispatcher.mem_ids.1 (hy.wired.there k hk₀ s)
        obtain ⟨m', hm'⟩ := Dispatcher.mem_ids.1 (hy.wired.there k hk₀ s.other)
        obtain ⟨_, _, h₁, h₂, he⟩ := hn.ends (b := b) hy.wired (fun u => (hy.booked u).sound) hk₀ hm hm'
        cases h₁.symm.trans hl
        cases h₂.symm.trans hl'
        rw [hsv₀, hsv₁] at he
        exact hstep he (ih hk₀ hsv₀ hsv₁ hm hm')
      · obtain ⟨rfl, rfl, hnone⟩ := hn.joined hk₀ hk
        have hattach (u : Side) {m : Link} (hm : ((n.join k).side u).link? (k.side u) = some m) :
            m = .attach (n.side u).service (k.side u) := by
          rw [side_join, Dispatcher.link?_attach, hnone u, if_pos rfl] at hm
          exact (Option.some.inj hm).symm
        have hb : b s.other = {} := (hy.booked s.other).fresh (hnone s.other)
        rw [hattach s hl, hattach s.other hl', hsv₀, hsv₁]
        simpa only [books, hb] using hjoin

end Parley.Network
