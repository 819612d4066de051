import Parley.Dispatch.Network
import Parley.Proofs.Dispatch.Books

namespace Parley

open Dispatch

theorem Side.other_ne (s : Side) : s.other ≠ s := by cases s <;> simp [Side.other]

@[simp] theorem Side.other_other (s : Side) : s.other.other = s := by cases s <;> rfl

theorem Side.eq_or (s u : Side) : u = s ∨ u = s.other := by cases s <;> cases u <;> simp [Side.other]

namespace Network

def Untouched (n : Network) (s : Side) (d : Dispatcher) : Prop := ∀ k ∈ n.cables, ∀ l l',
  (n.side s).link? (k.side s) = some l → d.link? (k.side s) = some l' →
    l'.inbound = l.inbound ∧ l'.written = l.written ∧ l'.farOpen = l.farOpen

inductive Next (n : Network) : Option Task → Network → Prop
  | step {t : Task} {n' : Network} (h : n.step t = some n') : Next n (some t) n'
  | join {k : Cable} (hn : n.near.link? k.near = none) (hf : n.far.link? k.far = none) :
      Next n none (n.join k)
  | aside {s : Side} {d : Dispatcher} (h : Dispatcher.Next (n.side s) none d)
      (hu : n.Untouched s d) : Next n none (n.put d s)

def books (k : Cable) (b : Side → Books) (n : Network) : Option Task → Side → Books
  | none => b
  | some (s, t) =>
    match (n.side s).step t with
    | some d => Function.update b s (Dispatcher.books (k.side s) (b s) (n.side s) d (some t))
    | none => b

def Step (k : Cable) (x y : Network × (Side → Books)) : Prop :=
  ∃ t, Next x.1 t y.1 ∧ y.2 = books k x.2 x.1 t

/-- What two dispatchers without connections come to by some run. -/
def Reachable (k : Cable) (x : Network × (Side → Books)) : Prop :=
  ∃ near far : Service × Session.Manager CallName,
    Relation.ReflTransGen (Step k) ({ near := .serving near.1 near.2, far := .serving far.1 far.2 },
      fun _ => {}) x

variable {n n' : Network} {s u : Side} {d : Dispatcher} {c c' : ConnectionId} {l : Link}

@[simp] theorem side_put (n : Network) (d : Dispatcher) (s : Side) : (n.put d s).side s = d := by
  cases s <;> rfl

@[simp] theorem side_put_other (n : Network) (d : Dispatcher) (s : Side) :
    (n.put d s).side s.other = n.side s.other := by
  cases s <;> rfl

@[simp] theorem side_put_other' (n : Network) (d : Dispatcher) (s : Side) :
    (n.put d s.other).side s = n.side s := by
  cases s <;> rfl

@[simp] theorem cables_put (n : Network) (d : Dispatcher) (s : Side) :
    (n.put d s).cables = n.cables := by
  cases s <;> rfl

@[simp] theorem cables_modify (n : Network) (s : Side) (f : Dispatcher → Dispatcher) :
    (n.modify s f).cables = n.cables := cables_put ..

@[simp] theorem cables_carry (n : Network) (s : Side) (c : ConnectionId) :
    (n.carry s c).cables = n.cables := by
  unfold carry
  split <;> simp

theorem carry_eq (hc : n.across? s c = some c') (hl : (n.side s).link? c = some l) :
    (n.carry s c).side s = (n.side s).put { l with written := [] } ∧
      (n.carry s c).side s.other = (n.side s.other).modify c' (conveyed l) := by
  unfold carry
  rw [hc, hl]
  refine ⟨?_, ?_⟩
  · simp only [modify, side_put]
    cases s <;> rfl
  · simp only [modify, side_put, side_put_other]

/-- Something is carried over, or the connection is not joined with another one. -/
theorem carry_cases (n : Network) (s : Side) (c : ConnectionId) : n.carry s c = n ∨
    ∃ c' l, n.across? s c = some c' ∧ (n.side s).link? c = some l ∧
      (n.carry s c).side s = (n.side s).put { l with written := [] } ∧
      (n.carry s c).side s.other = (n.side s.other).modify c' (conveyed l) := by
  cases hc : n.across? s c with
  | none => exact .inl (by rw [carry, hc])
  | some c' =>
      cases hl : (n.side s).link? c with
      | none => exact .inl (by rw [carry, hc, hl])
      | some l => exact .inr ⟨c', l, rfl, rfl, carry_eq hc hl⟩

theorem step_eq_some {who : Actor} (h : n.step (s, c, who) = some n') :
    ∃ d, (n.side s).step (c, who) = some d ∧ n' = (n.put d s).carry s c := by
  simp only [step, Option.bind_eq_bind, Option.bind_eq_some_iff] at h
  obtain ⟨d, hd, h⟩ := h
  exact ⟨d, hd, (Option.some.inj h).symm⟩

@[simp] theorem side_join (n : Network) (k : Cable) (s : Side) :
    (n.join k).side s = (n.side s).attach (k.side s) := by
  cases s <;> rfl

theorem conveyed_eq (l l' : Link) : ∃ inbound farOpen, conveyed l l' = { l' with inbound, farOpen } ∧
    inbound.decoder = l'.inbound.decoder ∧
      inbound.stream = l'.inbound.stream ++ l.written.flatMap Frame.encode := by
  have hw : ∃ inbound, (if l.written.isEmpty then l' else
      l'.receive (l.written.flatMap Frame.encode)) = { l' with inbound } ∧
        inbound.decoder = l'.inbound.decoder ∧
          inbound.stream = l'.inbound.stream ++ l.written.flatMap Frame.encode := by
    split
    · next he => exact ⟨l'.inbound, rfl, rfl, by simp [List.isEmpty_iff.1 he]⟩
    · exact ⟨_, rfl, rfl, rfl⟩
  obtain ⟨inbound, hi, hd, hs⟩ := hw
  simp only [conveyed, hi]
  split <;> split <;> exact ⟨_, _, rfl, hd, hs⟩

theorem conveyed_id (l l' : Link) : (conveyed l l').id = l'.id := by
  obtain ⟨inbound, farOpen, h, -⟩ := conveyed_eq l l'
  rw [h]

theorem conveyed_outside (l l' : Link) : l'.Outside (conveyed l l') := by
  obtain ⟨inbound, farOpen, h, -⟩ := conveyed_eq l l'
  exact ⟨inbound, l'.written, farOpen, l'.desk.outcomes, h⟩

end Network

namespace Dispatcher

variable {d d' : Dispatcher} {c : ConnectionId} {l : Link} {t : Option Task}

def ids (d : Dispatcher) : List ConnectionId := d.links.map (·.id)

def Distinct (d : Dispatcher) : Prop := d.ids.Nodup

theorem mem_ids : c ∈ d.ids ↔ ∃ l, d.link? c = some l := by
  constructor
  · intro h
    obtain ⟨l, hl, rfl⟩ := List.mem_map.1 h
    exact Option.isSome_iff_exists.1 (List.find?_isSome.2 ⟨l, hl, by simp⟩)
  · rintro ⟨l, hl⟩
    exact id_of_link? hl ▸ List.mem_map_of_mem (List.mem_of_find?_eq_some hl)

@[simp] theorem ids_modify {f : Link → Link} (hf : ∀ l, (f l).id = l.id) :
    (d.modify c f).ids = d.ids := by
  rw [ids, modify, List.map_map]
  refine List.map_congr_left fun m _ => ?_
  simp only [Function.comp_apply]
  split
  · exact hf m
  · rfl

@[simp] theorem ids_put (d : Dispatcher) (l : Link) : (d.put l).ids = d.ids := by
  rw [ids, put, List.map_map]
  refine List.map_congr_left fun m _ => ?_
  simp only [Function.comp_apply]
  split
  · next h => exact h.symm
  · rfl

/-- A connection may come, and none goes. -/
theorem Next.ids (h : Next d t d') :
    d'.ids = d.ids ∨ ∃ c, d.link? c = none ∧ d' = d.attach c := by
  cases h with
  | @step d' t h =>
      obtain ⟨c, who⟩ := t
      obtain ⟨l, l', hub, -, -, rfl⟩ := step_eq_some h
      exact .inl (ids_put d l')
  | @attach c h => exact .inr ⟨c, h, rfl⟩
  | close | world => exact .inl rfl
  | send h =>
      obtain ⟨l, -, rfl, -⟩ := Dispatcher.send_eq_some h
      exact .inl (ids_put ..)
  | abort | outside => exact .inl (ids_put ..)

theorem ids_attach (d : Dispatcher) (c : ConnectionId) : (d.attach c).ids = d.ids ++ [c] := by
  simp [Dispatcher.ids, attach, Link.attach]

theorem Next.distinct (hd : d.Distinct) (h : Next d t d') : d'.Distinct := by
  rcases h.ids with h | ⟨c, hc, rfl⟩
  · rw [Distinct, h]
    exact hd
  · rw [Distinct, ids_attach, List.nodup_append]
    refine ⟨hd, List.nodup_singleton c, fun i hi j hj he => ?_⟩
    obtain rfl := List.mem_singleton.1 hj
    obtain ⟨l, hl⟩ := mem_ids.1 hi
    rw [he, hc] at hl
    cases hl

theorem link?_modify {f : Link → Link} (hf : ∀ l, (f l).id = l.id) (c' : ConnectionId) :
    (d.modify c' f).link? c = if c = c' then (d.link? c).map f else d.link? c := by
  rcases d with ⟨service, hub, links⟩
  simp only [link?, modify]
  induction links with
  | nil => simp
  | cons m ms ih => grind

theorem modify_eq_put {f : Link → Link} (hd : d.Distinct) (hl : d.link? c = some l)
    (hf : (f l).id = c) : d.modify c f = d.put (f l) := by
  have hi := id_of_link? hl
  rw [modify, put, hf]
  congr 1
  refine List.map_congr_left fun m hm => ?_
  split
  · next hc => rw [List.inj_on_of_nodup_map hd hm (List.mem_of_find?_eq_some hl) (hc.trans hi.symm)]
  · rfl

theorem modify_of_none {f : Link → Link} (hl : d.link? c = none) : d.modify c f = d := by
  have hn : ∀ m ∈ d.links, m.id ≠ c := by simpa [link?] using hl
  have hm : d.links.map (fun l => if l.id = c then f l else l) = d.links := by
    refine (List.map_congr_left fun m hm => if_neg (hn m hm)).trans (List.map_id _)
  rw [modify, hm]

namespace Booked

variable {x : Dispatcher × Books}

theorem Reachable.distinct (h : Reachable c x) : x.1.Distinct := by
  obtain ⟨service, sessions, h⟩ := h
  induction h with
  | refl => exact List.nodup_nil
  | tail _ h ih =>
      obtain ⟨t, hn, -⟩ := h
      exact hn.distinct ih

theorem Reachable.silent (h : Reachable c x) (hn : Next x.1 none d') : Reachable c (d', x.2) := by
  have hb : books c x.2 x.1 d' none = x.2 := books_aside x.2 (by simp)
  have hr := h.next hn
  rwa [hb] at hr

end Booked

end Dispatcher

namespace Network

variable {n n' : Network} {s u : Side} {d : Dispatcher} {c c' : ConnectionId} {l : Link} {k : Cable}
  {x : Network × (Side → Books)}

theorem carry_silent {y : Network × (Side → Books)}
    (h : ∀ u, Dispatcher.Booked.Reachable (k.side u) (n.side u, y.2 u)) (s : Side)
    (c : ConnectionId) (u : Side) :
    Dispatcher.Booked.Reachable (k.side u) ((n.carry s c).side u, y.2 u) := by
  rcases carry_cases n s c with hn | ⟨c', l, -, hl, hown, hother⟩
  · rw [hn]
    exact h u
  · rcases Side.eq_or s u with rfl | rfl
    · rw [hown]
      exact (h u).silent (.outside hl ⟨_, _, _, _, rfl⟩)
    · rw [hother]
      cases hl' : (n.side s.other).link? c' with
      | none => rw [Dispatcher.modify_of_none hl']; exact h _
      | some l' =>
          have hi : (conveyed l l').id = c' :=
            (conveyed_id l l').trans (Dispatcher.id_of_link? hl')
          rw [Dispatcher.modify_eq_put (h _).distinct hl' hi]
          exact (h _).silent (.outside hl' (conveyed_outside l l'))

theorem Reachable.booked (h : Reachable k x) (s : Side) :
    Dispatcher.Booked.Reachable (k.side s) (x.1.side s, x.2 s) := by
  obtain ⟨near, far, h⟩ := h
  induction h generalizing s with
  | refl => cases s <;> exact ⟨_, _, .refl⟩
  | @tail y z _ h ih =>
      obtain ⟨n, b⟩ := y
      obtain ⟨n', b'⟩ := z
      obtain ⟨t, hn, rfl : b' = books k b n t⟩ := h
      cases hn with
      | @step t n' hn =>
          obtain ⟨u, c, who⟩ := t
          obtain ⟨d, hd, rfl⟩ := step_eq_some hn
          refine carry_silent (y := (n, books k b n (some (u, c, who)))) (fun v => ?_) u c s
          simp only [books, hd]
          rcases Side.eq_or u v with rfl | rfl
          · rw [side_put, Function.update_self]
            exact (ih v).next (.step hd)
          · rw [side_put_other, Function.update_of_ne u.other_ne]
            exact ih _
      | @join k' hnear hfar =>
          change Dispatcher.Booked.Reachable _ ((n.join k').side s, b s)
          rw [side_join]
          refine (ih s).silent (.attach ?_)
          cases s <;> assumption
      | @aside u d hd hu =>
          change Dispatcher.Booked.Reachable _ ((n.put d u).side s, b s)
          rcases Side.eq_or u s with rfl | rfl
          · rw [side_put]
            exact (ih s).silent hd
          · rw [side_put_other]
            exact ih _

end Network

end Parley
