import Parley.Proofs.Flow.Fanout.Sound

namespace Parley.Flow.Fanout.Run

variable {α : Type} {f g : Fanout α} {s : Subscriber α} {r r' : Run α} {p : Publication α} {i : Nat}

/-- A subscriber is offered something, and `more` of what it accepts has come past it. -/
structure Next (s t : Subscriber α) (more : List α) : Prop where
  id : t.id = s.id
  accepts : t.accepts = s.accepts
  registered : t.registered = s.registered
  capacity : t.queue.capacity = s.queue.capacity
  shut : t.queue.shut = s.queue.shut
  taken : t.queue.taken = s.queue.taken
  room : s.queue.queue.length ≤ s.queue.capacity → t.queue.queue.length ≤ s.queue.capacity
  items : s.queue.shut = false → t.queue.items = s.queue.items ++ more.filter s.accepts

variable {t : Subscriber α} {more : List α}

theorem Next.refl (h : more.filter s.accepts = []) : Next s s more :=
  ⟨rfl, rfl, rfl, rfl, rfl, rfl, fun h => h, fun _ => by rw [h, List.append_nil]⟩

theorem Kept.next (h : r.Kept i s) (hn : Next s t more) (ht : r'.terms = r.terms)
    (hm : r'.members = r.members) (hr : r'.received = r.received)
    (hp : s.queue.shut = false → r'.passed i = r.passed i ++ more) : r'.Kept i t where
  id := hn.id.trans h.id
  terms := by rw [ht, hn.accepts, hn.capacity]; exact h.terms
  room := by rw [hn.capacity]; exact hn.room h.room
  registered hs := by rw [hn.registered, hm]; exact h.registered (hn.shut ▸ hs)
  received hs := by rw [receivedBy, hr, hn.taken]; exact h.received (hn.shut ▸ hs)
  items hs := by
    have hs : s.queue.shut = false := hn.shut ▸ hs
    rw [hn.items hs, hn.accepts, hp hs, List.filter_append, h.items hs]

theorem delivered_append (xs : List (Nat × Nat)) (is : List Nat) (k id : Nat) :
    (xs ++ is.map fun i => (k, i)).countP (fun x => x.1 = id) =
      xs.countP (fun x => x.1 = id) + if k = id then is.length else 0 := by
  rw [List.countP_append, List.countP_map]
  congr 1
  split
  · next h => exact List.countP_eq_length.2 (by simp [h])
  · next h => exact List.countP_eq_zero.2 (by simp [h])

structure Passing (f g : Fanout α) (p q : Publication α) (id : Nat) : Prop where
  publications : g.publications = [q]
  same : q.id = p.id
  item : q.item = p.item
  ahead : p.ahead = id :: q.ahead
  published : g.published = f.published
  length : g.subscribers.length = f.subscribers.length
  other : ∀ j, j ≠ id → g.subscriber? j = f.subscriber? j
  own : ∀ t, g.subscriber? id = some t → ∃ s, f.subscriber? id = some s ∧ Next s t [p.item]
  delivered : q.delivered = p.delivered + (grown f g).length
  gone : ∀ j ∈ q.gone, j ∈ p.gone ∨ j = id ∧ ∀ t, g.subscriber? id = some t → t.queue.shut = true

section Passing

variable {q : Publication α} {id : Nat}

theorem Passing.eq_of_grown (h : Passing f g p q id) (hi : i ∈ grown f g) : i = id :=
  Decidable.byContradiction fun he => not_grown (h.other i he) hi

theorem Passing.next (h : Passing f g p q id) (ht : g.subscriber? i = some t) :
    ∃ s, f.subscriber? i = some s ∧ Next s t (if i = id then [p.item] else []) := by
  by_cases he : i = id
  · subst he
    simpa using h.own t ht
  · exact ⟨t, h.other i he ▸ ht, by rw [if_neg he]; exact .refl rfl⟩

theorem Passing.mem_ahead (h : Passing f g p q id) (hi : i ∈ q.ahead) : i ∈ p.ahead :=
  h.ahead ▸ List.mem_cons_of_mem _ hi

theorem Underway.lt (hu : r.Underway p) (hs : r.Sound) : p.id < r.fanout.published := by
  obtain ⟨before, members, hl, -⟩ := hu.last
  have hm : p.id ∈ r.issues.map (·.id) := by rw [hl]; simp
  rw [hs.numbered] at hm
  exact List.mem_range.1 hm

theorem Underway.passing (hu : r.Underway p) (h : Passing r.fanout g p q id) :
    Run.Underway { r with
      fanout := g
      deliveries := r.deliveries ++ (grown r.fanout g).map fun i => (p.id, i) } q := by
  have hnd : id ∉ q.ahead ∧ q.ahead.Nodup := List.nodup_cons.1 (h.ahead ▸ hu.ahead)
  constructor
  case publications => exact h.publications
  case last =>
    obtain ⟨before, members, hl, hm⟩ := hu.last
    refine ⟨before, members, by rw [hl, h.same, h.item], fun i t ht hsh hi => ?_⟩
    obtain ⟨s, hi', hnext⟩ := h.next ht
    exact hm i s hi' (hnext.shut ▸ hsh) (h.mem_ahead hi)
  case known =>
    intro i hi
    refine h.length ▸ hu.known i (List.mem_append.2 ?_)
    rcases List.mem_append.1 hi with hi | hi
    · exact .inl (h.mem_ahead hi)
    · rcases h.gone i hi with hi | ⟨rfl, -⟩
      · exact .inr hi
      · exact .inl (h.ahead ▸ List.mem_cons_self)
  case ahead => exact hnd.2
  case behind =>
    intro i hi hd
    rw [h.same] at hd
    rcases List.mem_append.1 hd with hd | hd
    · exact hu.behind i (h.mem_ahead hi) hd
    · obtain ⟨j, hj, he⟩ := List.mem_map.1 hd
      obtain rfl := (Prod.mk.inj he).2
      exact hnd.1 (h.eq_of_grown hj ▸ hi)
  case gone =>
    intro i hi t ht
    rcases h.gone i hi with hg | ⟨rfl, hg⟩
    · obtain ⟨s, hi', hnext⟩ := h.next ht
      exact hnext.shut.trans (hu.gone i hg s hi')
    · exact hg t ht
  case delivered =>
    rw [h.delivered, h.same, Run.delivered, delivered_append, if_pos rfl, hu.delivered,
      Run.delivered]
  case unfinished => exact h.same ▸ hu.unfinished

/-- To have come past a subscriber adds the item to what has passed it, and to no one else's. -/
theorem Passing.passed (h : Passing r.fanout g p q id) (hs : r.Sound) (hu : r.Underway p)
    (hf : r'.fanout = g) (he : r'.issues = r.issues) (hi : r.fanout.subscriber? i = some s)
    (hsh : s.queue.shut = false) : r'.passed i = r.passed i ++ if i = id then [p.item] else [] := by
  obtain ⟨before, members, hl, hm⟩ := hu.last
  have hl' : r'.issues = before ++ [⟨q.id, q.item, members⟩] := by rw [he, hl, h.same, h.item]
  rw [passed_underway (hf ▸ h.publications) hl' (he ▸ hs.nodup),
    passed_underway hu.publications hl hs.nodup, h.item, h.ahead]
  by_cases hid : i = id
  · subst hid
    have hnot : i ∉ q.ahead := (List.nodup_cons.1 (h.ahead ▸ hu.ahead)).1
    have hmem : i ∈ members := hm i s hi hsh (h.ahead ▸ List.mem_cons_self)
    simp [hmem, hnot]
  · simp [hid]

theorem Sound.passes (hs : r.Sound) (hu : r.Underway p) (h : Passing r.fanout g p q id) :
    Run.Sound { r with
      fanout := g
      deliveries := r.deliveries ++ (grown r.fanout g).map fun i => (p.id, i) } := by
  constructor
  case each =>
    intro i t ht
    obtain ⟨s, hi, hnext⟩ := h.next ht
    exact (hs.each i s hi).next hnext rfl rfl rfl fun hsh => h.passed hs hu rfl rfl hi hsh
  case terms => exact hs.terms.trans h.length.symm
  case members => exact h.length ▸ hs.members
  case audience => exact h.length ▸ hs.audience
  case receivers => exact h.length ▸ hs.receivers
  case numbered => exact h.published ▸ hs.numbered
  case once =>
    have hn : ((grown r.fanout g).map fun i => (p.id, i)).Nodup :=
      List.pairwise_map.2 ((grown_nodup r.fanout g).imp fun h he => h (Prod.mk.inj he).2)
    refine List.nodup_append.2 ⟨hs.once, hn, ?_⟩
    rintro x hx y hy rfl
    obtain ⟨i, hi, rfl⟩ := List.mem_map.1 hy
    exact hu.behind i (h.ahead ▸ h.eq_of_grown hi ▸ List.mem_cons_self) hx
  case sent =>
    intro x hx
    refine h.published ▸ ?_
    rcases List.mem_append.1 hx with hx | hx
    · exact hs.sent x hx
    · obtain ⟨i, -, rfl⟩ := List.mem_map.1 hx
      exact hu.lt hs
  case results =>
    intro x hx
    refine ⟨h.published ▸ (hs.results x hx).1, ?_⟩
    rw [Run.delivered, delivered_append, if_neg (Ne.symm (hu.unfinished x hx))]
    exact (hs.results x hx).2
  case one => exact .inr ⟨q, hu.passing h⟩

end Passing

end Parley.Flow.Fanout.Run
