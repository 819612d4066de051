import Parley.Proofs.Peer.Errand

namespace Parley

/-- Slots are numbered as they are taken, so that a request is known by the number of its slot. A
response is late if the request had been given up when it came, and a slot is evicted when it is
another request by which its id is removed. -/
structure Docket where
  registered : List Awaited := []
  processed : List (Response × Option Nat) := []
  lapsed : List Nat := []
  late : List Nat := []
  evicted : List (Awaited × Nat) := []
  ended : List Ending := []

namespace Docket

def victim? (p : Pending Nat) (x : Ending) : Option Nat :=
  (p.slot? x.request.id).filter fun s => x.lapse.isSome ∧ s ≠ x.request.slot

def record (k : Docket) (p : Pending Nat) : Errands.Event → Docket
  | .quiet => k
  | .registered a => { k with registered := k.registered ++ [a] }
  | .processed r => { k with
      processed := k.processed ++ [(r, p.slot? r.id)]
      late := k.late ++ ((p.slot? r.id).filter (· ∈ k.lapsed)).toList }
  | .lapsed a _ => { k with lapsed := k.lapsed ++ [a.slot] }
  | .ended x => { k with
      ended := k.ended ++ [x]
      evicted := k.evicted ++ ((victim? p x).map (x.request, ·)).toList }

theorem victim?_of_none {p : Pending Nat} {x : Ending} (h : x.lapse = none) :
    victim? p x = none := by
  simp [victim?, h]

end Docket

namespace Errands

variable {κ : Type} {v w : Errands κ} {k : Docket} {e : Event} {who u : κ} {a b : Awaited}
  {id : RequestId} {s : Nat} {r : Response}

structure Slotted (v : Errands κ) (k : Docket) : Prop where
  numbered : k.registered.map (·.slot) = List.range v.nextSlot
  keyed : v.pending.Keyed
  owner : ∀ {id s}, (id, s) ∈ v.pending.slots → ∃ a ∈ k.registered, a.id = id ∧ a.slot = s
  latest : ∀ {a s}, (a.id, s) ∈ v.pending.slots → a ∈ k.registered → a.slot ≤ s
  awaited : ∀ {who a}, v.Awaits who a → a ∈ k.registered
  unique : ∀ {who u a b}, v.Awaits who a → v.Awaits u b → a.slot = b.slot → who = u
  closed : v.pending.closed = true → v.pending.slots = []

theorem Slotted.lt (h : v.Slotted k) (ha : a ∈ k.registered) : a.slot < v.nextSlot := by
  have hm : a.slot ∈ k.registered.map (·.slot) := List.mem_map_of_mem ha
  rw [h.numbered] at hm
  exact List.mem_range.1 hm

theorem Slotted.eq (h : v.Slotted k) (ha : a ∈ k.registered) (hb : b ∈ k.registered)
    (hs : a.slot = b.slot) : a = b := by
  have hn : (k.registered.map (·.slot)).Nodup := h.numbered ▸ List.nodup_range
  exact List.inj_on_of_nodup_map hn ha hb hs

theorem Slotted.id_eq (h : v.Slotted k) (ha : a ∈ k.registered)
    (hs : (id, a.slot) ∈ v.pending.slots) : id = a.id := by
  obtain ⟨b, hb, rfl, he⟩ := h.owner hs
  rw [h.eq hb ha he]

theorem Slotted.mem_remove (h : v.Slotted k) (ha : a ∈ k.registered)
    (hi : (id, s) ∈ (v.pending.remove a.id).1.slots) : (id, s) ∈ v.pending.slots ∧ s ≠ a.slot := by
  obtain ⟨hi, hne⟩ := Pending.mem_slots_remove.1 hi
  refine ⟨hi, fun he => hne ?_⟩
  subst he
  exact h.id_eq ha hi

variable [DecidableEq κ]

theorem awaits_update {f : κ → Option Exchange} {o : Option Exchange} :
    (Function.update f who o u).bind Exchange.awaited? = some a ↔
      (u = who ∧ o.bind Exchange.awaited? = some a) ∨
        (u ≠ who ∧ (f u).bind Exchange.awaited? = some a) := by
  by_cases h : u = who
  · subst h; simp
  · simp [h]

theorem awaits_drop {f : κ → Option Exchange}
    (h : (Function.update f who none u).bind Exchange.awaited? = some a) :
    u ≠ who ∧ (f u).bind Exchange.awaited? = some a := by
  rcases awaits_update.1 h with ⟨-, ho⟩ | ho
  · cases ho
  · exact ho

/-- A step by which nobody takes a slot leaves no more slots, and nobody else waits. -/
theorem Change.fewer (hc : Change v e w) (he : ∀ a, e ≠ .registered a) :
    w.nextSlot = v.nextSlot ∧ w.pending.slots.Sublist v.pending.slots ∧
      (∀ u a, w.Awaits u a → v.Awaits u a) := by
  cases hc with
  | idle => exact ⟨rfl, .refl _, fun _ _ h => h⟩
  | kept hk =>
      refine ⟨rfl, .refl _, fun u a h => ?_⟩
      rcases awaits_update.1 h with ⟨rfl, ho⟩ | ⟨-, ho⟩
      · exact hk.symm.trans ho
      · exact ho
  | dropped | answered | gone => exact ⟨rfl, .refl _, fun _ _ h => (awaits_drop h).2⟩
  | registered => exact absurd rfl (he _)
  | unsent hx | timedOut hx =>
      refine ⟨rfl, .refl _, fun u a h => ?_⟩
      rcases awaits_update.1 h with ⟨rfl, ho⟩ | ⟨-, ho⟩
      · rw [Awaits, hx]
        exact ho
      · exact ho
  | left => exact ⟨rfl, Pending.slots_remove_sublist _ _, fun _ _ h => (awaits_drop h).2⟩
  | processed r =>
      refine ⟨rfl, ?_, fun _ _ h => h⟩
      cases hs : v.pending.slot? r.id with
      | none => rw [Pending.fulfill_of_none hs]
      | some s =>
          rw [Pending.fulfill_of_some hs]
          exact Pending.slots_remove_sublist _ _
  | closed => exact ⟨rfl, List.nil_sublist _, fun _ _ h => h⟩

theorem Change.closed_mono (hc : Change v e w) (hv : v.pending.closed = true) :
    w.pending.closed = true := by
  cases hc with
  | processed r =>
      cases hs : v.pending.slot? r.id with
      | none => rw [Pending.fulfill_of_none hs]; exact hv
      | some s => rw [Pending.fulfill_of_some hs]; exact hv
  | closed => rfl
  | _ => exact hv

theorem Change.closed_of (hc : Change v e w) (hw : w.pending.closed = true) :
    v.pending.closed = true ∨ w.pending.slots = [] := by
  cases hc with
  | processed r =>
      cases hs : v.pending.slot? r.id with
      | none => rw [Pending.fulfill_of_none hs] at hw; exact .inl hw
      | some s => rw [Pending.fulfill_of_some hs] at hw; exact .inl hw
  | closed => exact .inr rfl
  | _ => exact .inl hw

/-- The one who waits for a request may be dropped. That leaves all slots as they are. -/
theorem Change.dropped_pending (hc : Change v e w) (ha : v.Awaits who a) (hw : ¬w.Awaits who a)
    (he : ∀ x, e = .ended x → x.request ≠ a) : e = .quiet ∧ w.pending = v.pending := by
  have hold {u : κ} {o : Option Exchange}
      (h : ¬(Function.update v.errand u o who).bind Exchange.awaited? = some a) : who = u :=
    Classical.byContradiction fun hu => h (awaits_update.2 (.inr ⟨hu, ha⟩))
  cases hc with
  | idle | processed | closed => exact absurd ha hw
  | kept hk =>
      obtain rfl := hold hw
      exact absurd (awaits_update.2 (.inl ⟨rfl, hk.trans ha⟩)) hw
  | dropped => exact ⟨rfl, rfl⟩
  | registered hn =>
      obtain rfl := hold hw
      exact absurd (hn.symm.trans ha) (by simp)
  | unsent hx | timedOut hx =>
      obtain rfl := hold hw
      rw [Awaits, hx] at ha
      exact (hw (awaits_update.2 (.inl ⟨rfl, ha⟩))).elim
  | answered hx | gone hx | left hx =>
      obtain rfl := hold hw
      rw [Awaits, hx] at ha
      exact absurd (Option.some.inj ha) (he _ rfl)

def enroll (v : Errands κ) (who : κ) (m : Message) (a : Awaited) : Errands κ :=
  { v with
    pending := { v.pending with slots := v.pending.slots ++ [(a.id, a.slot)] }
    nextSlot := v.nextSlot + 1
    errand := Function.update v.errand who (some (.queueing m (some a))) }

theorem awaits_take {f : κ → Option Exchange} {m : Message}
    (h : (Function.update f who (some (.queueing m (some a))) u).bind Exchange.awaited? = some b) :
    (u = who ∧ b = a) ∨ (u ≠ who ∧ (f u).bind Exchange.awaited? = some b) := by
  rcases awaits_update.1 h with ⟨rfl, ho⟩ | ho
  · exact .inl ⟨rfl, (Option.some.inj ho).symm⟩
  · exact .inr ho

theorem Slotted.register {m : Message} (h : v.Slotted k) (hc : v.pending.closed = false)
    (hi : ∀ s, (a.id, s) ∉ v.pending.slots) (hs : a.slot = v.nextSlot) :
    (v.enroll who m a).Slotted { k with registered := k.registered ++ [a] } := by
  have hlt {u : κ} {b : Awaited} (hb : v.Awaits u b) : b.slot ≠ a.slot := by
    rw [hs]; exact Nat.ne_of_lt (h.lt (h.awaited hb))
  constructor
  case numbered => simp [enroll, h.numbered, hs, List.range_succ]
  case keyed => exact h.keyed.register hi
  case owner =>
    intro id s hm
    rcases List.mem_append.1 hm with hm | hm
    · obtain ⟨b, hb, he⟩ := h.owner hm
      exact ⟨b, List.mem_append_left _ hb, he⟩
    · obtain ⟨rfl, rfl⟩ := Prod.mk.inj (List.mem_singleton.1 hm)
      exact ⟨a, by simp, rfl, rfl⟩
  case latest =>
    intro b s hm hb
    rcases List.mem_append.1 hb with hb | hb
    · rcases List.mem_append.1 hm with hm | hm
      · exact h.latest hm hb
      · rw [(Prod.mk.inj (List.mem_singleton.1 hm)).2, hs]
        exact Nat.le_of_lt (h.lt hb)
    · obtain rfl := List.mem_singleton.1 hb
      rcases List.mem_append.1 hm with hm | hm
      · exact absurd hm (hi s)
      · exact Nat.le_of_eq (Prod.mk.inj (List.mem_singleton.1 hm)).2.symm
  case awaited =>
    intro u b hb
    rcases awaits_take hb with ⟨-, rfl⟩ | ⟨-, hu⟩
    · simp
    · exact List.mem_append_left _ (h.awaited hu)
  case unique =>
    intro u u' b b' hb hb' he
    rcases awaits_take hb with ⟨rfl, rfl⟩ | ⟨-, hu⟩ <;>
      rcases awaits_take hb' with ⟨rfl, rfl⟩ | ⟨-, hu'⟩
    · rfl
    · exact absurd he.symm (hlt hu')
    · exact absurd he (hlt hu)
    · exact h.unique hu hu' he
  case closed =>
    intro hw
    rw [show v.pending.closed = true from hw] at hc
    cases hc

theorem Slotted.change (h : v.Slotted k) (hc : Change v e w) :
    w.Slotted (k.record v.pending e) := by
  have hless (he : ∀ a, e ≠ .registered a) : w.Slotted k := by
    obtain ⟨hn, hs, ha⟩ := hc.fewer he
    exact {
      numbered := hn ▸ h.numbered
      keyed := h.keyed.sublist hs
      owner := fun hi => h.owner (hs.subset hi)
      latest := fun hi => h.latest (hs.subset hi)
      awaited := fun hu => h.awaited (ha _ _ hu)
      unique := fun hu hu' => h.unique (ha _ _ hu) (ha _ _ hu')
      closed := fun hw => (hc.closed_of hw).elim
        (fun hv => List.sublist_nil.1 (h.closed hv ▸ hs)) id }
  cases hc with
  | registered hw hc hi hs => exact h.register hc hi hs
  | processed | unsent | answered | gone | timedOut | left =>
      have hk := hless (by simp)
      exact ⟨hk.numbered, hk.keyed, hk.owner, hk.latest, hk.awaited, hk.unique, hk.closed⟩
  | idle | kept | dropped | closed => exact hless (by simp)

end Errands

end Parley
