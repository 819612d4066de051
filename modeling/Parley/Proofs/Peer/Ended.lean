import Parley.Proofs.Peer.Posted

namespace Parley.Errands

variable {κ : Type} {v w : Errands κ} {k k' : Docket} {who u : κ} {a b : Awaited}
  {id : RequestId} {s : Nat} {r : Response} {x : Ending} {o : Except ExchangeError Response}

structure Lapsed (v : Errands κ) (k : Docket) : Prop where
  past : ∀ {s}, s ∈ k.lapsed → s < v.nextSlot
  leaving : ∀ {who a why}, v.errand who = some (.leaving a why) → a.slot ∈ k.lapsed
  lapsed : ∀ {who a}, v.Awaits who a → a.slot ∈ k.lapsed →
    ∃ why, v.errand who = some (.leaving a why)
  late : ∀ {who a r}, v.errand who = some (.leaving a .overdue) →
    (r, some a.slot) ∈ k.processed → a.slot ∈ k.late
  posted : ∀ {s}, s ∈ k.late → ∃ r, (r, some s) ∈ k.processed

/-- How requests end, and what those can count on that have not ended. -/
structure Finished (v : Errands κ) (k : Docket) : Prop where
  nodup : (k.ended.map (·.request.slot)).Nodup
  past : ∀ {x}, x ∈ k.ended → x.request ∈ k.registered ∧ (∀ who, ¬v.Awaits who x.request) ∧
    ∀ id, (id, x.request.slot) ∉ v.pending.slots
  outcome : ∀ {x r}, x ∈ k.ended → (r, some x.request.slot) ∈ k.processed →
    x.request.slot ∉ k.late → x.lapse = some .unsent ∨ x.outcome = Peer.conclude x.request r
  source : ∀ {x}, x ∈ k.ended →
    (∃ r, (r, some x.request.slot) ∈ k.processed ∧ x.outcome = Peer.conclude x.request r) ∨
      x.outcome = .error .connectionClosed ∨
        x.outcome = .error (.timeout x.request.method (x.request.timeout.getD 0))
  waiting : ∀ {who a}, v.Awaits who a → (a.id, a.slot) ∈ v.pending.slots ∨
    (∃ o, (a.slot, o) ∈ v.pending.mail) ∨ ∃ b, (b, a.slot) ∈ k.evicted
  evicted : ∀ {b s}, (b, s) ∈ k.evicted →
    (∃ a ∈ k.registered, a.slot = s ∧ a.id = b.id) ∧ b ∈ k.registered ∧ b.slot < s ∧
      ((∃ r, (r, some b.slot) ∈ k.processed) ∨ ∃ b', (b', b.slot) ∈ k.evicted)

structure Sound (v : Errands κ) (k : Docket) : Prop where
  slotted : v.Slotted k
  posted : v.Posted k
  lapsed : v.Lapsed k
  finished : v.Finished k

/-- What does not come from this side comes in a response with the id of the request. -/
theorem Sound.source (h : v.Sound k) (hx : x ∈ k.ended)
    (ho : (∃ v, x.outcome = .ok v) ∨ ∃ b, x.outcome = .error (.remote b)) :
    ∃ r, (r, some x.request.slot) ∈ k.processed ∧ r.id = x.request.id ∧
      x.outcome = Peer.conclude x.request r := by
  rcases h.finished.source hx with ⟨r, hr, hout⟩ | hout | hout
  · obtain ⟨⟨a, ha, hid, hslot⟩, -⟩ := h.posted.processed hr
    obtain rfl := h.slotted.eq ha (h.finished.past hx).1 hslot
    exact ⟨r, hr, hid.symm, hout⟩
  · rw [hout] at ho
    simp at ho
  · rw [hout] at ho
    simp at ho

theorem Sound.in_time (h : v.Sound k) (ha : v.Awaits who a)
    (hn : ∀ why, v.errand who ≠ some (.leaving a why)) (hr : ∀ r, (r, some a.slot) ∉ k.processed)
    (r : Response) : a.slot ∉ (k.record v.pending (.processed r)).late := by
  intro hs
  rcases List.mem_append.1 hs with hs | hs
  · obtain ⟨r', hr'⟩ := h.lapsed.posted hs
    exact hr r' hr'
  · obtain ⟨-, hs⟩ := Option.filter_eq_some_iff.1 (Option.mem_toList.1 hs)
    obtain ⟨why, hy⟩ := h.lapsed.lapsed ha (of_decide_eq_true hs)
    exact hn why hy

theorem Sound.in_slot (h : v.Sound k) (ha : v.Awaits who a) (hc : v.pending.closed = false)
    (hu : ∀ b, (b, a.slot) ∉ k.evicted) (hr : ∀ r, (r, some a.slot) ∉ k.processed) :
    (a.id, a.slot) ∈ v.pending.slots := by
  rcases h.finished.waiting ha with hm | ⟨o, hm⟩ | ⟨b, hm⟩
  · exact hm
  · cases o with
    | ok r => exact absurd (h.posted.answer hm) (hr r)
    | error x => exact absurd ((h.posted.failure hm).2.symm.trans hc) (by simp)
  · exact absurd hm (hu b)

theorem sound_empty (hp : v.pending = {}) (hn : v.nextSlot = 0) (ha : ∀ who, v.errand who = none) :
    v.Sound {} := by
  refine ⟨⟨?_, ?_, ?_, ?_, ?_, ?_, ?_⟩, ⟨?_, ?_, ?_, ?_, ?_, ?_, ?_⟩, ⟨?_, ?_, ?_, ?_, ?_⟩,
    ⟨?_, ?_, ?_, ?_, ?_, ?_⟩⟩ <;> simp [hp, hn, ha, Awaits, Pending.Keyed]

/-- Somebody who waits for a request stops, and the request has ended. -/
theorem Finished.ended {evicted : List (Awaited × Nat)} (h : v.Finished k) (hv : v.Slotted k)
    (hx : v.Awaits who x.request) (ha : ∀ {u a}, w.Awaits u a → u ≠ who ∧ v.Awaits u a)
    (hs : ∀ {id s}, (id, s) ∈ w.pending.slots → (id, s) ∈ v.pending.slots ∧ s ≠ x.request.slot)
    (ho : ∀ r, (r, some x.request.slot) ∈ k.processed → x.request.slot ∉ k.late →
      x.lapse = some .unsent ∨ x.outcome = Peer.conclude x.request r)
    (hsource : (∃ r, (r, some x.request.slot) ∈ k.processed ∧
        x.outcome = Peer.conclude x.request r) ∨ x.outcome = .error .connectionClosed ∨
      x.outcome = .error (.timeout x.request.method (x.request.timeout.getD 0)))
    (hslot : ∀ {u a}, w.Awaits u a → (a.id, a.slot) ∈ v.pending.slots →
      (a.id, a.slot) ∈ w.pending.slots ∨ (x.request, a.slot) ∈ evicted)
    (hm : ∀ {u a o}, w.Awaits u a → (a.slot, o) ∈ v.pending.mail → (a.slot, o) ∈ w.pending.mail)
    (hevicted : ∀ {b s}, (b, s) ∈ evicted → (∃ a ∈ k.registered, a.slot = s ∧ a.id = b.id) ∧
      b ∈ k.registered ∧ b.slot < s ∧
        ((∃ r, (r, some b.slot) ∈ k.processed) ∨ ∃ b', (b', b.slot) ∈ k.evicted)) :
    w.Finished { k with ended := k.ended ++ [x], evicted := k.evicted ++ evicted } where
  nodup := by
    rw [List.map_append]
    refine List.nodup_append.2 ⟨h.nodup, List.nodup_singleton _, fun s hs t ht => ?_⟩
    obtain ⟨y, hy, rfl⟩ := List.mem_map.1 hs
    obtain rfl := List.mem_singleton.1 ht
    intro he
    obtain ⟨hreg, hno, -⟩ := h.past hy
    exact hno who (hv.eq hreg (hv.awaited hx) he ▸ hx)
  past hy := by
    rcases List.mem_append.1 hy with hy | hy
    · obtain ⟨hreg, hno, hns⟩ := h.past hy
      exact ⟨hreg, fun u hu => hno u (ha hu).2, fun id hi => hns id (hs hi).1⟩
    · obtain rfl := List.mem_singleton.1 hy
      exact ⟨hv.awaited hx, fun u hu => (ha hu).1 (hv.unique (ha hu).2 hx rfl),
        fun id hi => (hs hi).2 rfl⟩
  outcome hy := by
    rcases List.mem_append.1 hy with hy | hy
    · exact h.outcome hy
    · obtain rfl := List.mem_singleton.1 hy
      exact ho _
  source hy := by
    rcases List.mem_append.1 hy with hy | hy
    · exact h.source hy
    · obtain rfl := List.mem_singleton.1 hy
      exact hsource
  waiting hu := by
    rcases h.waiting (ha hu).2 with hi | ⟨o, hi⟩ | ⟨b, hi⟩
    · rcases hslot hu hi with hi | hi
      · exact .inl hi
      · exact .inr (.inr ⟨_, List.mem_append_right _ hi⟩)
    · exact .inr (.inl ⟨o, hm hu hi⟩)
    · exact .inr (.inr ⟨b, List.mem_append_left _ hi⟩)
  evicted hy := by
    rcases List.mem_append.1 hy with hy | hy
    · obtain ⟨ha, hb, hlt, hc⟩ := h.evicted hy
      exact ⟨ha, hb, hlt, hc.imp_right fun ⟨b', hb'⟩ => ⟨b', List.mem_append_left _ hb'⟩⟩
    · obtain ⟨ha, hb, hlt, hc⟩ := hevicted hy
      exact ⟨ha, hb, hlt, hc.imp_right fun ⟨b', hb'⟩ => ⟨b', List.mem_append_left _ hb'⟩⟩

theorem Finished.processed {late : List Nat} {o : Option Nat} (h : v.Finished k)
    (hn : ∀ {x}, x ∈ k.ended → o ≠ some x.request.slot)
    (hs : ∀ {id s}, (id, s) ∈ w.pending.slots → (id, s) ∈ v.pending.slots)
    (ha : ∀ {u a}, w.Awaits u a → v.Awaits u a)
    (hw : ∀ {u a}, w.Awaits u a → (a.id, a.slot) ∈ v.pending.slots →
      (a.id, a.slot) ∈ w.pending.slots ∨ ∃ o, (a.slot, o) ∈ w.pending.mail)
    (hm : v.pending.mail ⊆ w.pending.mail) :
    w.Finished { k with processed := k.processed ++ [(r, o)], late := k.late ++ late } where
  nodup := h.nodup
  past hx := by
    obtain ⟨hreg, hno, hns⟩ := h.past hx
    exact ⟨hreg, fun u hu => hno u (ha hu), fun id hi => hns id (hs hi)⟩
  outcome := fun {x r'} hx hr hl => by
    rcases List.mem_append.1 hr with hr | hr
    · exact h.outcome hx hr fun hl' => hl (List.mem_append_left _ hl')
    · exact absurd (Prod.mk.inj (List.mem_singleton.1 hr)).2.symm (hn hx)
  source hx := (h.source hx).imp_left fun ⟨r', hr, he⟩ => ⟨r', List.mem_append_left _ hr, he⟩
  waiting := fun hu => by
    rcases h.waiting (ha hu) with hi | ⟨o, hi⟩ | hu'
    · exact (hw hu hi).imp_right .inl
    · exact .inr (.inl ⟨o, hm hi⟩)
    · exact .inr (.inr hu')
  evicted hx := by
    obtain ⟨ha, hb, hlt, hc⟩ := h.evicted hx
    exact ⟨ha, hb, hlt, hc.imp_left fun ⟨r, hr⟩ => ⟨r, List.mem_append_left _ hr⟩⟩

theorem Finished.fulfill {late : List Nat} (h : v.Finished k) (hv : v.Slotted k)
    (hs : v.pending.slot? r.id = some s) :
    Finished { v with
      pending := { (v.pending.remove r.id).1 with mail := v.pending.mail ++ [(s, .ok r)] } }
      { k with processed := k.processed ++ [(r, some s)], late := k.late ++ late } := by
  have hslot := Pending.mem_of_slot? hs
  refine h.processed (fun hx he => ?_) (fun hi => (Pending.mem_slots_remove.1 hi).1) (fun hu => hu)
    (fun {u a} _ hi => ?_) (List.subset_append_left _ _)
  · obtain rfl := Option.some.inj he
    exact (h.past hx).2.2 _ hslot
  · by_cases he : a.id = r.id
    · obtain rfl := hv.keyed.eq hi (he ▸ hslot)
      exact .inr ⟨.ok r, by simp⟩
    · exact .inl (Pending.mem_slots_remove.2 ⟨hi, he⟩)

theorem Finished.close (h : v.Finished k) : Finished { v with pending := v.pending.close.1 } k :=
  { h with
    past := fun hx => ⟨(h.past hx).1, (h.past hx).2.1, fun _ => List.not_mem_nil⟩
    waiting := fun hu => by
      rcases h.waiting hu with hi | ⟨o, hm⟩ | hu
      · exact .inr (.inl ⟨_, List.mem_append_right _ (List.mem_map.2 ⟨_, hi, rfl⟩)⟩)
      · exact .inr (.inl ⟨o, List.mem_append_left _ hm⟩)
      · exact .inr (.inr hu) }

theorem leaving_iff {y : Option Exchange} {why : Lapse} : y = some (.leaving a why) ↔
    y.bind Exchange.awaited? = some a ∧ y.bind Exchange.lapse? = some why := by
  rcases y with _ | (_ | _ | _ | _) <;> simp [Exchange.awaited?, Exchange.lapse?]

theorem Lapsed.mono (h : v.Lapsed k) (hn : v.nextSlot ≤ w.nextSlot)
    (hk : k'.lapsed = k.lapsed) (hp : k'.processed = k.processed) (hl : k'.late = k.late)
    (hw : ∀ {u a why}, w.errand u = some (.leaving a why) → v.errand u = some (.leaving a why))
    (ha : ∀ {u a}, w.Awaits u a → (v.Awaits u a ∧ ∀ why, v.errand u = some (.leaving a why) →
      w.errand u = some (.leaving a why)) ∨ v.nextSlot ≤ a.slot) : w.Lapsed k' where
  past hs := Nat.lt_of_lt_of_le (h.past (hk ▸ hs)) hn
  leaving hu := hk ▸ h.leaving (hw hu)
  lapsed hu hs := by
    rw [hk] at hs
    rcases ha hu with ⟨hu, hkeep⟩ | hle
    · obtain ⟨why, hy⟩ := h.lapsed hu hs
      exact ⟨why, hkeep why hy⟩
    · exact absurd (h.past hs) (Nat.not_lt.2 hle)
  late hu hr := hl ▸ h.late (hw hu) (hp ▸ hr)
  posted hs := hp ▸ h.posted (hl ▸ hs)

end Parley.Errands
