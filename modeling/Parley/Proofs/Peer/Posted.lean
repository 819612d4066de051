import Parley.Proofs.Peer.Docket

namespace Parley.Errands

variable {κ : Type} {v w : Errands κ} {k k' : Docket} {e : Event} {who u : κ} {a b : Awaited}
  {id : RequestId} {s : Nat} {r : Response}

/-- What has come for a slot has come once, and the slot is free again. -/
structure Posted (v : Errands κ) (k : Docket) : Prop where
  nodup : (v.pending.mail.map (·.1)).Nodup
  taken : ∀ {s o}, (s, o) ∈ v.pending.mail → s < v.nextSlot ∧ ∀ id, (id, s) ∉ v.pending.slots
  answer : ∀ {s r}, (s, .ok r) ∈ v.pending.mail → (r, some s) ∈ k.processed
  failure : ∀ {s x}, (s, .error x) ∈ v.pending.mail →
    x = .connectionClosed ∧ v.pending.closed = true
  processed : ∀ {r s}, (r, some s) ∈ k.processed →
    (∃ a ∈ k.registered, a.id = r.id ∧ a.slot = s) ∧ ∀ id, (id, s) ∉ v.pending.slots
  once : (k.processed.filterMap (·.2)).Nodup
  delivered : ∀ {who a r}, v.Awaits who a → (r, some a.slot) ∈ k.processed →
    (a.slot, .ok r) ∈ v.pending.mail

theorem Posted.lt (h : v.Posted k) (hv : v.Slotted k) (hp : (r, some s) ∈ k.processed) :
    s < v.nextSlot := by
  obtain ⟨⟨a, ha, -, rfl⟩, -⟩ := h.processed hp
  exact hv.lt ha

theorem Posted.fewer (h : v.Posted k) (hn : v.nextSlot ≤ w.nextSlot)
    (hs : ∀ {id s}, (id, s) ∈ w.pending.slots → (id, s) ∈ v.pending.slots ∨ v.nextSlot ≤ s)
    (hm : w.pending.mail.Sublist v.pending.mail)
    (hc : v.pending.closed = true → w.pending.closed = true)
    (ha : ∀ {u a}, w.Awaits u a → (v.Awaits u a ∧
      ∀ o, (a.slot, o) ∈ v.pending.mail → (a.slot, o) ∈ w.pending.mail) ∨ v.nextSlot ≤ a.slot)
    (hr : ∀ {r s}, (r, some s) ∈ k.processed → s < v.nextSlot)
    (hreg : k.registered ⊆ k'.registered) (hk : k'.processed = k.processed) : w.Posted k' where
  nodup := h.nodup.sublist (hm.map _)
  taken hm' := by
    obtain ⟨hlt, hno⟩ := h.taken (hm.subset hm')
    refine ⟨Nat.lt_of_lt_of_le hlt hn, fun id hi => ?_⟩
    rcases hs hi with hi | hi
    · exact hno id hi
    · exact absurd hlt (Nat.not_lt.2 hi)
  answer hm' := hk ▸ h.answer (hm.subset hm')
  failure hm' := ⟨(h.failure (hm.subset hm')).1, hc (h.failure (hm.subset hm')).2⟩
  processed hp := by
    rw [hk] at hp
    obtain ⟨⟨a, ham, he⟩, hno⟩ := h.processed hp
    refine ⟨⟨a, hreg ham, he⟩, fun id hi => ?_⟩
    rcases hs hi with hi | hi
    · exact hno id hi
    · exact absurd (hr hp) (Nat.not_lt.2 hi)
  once := hk ▸ h.once
  delivered hu hp := by
    rw [hk] at hp
    rcases ha hu with ⟨hu, hk⟩ | hle
    · exact hk _ (h.delivered hu hp)
    · exact absurd (hr hp) (Nat.not_lt.2 hle)

theorem Posted.mailOf? (h : v.Posted k) (ha : v.Awaits who a)
    (hr : (r, some a.slot) ∈ k.processed) :
    v.pending.mailOf? a.slot = some (.ok r) := by
  have hm := h.delivered ha hr
  cases ho : v.pending.mailOf? a.slot with
  | none => exact absurd hm (Pending.mailOf?_eq_none.1 ho _)
  | some o =>
      have he := List.inj_on_of_nodup_map h.nodup (Pending.mem_of_mailOf? ho) hm rfl
      exact congrArg (fun m => some m.2) he

theorem Posted.not_processed (h : v.Posted k) (ha : v.Awaits who a)
    (hm : v.pending.mailOf? a.slot = none) : (r, some a.slot) ∉ k.processed :=
  fun hr => Pending.mailOf?_eq_none.1 hm _ (h.delivered ha hr)

theorem Posted.stray (h : v.Posted k) (hreg : k'.registered = k.registered)
    (hk : k'.processed = k.processed ++ [(r, none)]) : v.Posted k' := by
  have hp {r' : Response} {s : Nat} (hm : (r', some s) ∈ k'.processed) :
      (r', some s) ∈ k.processed := by
    simpa [hk] using hm
  exact { h with
    answer := fun hm => hk ▸ List.mem_append_left _ (h.answer hm)
    processed := fun hm => hreg ▸ h.processed (hp hm)
    once := by simpa [hk] using h.once
    delivered := fun hu hm => h.delivered hu (hp hm) }

/-- A response takes the slot of its id away, so that nothing else comes for that slot. -/
theorem Posted.fulfill {late : List Nat} (h : v.Posted k) (hv : v.Slotted k)
    (hs : v.pending.slot? r.id = some s) :
    Posted { v with
      pending := { (v.pending.remove r.id).1 with mail := v.pending.mail ++ [(s, .ok r)] } }
      { k with processed := k.processed ++ [(r, some s)], late } := by
  have hslot := Pending.mem_of_slot? hs
  obtain ⟨a, ha, hid, rfl⟩ := hv.owner hslot
  have hne {s' : Nat} (hno : ∀ id, (id, s') ∉ v.pending.slots) : s' ≠ a.slot :=
    fun he => hno r.id (he ▸ hslot)
  have hsub {id : RequestId} {s' : Nat} (hm : (id, s') ∈ (v.pending.remove r.id).1.slots) :
      (id, s') ∈ v.pending.slots ∧ s' ≠ a.slot :=
    hv.mem_remove ha (hid ▸ hm)
  constructor
  case nodup =>
    rw [List.map_append]
    refine List.nodup_append.2 ⟨h.nodup, List.nodup_singleton _, fun s' hs' t ht => ?_⟩
    obtain ⟨⟨s', o⟩, hm, rfl⟩ := List.mem_map.1 hs'
    obtain rfl := List.mem_singleton.1 ht
    exact hne (h.taken hm).2
  case taken =>
    intro s' o hm
    rcases List.mem_append.1 hm with hm | hm
    · exact ⟨(h.taken hm).1, fun id hi => (h.taken hm).2 id (hsub hi).1⟩
    · obtain ⟨rfl, -⟩ := Prod.mk.inj (List.mem_singleton.1 hm)
      exact ⟨hv.lt ha, fun id hi => (hsub hi).2 rfl⟩
  case answer =>
    intro s' r' hm
    rcases List.mem_append.1 hm with hm | hm
    · exact List.mem_append_left _ (h.answer hm)
    · cases List.mem_singleton.1 hm
      simp
  case failure =>
    intro s' x hm
    rcases List.mem_append.1 hm with hm | hm
    · exact h.failure hm
    · cases List.mem_singleton.1 hm
  case processed =>
    intro r' s' hm
    rcases List.mem_append.1 hm with hm | hm
    · exact ⟨(h.processed hm).1, fun id hi => (h.processed hm).2 id (hsub hi).1⟩
    · cases List.mem_singleton.1 hm
      exact ⟨⟨a, ha, hid, rfl⟩, fun id hi => (hsub hi).2 rfl⟩
  case once =>
    rw [List.filterMap_append]
    refine List.nodup_append.2 ⟨h.once, by simp, fun s' hs' t ht => ?_⟩
    obtain ⟨⟨r', o⟩, hm, rfl⟩ := List.mem_filterMap.1 hs'
    obtain rfl : t = a.slot := by simpa using ht
    exact hne (h.processed hm).2
  case delivered =>
    intro u b r' hu hm
    rcases List.mem_append.1 hm with hm | hm
    · exact List.mem_append_left _ (h.delivered hu hm)
    · obtain ⟨rfl, he⟩ := Prod.mk.inj (List.mem_singleton.1 hm)
      rw [Option.some.inj he]
      simp

/-- At the end the failure comes for every slot that is still taken, and for no other. -/
theorem Posted.close (h : v.Posted k) (hv : v.Slotted k) :
    Posted { v with pending := v.pending.close.1 } k := by
  have hmem {s : Nat} {o : Except ExchangeError Response}
      (hm : (s, o) ∈ v.pending.close.1.mail) : (s, o) ∈ v.pending.mail ∨
        (∃ id, (id, s) ∈ v.pending.slots) ∧ o = .error .connectionClosed := by
    rcases List.mem_append.1 hm with hm | hm
    · exact .inl hm
    · obtain ⟨⟨id, s'⟩, hi, he⟩ := List.mem_map.1 hm
      cases he
      exact .inr ⟨⟨id, hi⟩, rfl⟩
  have hnone (id : RequestId) (s : Nat) : (id, s) ∉ v.pending.close.1.slots := List.not_mem_nil
  constructor
  case nodup =>
    have hslots : (v.pending.slots.map (·.2)).Nodup := by
      refine (List.nodup_map_iff_inj_on hv.keyed.of_map).2 fun x hx y hy he => ?_
      obtain ⟨a, ha, hi, hs⟩ := hv.owner hx
      exact Prod.ext (hi.symm.trans (hv.id_eq ha (by rw [hs, he]; exact hy)).symm) he
    change ((v.pending.mail ++ _).map _).Nodup
    rw [List.map_append, List.map_map]
    refine List.nodup_append.2 ⟨h.nodup, hslots, fun s hs t ht => ?_⟩
    obtain ⟨⟨s, o⟩, hm, rfl⟩ := List.mem_map.1 hs
    obtain ⟨⟨id, t⟩, hi, rfl⟩ := List.mem_map.1 ht
    rintro rfl
    exact (h.taken hm).2 id hi
  case taken =>
    intro s o hm
    refine ⟨?_, fun id => hnone id s⟩
    rcases hmem hm with hm | ⟨⟨id, hi⟩, -⟩
    · exact (h.taken hm).1
    · obtain ⟨a, ha, -, rfl⟩ := hv.owner hi
      exact hv.lt ha
  case answer =>
    intro s r hm
    rcases hmem hm with hm | ⟨-, he⟩
    · exact h.answer hm
    · cases he
  case failure =>
    intro s x hm
    rcases hmem hm with hm | ⟨-, he⟩
    · exact ⟨(h.failure hm).1, rfl⟩
    · exact ⟨Except.error.inj he, rfl⟩
  case processed => exact fun hp => ⟨(h.processed hp).1, fun id => hnone id _⟩
  case once => exact h.once
  case delivered => exact fun hu hp => List.mem_append_left _ (h.delivered hu hp)

variable [DecidableEq κ]

theorem Posted.register {m : Message} (h : v.Posted k) (hv : v.Slotted k)
    (hs : a.slot = v.nextSlot) :
    (v.enroll who m a).Posted { k with registered := k.registered ++ [a] } := by
  refine h.fewer ?_ (fun hi => ?_) ?_ ?_ (fun hu => ?_) (h.lt hv)
    (List.subset_append_left _ _) rfl
  · exact Nat.le_succ _
  · rcases List.mem_append.1 hi with hi | hi
    · exact .inl hi
    · obtain ⟨-, rfl⟩ := Prod.mk.inj (List.mem_singleton.1 hi)
      exact .inr (Nat.le_of_eq hs.symm)
  · exact .refl _
  · exact id
  · rcases awaits_take hu with ⟨-, rfl⟩ | ⟨-, ho⟩
    · exact .inr (Nat.le_of_eq hs.symm)
    · exact .inl ⟨ho, fun _ => id⟩

theorem Posted.fetch (h : v.Posted k) (hv : v.Slotted k) (ha : v.Awaits who a)
    (hreg : k'.registered = k.registered) (hk : k'.processed = k.processed) :
    Posted { v with
      pending := { v.pending with mail := v.pending.mail.filter fun m => m.1 ≠ a.slot }
      errand := Function.update v.errand who none } k' := by
  refine h.fewer ?_ ?_ ?_ ?_ (fun hu => ?_) (h.lt hv) (hreg ▸ List.Subset.refl _) hk
  · exact Nat.le_refl _
  · exact .inl
  · exact List.filter_sublist
  · exact id
  · obtain ⟨hne, ho⟩ := awaits_drop hu
    refine .inl ⟨ho, fun o hb => List.mem_filter.2 ⟨hb, decide_eq_true fun he => ?_⟩⟩
    exact hne (hv.unique ho ha he)

theorem Posted.change (h : v.Posted k) (hv : v.Slotted k) (hc : Change v e w) :
    w.Posted (k.record v.pending e) := by
  have hless (he : ∀ a, e ≠ .registered a) (hm : w.pending.mail = v.pending.mail)
      (hcl : w.pending.closed = v.pending.closed) {k' : Docket}
      (hreg : k'.registered = k.registered) (hk : k'.processed = k.processed) : w.Posted k' := by
    obtain ⟨hn, hs, ha⟩ := hc.fewer he
    exact h.fewer (Nat.le_of_eq hn.symm) (fun hi => .inl (hs.subset hi)) (by rw [hm]) (hcl ▸ id)
      (fun hu => .inl ⟨ha _ _ hu, by rw [hm]; exact fun _ => id⟩) (h.lt hv)
      (hreg ▸ List.Subset.refl _) hk
  cases hc with
  | idle | kept | dropped | unsent | gone | timedOut | left => exact hless (by simp) rfl rfl rfl rfl
  | registered hw hc hi hs => exact h.register hv hs
  | answered hw hm => exact h.fetch hv (by rw [Awaits, hw]; rfl) rfl rfl
  | processed r =>
      cases hs : v.pending.slot? r.id with
      | none =>
          rw [Pending.fulfill_of_none hs]
          exact h.stray rfl (r := r) (by simp only [Docket.record, hs])
      | some s =>
          simp only [Pending.fulfill_of_some hs, Docket.record, hs]
          exact h.fulfill hv hs
  | closed => exact h.close hv

end Parley.Errands
