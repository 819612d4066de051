import Parley.Proofs.Peer.Ended

namespace Parley.Errands

variable {κ : Type} {v w : Errands κ} {k : Docket} {e : Event} {who u : κ} {a b : Awaited}
  {id : RequestId} {s : Nat} {r : Response} {x : Ending} {o : Except ExchangeError Response}
  [DecidableEq κ]

theorem Finished.register {m : Message} (h : v.Finished k) (hv : v.Slotted k)
    (hs : a.slot = v.nextSlot) :
    (v.enroll who m a).Finished { k with registered := k.registered ++ [a] } := by
  have hlt {x : Ending} (hx : x ∈ k.ended) : x.request.slot ≠ a.slot := by
    rw [hs]; exact Nat.ne_of_lt (hv.lt (h.past hx).1)
  exact { h with
    past := fun {x} hx => by
      obtain ⟨hreg, hno, hns⟩ := h.past hx
      refine ⟨List.mem_append_left _ hreg, fun u hu => ?_, fun id hm => ?_⟩
      · rcases awaits_take hu with ⟨-, he⟩ | ⟨-, ho⟩
        · exact hlt hx (congrArg Awaited.slot he)
        · exact hno u ho
      · rcases List.mem_append.1 hm with hm | hm
        · exact hns id hm
        · exact hlt hx (Prod.mk.inj (List.mem_singleton.1 hm)).2
    waiting := fun {u b} hu => by
      rcases awaits_take hu with ⟨-, rfl⟩ | ⟨-, ho⟩
      · exact .inl (by simp [enroll])
      · exact (h.waiting ho).imp_left (List.mem_append_left _)
    evicted := fun hx => by
      obtain ⟨⟨b, hb, he⟩, hb', hc⟩ := h.evicted hx
      exact ⟨⟨b, List.mem_append_left _ hb, he⟩, List.mem_append_left _ hb', hc⟩ }

theorem Finished.fetch {o : Except ExchangeError Response} (h : v.Finished k) (hv : v.Slotted k)
    (hp : v.Posted k) (ha : v.Awaits who a) (hm : v.pending.mailOf? a.slot = some o) :
    Finished { v with
      pending := { v.pending with mail := v.pending.mail.filter fun m => m.1 ≠ a.slot }
      errand := Function.update v.errand who none }
      { k with ended := k.ended ++ [⟨a, none, a.outcome o⟩], evicted := k.evicted ++ [] } := by
  have hmail := Pending.mem_of_mailOf? hm
  refine h.ended hv ha awaits_drop (fun hi => ⟨hi, fun he => ?_⟩) (fun r hr _ => .inr ?_) ?_
    (fun _ => .inl) (fun hu hb => List.mem_filter.2 ⟨hb, decide_eq_true fun he => ?_⟩) (by simp)
  · exact (hp.taken hmail).2 _ (he ▸ hi)
  · -- A response that went to the slot has not been fetched by anybody else.
    have hd := hp.delivered ha hr
    obtain rfl : .ok r = o := congrArg Prod.snd (List.inj_on_of_nodup_map hp.nodup hd hmail rfl)
    rfl
  · cases o with
    | ok r => exact .inl ⟨r, hp.answer hmail, rfl⟩
    | error x =>
        obtain ⟨rfl, -⟩ := hp.failure hmail
        exact .inr (.inl rfl)
  · exact (awaits_drop hu).1 (hv.unique (awaits_drop hu).2 ha he)

theorem Finished.gone (h : v.Finished k) (hv : v.Slotted k) (hp : v.Posted k)
    (ha : v.Awaits who a) (hm : v.pending.mailOf? a.slot = none)
    (hs : ∀ id, (id, a.slot) ∉ v.pending.slots) :
    Finished { v with errand := Function.update v.errand who none }
      { k with ended := k.ended ++ [⟨a, none, .error .connectionClosed⟩]
               evicted := k.evicted ++ [] } := by
  refine h.ended hv ha awaits_drop (fun hi => ⟨hi, ?_⟩)
    (fun r hr _ => (hp.not_processed ha hm hr).elim) (.inr (.inl rfl)) (fun _ => .inl)
    (fun _ hm => hm) (by simp)
  rintro rfl
  exact hs _ hi

theorem Docket.mem_victim {p : Pending Nat} (hk : p.Keyed) :
    Docket.victim? p x = some s ↔
      (x.request.id, s) ∈ p.slots ∧ x.lapse ≠ none ∧ s ≠ x.request.slot := by
  simp only [Docket.victim?, Option.filter_eq_some_iff, decide_eq_true_eq, Option.isSome_iff_ne_none]
  exact and_congr_left fun _ => ⟨Pending.mem_of_slot?, hk.slot?⟩

/-- A request that has been given up leaves, and removes the slot that its id has by then. -/
theorem Finished.left {why : Lapse} (h : v.Finished k) (hv : v.Slotted k) (hp : v.Posted k)
    (hl : v.Lapsed k) (hx : v.errand who = some (.leaving a why)) :
    Finished { v with
      pending := (v.pending.remove a.id).1
      errand := Function.update v.errand who none }
      (k.record v.pending (.ended ⟨a, some why, .error (why.error a)⟩)) := by
  have ha : v.Awaits who a := by
    rw [Awaits, hx]
    rfl
  have hmem {b : Awaited} {s : Nat} (hb : (b, s) ∈ ((Docket.victim? v.pending
      ⟨a, some why, .error (why.error a)⟩).map (a, ·)).toList) :
      b = a ∧ (a.id, s) ∈ v.pending.slots ∧ s ≠ a.slot := by
    obtain ⟨s', hs', he⟩ := Option.map_eq_some_iff.1 (Option.mem_toList.1 hb)
    cases he
    obtain ⟨hi, -, hne⟩ := (Docket.mem_victim hv.keyed).1 hs'
    exact ⟨rfl, hi, hne⟩
  refine h.ended hv ha awaits_drop (hv.mem_remove (hv.awaited ha)) (fun r hr hn => ?_) ?_
    (fun {u b} hu hi => ?_) (fun _ hm => hm) fun hb => ?_
  · cases why with
    | unsent => exact .inl rfl
    | overdue => exact absurd (hl.late hx hr) hn
  · cases why with
    | unsent => exact .inr (.inl rfl)
    | overdue => exact .inr (.inr rfl)
  · by_cases he : b.id = a.id
    · refine .inr (Option.mem_toList.2 (Option.map_eq_some_iff.2 ⟨b.slot, ?_, rfl⟩))
      obtain ⟨hne, hb⟩ := awaits_drop hu
      exact (Docket.mem_victim hv.keyed).2 ⟨he ▸ hi, by simp, fun hs => hne (hv.unique hb ha hs)⟩
    · exact .inl (Pending.mem_slots_remove.2 ⟨hi, he⟩)
  · obtain ⟨rfl, hi, hne⟩ := hmem hb
    obtain ⟨c, hc, hid, rfl⟩ := hv.owner hi
    refine ⟨⟨c, hc, rfl, hid⟩, hv.awaited ha,
      Nat.lt_of_le_of_ne (hv.latest hi (hv.awaited ha)) (Ne.symm hne), ?_⟩
    rcases h.waiting ha with hs | ⟨o, hm⟩ | hm
    · exact absurd (hv.keyed.eq hi hs) hne
    · cases o with
      | ok r => exact .inl ⟨r, hp.answer hm⟩
      | error x =>
          rw [hv.closed (hp.failure hm).2] at hi
          cases hi
    · exact .inr hm

theorem Finished.change (h : v.Finished k) (hv : v.Slotted k) (hp : v.Posted k) (hl : v.Lapsed k)
    (hc : Change v e w) : w.Finished (k.record v.pending e) := by
  have hless (he : ∀ a, e ≠ .registered a) (hs : w.pending = v.pending) {lapsed : List Nat} :
      w.Finished { k with lapsed } := by
    obtain ⟨-, -, ha⟩ := hc.fewer he
    exact { h with
      past := fun hx => by
        obtain ⟨hreg, hno, hns⟩ := h.past hx
        exact ⟨hreg, fun u hu => hno u (ha u _ hu), hs ▸ hns⟩
      waiting := fun hu => by rw [hs]; exact h.waiting (ha _ _ hu) }
  have hw {who : κ} {x : Exchange} {a : Awaited} (hx : v.errand who = some x)
      (ha : x.awaited? = some a) : v.Awaits who a := by
    rw [Awaits, hx]
    exact ha
  cases hc with
  | idle | kept | dropped | unsent | timedOut => exact hless (by simp) rfl
  | registered _ _ _ hs => exact h.register hv hs
  | answered hx hm =>
      rw [Docket.record, Docket.victim?_of_none rfl]
      exact h.fetch hv hp (hw hx rfl) hm
  | gone hx hm hs =>
      rw [Docket.record, Docket.victim?_of_none rfl]
      exact h.gone hv hp (hw hx rfl) hm hs
  | left hx => exact h.left hv hp hl hx
  | processed r =>
      cases hs : v.pending.slot? r.id with
      | none =>
          simp only [Pending.fulfill_of_none hs, Docket.record, hs]
          exact h.processed (by simp) (fun hi => hi) (fun hu => hu) (fun _ => .inl)
            (List.Subset.refl _)
      | some s =>
          simp only [Pending.fulfill_of_some hs, Docket.record, hs]
          exact h.fulfill hv hs
  | closed => exact h.close

theorem Lapsed.lapse {why : Lapse} (h : v.Lapsed k) (hv : v.Slotted k) (ha : v.Awaits who a)
    (hn : why = .overdue → ∀ r, (r, some a.slot) ∉ k.processed) :
    Lapsed { v with errand := Function.update v.errand who (some (.leaving a why)) }
      { k with lapsed := k.lapsed ++ [a.slot] } := by
  have hold {u : κ} {b : Awaited} {y : Lapse}
      (hu : Function.update v.errand who (some (.leaving a why)) u = some (.leaving b y)) :
      (u = who ∧ b = a ∧ y = why) ∨ v.errand u = some (.leaving b y) := by
    by_cases he : u = who
    · subst he
      cases (Function.update_self ..).symm.trans hu
      exact .inl ⟨rfl, rfl, rfl⟩
    · exact .inr ((Function.update_of_ne he _ _).symm.trans hu)
  constructor
  case past =>
    intro s hs
    rcases List.mem_append.1 hs with hs | hs
    · exact h.past hs
    · rw [List.mem_singleton.1 hs]
      exact hv.lt (hv.awaited ha)
  case leaving =>
    intro u b y hu
    rcases hold hu with ⟨-, rfl, -⟩ | hu
    · simp
    · exact List.mem_append_left _ (h.leaving hu)
  case lapsed =>
    intro u b hu hs
    rcases awaits_update.1 hu with ⟨rfl, ho⟩ | ⟨hne, hu⟩
    · cases ho
      exact ⟨why, Function.update_self ..⟩
    · rcases List.mem_append.1 hs with hs | hs
      · obtain ⟨y, hy⟩ := h.lapsed hu hs
        exact ⟨y, (Function.update_of_ne hne _ _).trans hy⟩
      · exact absurd (hv.unique hu ha (List.mem_singleton.1 hs)) hne
  case late =>
    intro u b r hu hr
    rcases hold hu with ⟨-, rfl, hy⟩ | hu
    · exact absurd hr (hn hy.symm r)
    · exact h.late hu hr
  case posted => exact h.posted

theorem Lapsed.change (h : v.Lapsed k) (hv : v.Slotted k) (hp : v.Posted k) (hc : Change v e w) :
    w.Lapsed (k.record v.pending e) := by
  have hw {who : κ} {x : Exchange} {a : Awaited} (hx : v.errand who = some x)
      (ha : x.awaited? = some a) : v.Awaits who a := by
    rw [Awaits, hx]
    exact ha
  -- Whoever is not on an errand any more is neither waiting nor leaving.
  have hnone {who : κ} {u : κ} {b : Awaited}
      (hu : (Function.update v.errand who none u).bind Exchange.awaited? = some b) :
      v.Awaits u b ∧ ∀ why, v.errand u = some (.leaving b why) →
        Function.update v.errand who none u = some (.leaving b why) :=
    ⟨(awaits_drop hu).2, fun _ hy => (Function.update_of_ne (awaits_drop hu).1 _ _).trans hy⟩
  have hgone {who : κ} {u : κ} {b : Awaited} {why : Lapse}
      (hu : Function.update v.errand who none u = some (.leaving b why)) :
      v.errand u = some (.leaving b why) := by
    have hne : u ≠ who := fun he => by
      rw [he, Function.update_self] at hu
      cases hu
    exact (Function.update_of_ne hne _ _).symm.trans hu
  cases hc with
  | idle | closed => exact ⟨h.past, h.leaving, h.lapsed, h.late, h.posted⟩
  | @kept who o hk hl =>
      have hsame (u : κ) (b : Awaited) (why : Lapse) :
          Function.update v.errand who o u = some (.leaving b why) ↔
            v.errand u = some (.leaving b why) := by
        by_cases hu : u = who
        · subst hu
          rw [Function.update_self, leaving_iff, leaving_iff, hk, hl]
        · rw [Function.update_of_ne hu]
      refine h.mono (Nat.le_refl _) rfl rfl rfl (hsame _ _ _).1 fun {u b} hu => .inl ⟨?_,
        fun why => (hsame u b why).2⟩
      rcases awaits_update.1 hu with ⟨rfl, ho⟩ | ⟨-, hu⟩
      · exact hk.symm.trans ho
      · exact hu
  | dropped => exact h.mono (Nat.le_refl _) rfl rfl rfl hgone fun hu => .inl (hnone hu)
  | answered | gone | left =>
      exact h.mono (Nat.le_refl _) rfl rfl rfl hgone fun hu => .inl (hnone hu)
  | @registered who m a hn hc hi hs =>
      refine h.mono (Nat.le_succ _) rfl rfl rfl (fun {u b why} hu => ?_) fun {u b} hu => ?_
      · have hne : u ≠ who := fun he => by
          change Function.update v.errand who _ u = _ at hu
          rw [he, Function.update_self] at hu
          cases hu
        exact (Function.update_of_ne hne _ _).symm.trans hu
      · rcases awaits_take hu with ⟨-, rfl⟩ | ⟨hne, hu⟩
        · exact .inr (Nat.le_of_eq hs.symm)
        · exact .inl ⟨hu, fun why hy => (Function.update_of_ne hne _ _).trans hy⟩
  | unsent hx => exact h.lapse hv (hw hx rfl) (by simp)
  | timedOut hx hm => exact h.lapse hv (hw hx rfl) fun _ r => hp.not_processed (hw hx rfl) hm
  | processed r =>
      refine ⟨h.past, h.leaving, h.lapsed, fun {u b r'} hu hr => ?_, fun {s} hs => ?_⟩
      · rcases List.mem_append.1 hr with hr | hr
        · exact List.mem_append_left _ (h.late hu hr)
        · have hs : v.pending.slot? r.id = some b.slot :=
            (Prod.mk.inj (List.mem_singleton.1 hr)).2.symm
          refine List.mem_append_right _ (Option.mem_toList.2 ?_)
          rw [hs]
          simpa using h.leaving hu
      · rcases List.mem_append.1 hs with hs | hs
        · obtain ⟨r', hr⟩ := h.posted hs
          exact ⟨r', List.mem_append_left _ hr⟩
        · obtain ⟨hs, -⟩ := Option.filter_eq_some_iff.1 (Option.mem_toList.1 hs)
          exact ⟨r, List.mem_append_right _ (by simp [hs])⟩

theorem Sound.change (h : v.Sound k) (hc : Change v e w) : w.Sound (k.record v.pending e) :=
  ⟨h.slotted.change hc, h.posted.change h.slotted hc, h.lapsed.change h.slotted h.posted hc,
    h.finished.change h.slotted h.posted h.lapsed hc⟩

end Parley.Errands
