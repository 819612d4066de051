import Parley.Proofs.Dispatch.Intake

namespace Parley.Dispatch

namespace View.Sound

variable {c : ConnectionId} {v w : View} {n : Nat} {r : InFlight TokenName}

theorem mem_claimed_claim {s : Nat} {j : Job} (hv : v.Sound c) (hj : v.job s = some j)
    (hc : ∀ t, j.ticket = some t → v.registry.isClaimed t = false) {n : Nat} :
    (c, n) ∈ (j.claim v.registry).claimed ↔
      (c, n) ∈ v.registry.claimed ∨ ∃ t, j.ticket = some t ∧ t.serial = n := by
  cases ht : j.ticket with
  | none => simp [Job.claim, ht]
  | some t =>
      have htc := (hv.ticket hj ht).1
      simp [Job.claim, ht, InFlight.claim_eq, hc t ht, htc, eq_comm]

/-- What stands for the job `s₀` afterwards has its ticket and its token. -/
theorem update_kept {f : Nat → Option Job} {s₀ s : Nat} {j₀ j : Job} {o : Option Job}
    (hj₀ : f s₀ = some j₀) (ho : ∀ j, o = some j → j.ticket = j₀.ticket ∧ j.token = j₀.token)
    (h : Function.update f s₀ o s = some j) :
    ∃ i, f s = some i ∧ j.ticket = i.ticket ∧ j.token = i.token ∧
      (s = s₀ ∧ o = some j ∨ s ≠ s₀ ∧ j = i) := by
  rcases update_eq_some.1 h with ⟨rfl, hj⟩ | ⟨hs, hj⟩
  · exact ⟨j₀, hj₀, (ho j hj).1, (ho j hj).2, .inl ⟨rfl, hj⟩⟩
  · exact ⟨j, hj, rfl, rfl, .inr ⟨hs, rfl⟩⟩

theorem concludes {s₀ : Nat} {j₀ : Job} (hv : v.Sound c) (hj₀ : v.job s₀ = some j₀)
    (hc : ∀ t, j₀.ticket = some t → v.registry.isClaimed t = false) : ({ v with
      registry := j₀.claim v.registry
      job := Function.update v.job s₀ (some { j₀ with stage := .concluded }) } : View).Sound c := by
  have hjob {s : Nat} {j : Job} := update_kept (s := s) (j := j) hj₀
    (o := some { j₀ with stage := .concluded }) fun j hj => by cases hj; exact ⟨rfl, rfl⟩
  have hclaimed {n : Nat} := hv.mem_claimed_claim hj₀ hc (n := n)
  refine hv.carried (fun ho => ?job) rfl rfl rfl (j₀.issued_claim _) (j₀.fired_claim _)
    (fun h => hclaimed.2 (.inl h)) ?keyed ?entries ?entry ?claimed ?entered ?unresolved ?concluded
    ?replying
  case job =>
    obtain ⟨i, hi, hticket, hname, -⟩ := hjob ho
    exact ⟨i, hi, hticket, hname⟩
  case keyed => exact j₀.keyed_claim hv.keyed
  case entries => exact fun u hu => j₀.entries_claim _ ▸ hu
  case entry =>
    intro t ht htc
    obtain ⟨s, i, hi, hti, hm⟩ := hv.entry (j₀.entries_claim _ ▸ ht) htc
    by_cases hs : s = s₀
    · subst hs
      obtain rfl : j₀ = i := Option.some.inj (hj₀.symm.trans hi)
      exact ⟨s, _, update_eq_some.2 (.inl ⟨rfl, rfl⟩), hti, by simp⟩
    · exact ⟨s, i, update_eq_some.2 (.inr ⟨hs, hi⟩), hti, hm⟩
  case claimed =>
    intro n hn
    rcases hclaimed.1 hn with hn | ⟨t, ht, rfl⟩
    · exact hv.claimed hn
    · exact (hv.ticket hj₀ ht).2.2
  case entered =>
    intro s j t ho ht he hm hn
    obtain ⟨i, hi, -, -, ⟨-, hs⟩ | ⟨hs, rfl⟩⟩ := hjob ho
    · cases hs; cases he
    · rcases hclaimed.1 hn with hn | ⟨u, hu, hn⟩
      · exact hv.entered hi ht he (j₀.entries_claim _ ▸ hm) hn
      · exact hs (hv.serial hi hj₀ ht hu hn.symm)
  case unresolved =>
    intro s j t ho ht he hn
    obtain ⟨i, hi, -, -, ⟨-, hs⟩ | ⟨-, rfl⟩⟩ := hjob ho
    · cases hs; cases he
    · change t ∈ (j₀.claim v.registry).entries ∨ _
      rw [j₀.entries_claim]
      exact hv.unresolved hi ht he fun h => hn (hclaimed.2 (.inl h))
  case concluded =>
    intro s j t ho ht he
    obtain ⟨i, hi, hti, -, ⟨rfl, -⟩ | ⟨-, rfl⟩⟩ := hjob ho
    · obtain rfl : j₀ = i := Option.some.inj (hj₀.symm.trans hi)
      exact hclaimed.2 (.inr ⟨t, hti ▸ ht, rfl⟩)
    · exact hclaimed.2 (.inl (hv.concluded hi ht he))
  case replying =>
    intro s j m ho hm
    obtain ⟨i, hi, -, -, ⟨-, hs⟩ | ⟨-, rfl⟩⟩ := hjob ho
    · cases hs; cases hm
    · exact hv.replying hi hm

theorem mem_entries_release {s : Nat} {j : Job} {u : Ticket TokenName} (hv : v.Sound c)
    (hj : v.job s = some j) (hu : u.connection = c) :
    u ∈ (j.release v.registry).entries ↔ u ∈ v.registry.entries ∧ j.ticket ≠ some u := by
  cases ht : j.ticket with
  | none => simp [Job.release, ht]
  | some t =>
      have htc := (hv.ticket hj ht).1
      simp only [Job.release, ht]
      rw [InFlight.mem_entries_release hv.keyed]
      refine and_congr_right fun hm => not_congr ⟨fun h => ?_, fun h => by cases h; simp⟩
      obtain ⟨s', i, hi, hit, -⟩ := hv.entry hm hu
      rw [(hv.job_unique hj hi ht hit h.2.2.symm).2.2]

theorem releases {s₀ : Nat} {j₀ : Job} {o : Option Job} (hv : v.Sound c)
    (hj₀ : v.job s₀ = some j₀)
    (ho : ∀ j, o = some j → j.ticket = j₀.ticket ∧ j.token = j₀.token ∧ j₀.stage ≠ .executing ∧
      ∃ t x, j₀.ticket = some t ∧ j.stage = .replying (.response x) ∧ x.id = t.id) :
    ({ v with
      registry := j₀.release v.registry
      job := Function.update v.job s₀ o } : View).Sound c := by
  have hjob {s : Nat} {j : Job} := update_kept (s := s) (j := j) hj₀ (o := o) fun j hj =>
    ⟨(ho j hj).1, (ho j hj).2.1⟩
  have hreplying {j : Job} (hs : o = some j) : j.stage ≠ .executing := by
    obtain ⟨-, -, -, u, x, -, hst, -⟩ := ho j hs
    simp [hst]
  have hclaimed := j₀.claimed_release v.registry
  refine hv.carried (fun h => ?job) rfl rfl rfl (j₀.issued_release _) (j₀.fired_release _)
    (fun h => hclaimed ▸ h) ?keyed ?entries ?entry ?claimed ?entered ?unresolved ?concluded
    ?replying
  case job =>
    obtain ⟨i, hi, hticket, hname, -⟩ := hjob h
    exact ⟨i, hi, hticket, hname⟩
  case keyed => exact j₀.keyed_release hv.keyed
  case entries => exact j₀.entries_release_subset _
  case entry =>
    intro t ht htc
    obtain ⟨hm, hn⟩ := (hv.mem_entries_release hj₀ htc).1 ht
    obtain ⟨s, j, hj, hjt, hst⟩ := hv.entry hm htc
    refine ⟨s, j, update_eq_some.2 (.inr ⟨?_, hj⟩), hjt, hst⟩
    rintro rfl
    rw [hj₀] at hj
    cases hj
    exact hn hjt
  case claimed => exact fun hn => hv.claimed (hclaimed ▸ hn)
  case entered =>
    intro s j t h ht he hm
    obtain ⟨i, hi, -, -, ⟨-, hs⟩ | ⟨hs, rfl⟩⟩ := hjob h
    · exact absurd he (hreplying hs)
    · exact hclaimed ▸ hv.entered hi ht he (j₀.entries_release_subset _ hm)
  case unresolved =>
    intro s j t h ht he hn
    obtain ⟨i, hi, -, -, ⟨-, hs⟩ | ⟨hs, rfl⟩⟩ := hjob h
    · exact absurd he (hreplying hs)
    · refine (hv.unresolved hi ht he fun h => hn (hclaimed ▸ h)).imp_left fun hm => ?_
      exact (hv.mem_entries_release hj₀ (hv.ticket hi ht).1).2
        ⟨hm, fun h₀ => hs (hv.serial hi hj₀ ht h₀ rfl)⟩
  case concluded =>
    intro s j t h ht he
    refine hclaimed ▸ ?_
    obtain ⟨i, hi, -, -, ⟨rfl, hs⟩ | ⟨hs, rfl⟩⟩ := hjob h
    · exact hv.concluded hj₀ ((ho j hs).1 ▸ ht) (ho j hs).2.2.1
    · exact hv.concluded hi ht he
  case replying =>
    intro s j m h hm
    obtain ⟨i, hi, -, -, ⟨-, hs⟩ | ⟨-, rfl⟩⟩ := hjob h
    · obtain ⟨h1, -, -, t, x, ht, hst, hx⟩ := ho j hs
      rw [hst] at hm
      cases hm
      exact ⟨t, x, h1.trans ht, rfl, hx⟩
    · exact hv.replying hi hm

theorem release_eq {s : Nat} {j : Job} (hv : v.Sound c) (hj : v.job s = some j)
    (hn : j.ticket = none ∨ ∃ m, j.stage = .replying m) : j.release v.registry = v.registry := by
  cases ht : j.ticket with
  | none => simp [Job.release, ht]
  | some t =>
      simp only [Job.release, ht]
      rcases InFlight.release_eq (r := v.registry) (t := t) with h | ⟨-, u, hu, he⟩
      · exact h
      · obtain ⟨m, hm⟩ := hn.resolve_left (by simp [ht])
        obtain ⟨hmem, huc, -⟩ := InFlight.lookup_some hu
        obtain ⟨i, k, hk, hku, hst⟩ := hv.entry hmem (huc.trans (hv.ticket hj ht).1)
        obtain ⟨-, rfl, -⟩ := hv.job_unique hj hk ht hku he.symm
        exact absurd hm (hst m)

theorem turned {s : Nat} {j : Job} {j' : Option Job} {x : Option Response} (hv : v.Sound c)
    (hj : v.job s = some j) (ht : Turn v.registry v.shut j r j' x) :
    ({ v with registry := r, job := Function.update v.job s j' } : View).Sound c := by
  have hgone (h : j.ticket = none ∨ ∃ m, j.stage = .replying m) :
      ({ v with job := Function.update v.job s none } : View).Sound c := by
    have hg := hv.releases hj (o := none) (by simp)
    rwa [hv.release_eq hj h] at hg
  cases ht with
  | moved => rw [← hj, Function.update_eq_self]; exact hv
  | abandoned | discarded => exact hv.releases hj (by simp)
  | concluded he hc => exact hv.concludes hj hc
  | settled he ht hx =>
      refine hv.releases hj fun i hi => ?_
      cases hi
      exact ⟨rfl, rfl, by simp [he], _, _, ht, rfl, hx⟩
  | finished he ht => exact hgone (.inl ht)
  | answered he | lost he => exact hgone (.inr ⟨_, he⟩)

theorem change {e : Deed} (hv : v.Sound c) (hc : Change c v e w) : w.Sound c := by
  cases hc with
  | idle hn => exact hv.congr rfl rfl hn rfl hv.shut
  | told => exact hv.told v.shut
  | shut hs => exact hv.congr rfl rfl (Nat.le_refl _) rfl fun _ => hs
  | broken => exact hv.told true
  | withdrawn hp => exact hv.withdrawn hp
  | seized hp => exact hv.seized hp
  | struck hp => exact hv.struck hp
  | emptied hp => exact hv.emptied hp
  | dismissed hp => exact hv.dismissed hp
  | ended | received | posted | unsent => exact hv.congr rfl rfl (Nat.le_refl _) rfl hv.shut
  | handled _ hw =>
      have hv := hv.congr (w := { v with pump := .taking }) rfl rfl (Nat.le_refl _) rfl hv.shut
      cases hw with
      | passed => exact hv
      | notified => exact hv.notified
      | refused => exact hv.congr rfl rfl (Nat.le_refl _) rfl hv.shut
      | begun hb => exact hv.begun hb
      | cancelled _ _ hc =>
          have h := hv.cancelled hc
          exact h.congr rfl rfl (Nat.le_refl _) rfl h.shut
      | missed _ _ hc => exact hv.missed hc
  | turned hj ht =>
      have h := hv.turned hj ht
      exact h.congr rfl rfl (Nat.le_refl _) rfl h.shut

end View.Sound

theorem Intake.grows {c : ConnectionId} {v w : View} {m : Message} (h : Intake c v m w) :
    v.registry.fired ⊆ w.registry.fired ∧ v.registry.claimed ⊆ w.registry.claimed := by
  cases h with
  | passed | notified | refused => exact ⟨fun _ hx => hx, fun _ hx => hx⟩
  | begun hb =>
      obtain ⟨-, -, rfl⟩ := InFlight.begin?_eq_some.1 hb
      exact ⟨fun _ hx => hx, fun _ hx => hx⟩
  | cancelled _ _ hc =>
      obtain ⟨t, -, -, rfl⟩ := InFlight.cancel_eq_true hc
      exact ⟨fun _ hx => InFlight.mem_fired_fire.2 (.inl hx), List.subset_append_left _ _⟩
  | missed _ _ hc =>
      rcases InFlight.cancel_eq_false hc with ⟨-, rfl⟩ | ⟨t, -, -, rfl⟩ <;>
        exact ⟨fun _ hx => hx, fun _ hx => hx⟩

theorem Change.fired {c : ConnectionId} {v w : View} {e : Deed} {x : TokenName}
    (hc : Change c v e w) (hx : x ∈ v.registry.fired) : x ∈ w.registry.fired := by
  cases hc with
  | idle | shut | withdrawn | seized | emptied | ended | received | posted | unsent => exact hx
  | told | broken | struck | dismissed => exact InFlight.mem_fired_fire.2 (.inl hx)
  | turned _ ht => exact ht.fired ▸ hx
  | handled _ hw => exact hw.grows.1 hx

/-- A connection that is open has been so before. -/
theorem Change.isOpen {c : ConnectionId} {v w : View} {e : Deed} (hc : Change c v e w)
    (hw : w.IsOpen c) : v.IsOpen c := by
  refine ⟨fun hf => hw.1 (hc.fired hf), ?_⟩
  obtain ⟨-, hp⟩ := hw
  cases hc with
  | withdrawn | seized | struck | emptied | dismissed => cases hp
  | handled _ hw => cases hw <;> exact hp
  | _ => exact hp

theorem Change.claimed {c : ConnectionId} {v w : View} {e : Deed} {x : ConnectionId × Nat}
    (hc : Change c v e w) (hx : x ∈ v.registry.claimed) : x ∈ w.registry.claimed := by
  cases hc with
  | seized => exact List.mem_append_left _ hx
  | handled _ hw => exact hw.grows.2 hx
  | turned _ ht =>
      cases ht with
      | moved | finished | answered | lost => exact hx
      | abandoned | discarded | settled => simpa using hx
      | concluded => exact Job.claimed_claim _ hx
  | _ => exact hx

end Parley.Dispatch
