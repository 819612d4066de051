import Parley.Proofs.Dispatch.Change

namespace Parley.Dispatch

/-- The ticket is that of a call of the connection `c`, and no other call has the number of that. -/
def View.Begun (c : ConnectionId) (v : View) (t : Ticket TokenName) : Prop :=
  t.connection = c ∧ t.serial < v.registry.issued.count c ∧ ∃ s, s < v.numbered ∧
    t.token = Hub.callToken c s ∧ ∀ j, v.job s = some j → j.ticket = some t

structure View.Sound (c : ConnectionId) (v : View) : Prop where
  keyed : v.registry.Keyed
  numbered : ∀ {s j}, v.job s = some j → s < v.numbered
  token : ∀ {s j}, v.job s = some j → j.token = Hub.callToken c s
  ticket : ∀ {s j t}, v.job s = some j → j.ticket = some t →
    t.connection = c ∧ t.token = Hub.callToken c s ∧ t.serial < v.registry.issued.count c
  serial : ∀ {s s' j j' t t'}, v.job s = some j → v.job s' = some j' → j.ticket = some t →
    j'.ticket = some t' → t.serial = t'.serial → s = s'
  entry : ∀ {t}, t ∈ v.registry.entries → t.connection = c →
    ∃ s j, v.job s = some j ∧ j.ticket = some t ∧ ∀ m, j.stage ≠ .replying m
  claimed : ∀ {n}, (c, n) ∈ v.registry.claimed → n < v.registry.issued.count c
  fired : ∀ {s}, (c, .call s) ∈ v.registry.fired → s < v.numbered ∧
    ∀ j, v.job s = some j → ∃ t, j.ticket = some t ∧ (c, t.serial) ∈ v.registry.claimed
  handlers : (c, .handlers) ∈ v.registry.fired → v.purge = .cleared
  shut : v.shut = true → (c, .connection) ∈ v.registry.fired
  entered : ∀ {s j t}, v.job s = some j → j.ticket = some t → j.stage = .executing →
    t ∈ v.registry.entries → (c, t.serial) ∉ v.registry.claimed
  unresolved : ∀ {s j t}, v.job s = some j → j.ticket = some t → j.stage = .executing →
    (c, t.serial) ∉ v.registry.claimed → t ∈ v.registry.entries ∨ t ∈ v.purge.doomed
  concluded : ∀ {s j t}, v.job s = some j → j.ticket = some t → j.stage ≠ .executing →
    (c, t.serial) ∈ v.registry.claimed
  replying : ∀ {s j m}, v.job s = some j → j.stage = .replying m →
    ∃ t x, j.ticket = some t ∧ m = .response x ∧ x.id = t.id
  doomed : ∀ {t}, t ∈ v.purge.doomed → v.Begun c t ∧
    ∀ u ∈ v.registry.entries, u.connection = c → u.serial ≠ t.serial
  firing : ∀ {t ts}, v.purge = .firing t ts → v.Begun c t ∧ (c, t.serial) ∈ v.registry.claimed

theorem update_eq_some {α β : Type} [DecidableEq α] {f : α → Option β} {n s : α} {o : Option β}
    {j : β} :
    Function.update f n o s = some j ↔ (s = n ∧ o = some j) ∨ (s ≠ n ∧ f s = some j) := by
  by_cases h : s = n
  · subst h; simp
  · simp [h]

theorem View.Begun.mono {c : ConnectionId} {v w : View} {t : Ticket TokenName} (h : v.Begun c t)
    (hi : v.registry.issued.count c ≤ w.registry.issued.count c) (hn : v.numbered ≤ w.numbered)
    (hj : ∀ s j, s < v.numbered → w.job s = some j →
      ∃ i, v.job s = some i ∧ j.ticket = i.ticket) : w.Begun c t := by
  obtain ⟨hc, hs, s, hlt, ht, hjob⟩ := h
  refine ⟨hc, Nat.lt_of_lt_of_le hs hi, s, Nat.lt_of_lt_of_le hlt hn, ht, fun j h => ?_⟩
  obtain ⟨i, hi, he⟩ := hj s j hlt h
  exact he.trans (hjob i hi)

namespace View.Sound

variable {c : ConnectionId} {v w : View} {n : Nat} {r : InFlight TokenName}

theorem job_unique (hv : v.Sound c) {s s' : Nat} {j j' : Job} {t t' : Ticket TokenName}
    (hj : v.job s = some j) (hj' : v.job s' = some j') (ht : j.ticket = some t)
    (ht' : j'.ticket = some t') (he : t.serial = t'.serial) : s = s' ∧ j = j' ∧ t = t' := by
  obtain rfl := hv.serial hj hj' ht ht' he
  obtain rfl : j = j' := Option.some.inj (hj.symm.trans hj')
  exact ⟨rfl, rfl, Option.some.inj (ht.symm.trans ht')⟩

theorem congr (hv : v.Sound c) (hr : w.registry = v.registry) (hj : w.job = v.job)
    (hn : v.numbered ≤ w.numbered) (hp : w.purge = v.purge)
    (hs : w.shut = true → (c, .connection) ∈ v.registry.fired) : w.Sound c := by
  obtain ⟨r, job, numbered, pump, responses, shut, purge⟩ := w
  obtain rfl : r = v.registry := hr
  obtain rfl : job = v.job := hj
  obtain rfl : purge = v.purge := hp
  have hb {t : Ticket TokenName} (h : v.Begun c t) :
      View.Begun c ⟨v.registry, v.job, numbered, pump, responses, shut, v.purge⟩ t :=
    h.mono (Nat.le_refl _) hn fun s j _ hj => ⟨j, hj, rfl⟩
  exact { hv with
    numbered := fun h => Nat.lt_of_lt_of_le (hv.numbered h) hn
    fired := fun h => ⟨Nat.lt_of_lt_of_le (hv.fired h).1 hn, (hv.fired h).2⟩
    shut := hs
    doomed := fun h => ⟨hb (hv.doomed h).1, (hv.doomed h).2⟩
    firing := fun h => ⟨hb (hv.firing h).1, (hv.firing h).2⟩ }

theorem told (hv : v.Sound c) (b : Bool) :
    ({ v with registry := v.registry.fire (c, .connection), shut := b } : View).Sound c := by
  exact { hv with
    fired := fun {s} h => hv.fired (by simpa using h)
    handlers := fun h => hv.handlers (by simpa using h)
    shut := fun _ => by simp }

theorem begun_of_entry {t : Ticket TokenName} (hv : v.Sound c) (ht : t ∈ v.registry.entries)
    (hc : t.connection = c) : v.Begun c t := by
  obtain ⟨s, j, hj, hjt, -⟩ := hv.entry ht hc
  obtain ⟨-, htoken, hserial⟩ := hv.ticket hj hjt
  refine ⟨hc, hserial, s, hv.numbered hj, htoken, fun i hi => ?_⟩
  rw [← Option.some.inj (hj.symm.trans hi)]
  exact hjt

theorem withdrawn (hv : v.Sound c) (hp : v.purge = .none) : ({ v with
    registry := (v.registry.withdraw c).1
    purge := .seizing (v.registry.ofConnection c) } : View).Sound c :=
  { hv with
    keyed := hv.keyed.withdraw
    entry := fun ht hc => absurd hc (InFlight.mem_entries_withdraw.1 ht).2
    handlers := fun h => by cases hp.symm.trans (hv.handlers h)
    entered := fun hj hjt _ ht =>
      absurd (hv.ticket hj hjt).1 (InFlight.mem_entries_withdraw.1 ht).2
    unresolved := fun {s j t} hj hjt he hc => by
      rcases hv.unresolved hj hjt he hc with ht | ht
      · exact .inr (InFlight.mem_ofConnection.2 ⟨ht, (hv.ticket hj hjt).1⟩)
      · rw [hp] at ht
        cases ht
    doomed := fun ht => by
      obtain ⟨ht, hc⟩ := InFlight.mem_ofConnection.1 ht
      exact ⟨hv.begun_of_entry ht hc, fun u hu huc =>
        absurd huc (InFlight.mem_entries_withdraw.1 hu).2⟩
    firing := nofun }

/-- Nobody claims a request that has been seized, whether somebody has done so before or not. -/
theorem seized {t : Ticket TokenName} {ts : List (Ticket TokenName)} (hv : v.Sound c)
    (hp : v.purge = .seizing (t :: ts)) : ({ v with
      registry := v.registry.seize t, purge := .firing t ts } : View).Sound c := by
  have hmem {u : Ticket TokenName} (hu : u ∈ t :: ts) : u ∈ v.purge.doomed := by
    rw [hp]
    exact hu
  obtain ⟨ht, hapart⟩ := hv.doomed (hmem List.mem_cons_self)
  have hclaimed {n : Nat} : (c, n) ∈ (v.registry.seize t).claimed ↔
      (c, n) ∈ v.registry.claimed ∨ n = t.serial := by
    simp [InFlight.mem_claimed_seize, ht.1]
  exact { hv with
    claimed := fun hn => by
      rcases hclaimed.1 hn with hn | rfl
      · exact hv.claimed hn
      · exact ht.2.1
    fired := fun {s} hs => by
      obtain ⟨hlt, hold⟩ := hv.fired hs
      refine ⟨hlt, fun j hj => ?_⟩
      obtain ⟨u, hu, huc⟩ := hold j hj
      exact ⟨u, hu, hclaimed.2 (.inl huc)⟩
    handlers := fun h => by cases hp.symm.trans (hv.handlers h)
    entered := fun {s j u} hj hu he hm hc => by
      rcases hclaimed.1 hc with hc | hs
      · exact hv.entered hj hu he hm hc
      · exact hapart u hm (hv.ticket hj hu).1 hs
    unresolved := fun {s j u} hj hu he hc => by
      rcases hv.unresolved hj hu he fun h => hc (hclaimed.2 (.inl h)) with hm | hm
      · exact .inl hm
      · rw [hp] at hm
        rcases List.mem_cons.1 hm with rfl | hm
        · exact absurd (hclaimed.2 (.inr rfl)) hc
        · exact .inr hm
    concluded := fun hj hu he => hclaimed.2 (.inl (hv.concluded hj hu he))
    doomed := fun hu => hv.doomed (hmem (List.mem_cons_of_mem _ hu))
    firing := fun he => by
      cases he
      exact ⟨ht, hclaimed.2 (.inr rfl)⟩ }

theorem struck {t : Ticket TokenName} {ts : List (Ticket TokenName)} (hv : v.Sound c)
    (hp : v.purge = .firing t ts) : ({ v with
      registry := v.registry.fire t.token.name, purge := .seizing ts } : View).Sound c := by
  obtain ⟨⟨-, -, s₀, hs₀, htoken, hjob⟩, hclaimed⟩ := hv.firing hp
  have hname : t.token.name = (c, .call s₀) := by
    rw [htoken]
    rfl
  have hdoomed : v.purge.doomed = ts := congrArg Purge.doomed hp
  exact { hv with
    fired := fun {s} hs => by
      rcases InFlight.mem_fired_fire.1 hs with hs | hs
      · exact hv.fired hs
      · obtain rfl : s = s₀ := by simpa [hname] using hs
        exact ⟨hs₀, fun j hj => ⟨t, hjob j hj, hclaimed⟩⟩
    handlers := fun hs => by
      rcases InFlight.mem_fired_fire.1 hs with hs | hs
      · cases hp.symm.trans (hv.handlers hs)
      · simp [hname] at hs
    shut := fun hs => InFlight.mem_fired_fire.2 (.inl (hv.shut hs))
    unresolved := fun hj hu he hc => by
      have h := hv.unresolved hj hu he hc
      rwa [hdoomed] at h
    doomed := fun hu => hv.doomed (hdoomed ▸ hu)
    firing := nofun }

theorem emptied (hv : v.Sound c) (hp : v.purge = .seizing []) :
    ({ v with purge := .cleared } : View).Sound c :=
  { hv with
    handlers := fun _ => rfl
    unresolved := fun hj hu he hc => by
      have h := hv.unresolved hj hu he hc
      rwa [hp] at h
    doomed := nofun
    firing := nofun }

theorem dismissed (hv : v.Sound c) (hp : v.purge = .cleared) : ({ v with
    registry := v.registry.fire (c, .handlers), purge := .cleared } : View).Sound c :=
  { hv with
    fired := fun {s} h => hv.fired (by simpa using h)
    handlers := fun _ => rfl
    shut := fun h => InFlight.mem_fired_fire.2 (.inl (hv.shut h))
    unresolved := fun hj hu he hc => by
      have h := hv.unresolved hj hu he hc
      rwa [hp] at h
    doomed := nofun
    firing := nofun }

end View.Sound

end Parley.Dispatch
