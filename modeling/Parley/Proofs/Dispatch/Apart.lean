import Parley.Proofs.Dispatch.Balance

namespace Parley.Dispatch

/-- Two registries know the same of the connection `c`. -/
structure SameOn (c : ConnectionId) (r s : InFlight TokenName) : Prop where
  entries : ∀ {t}, t.connection = c → (t ∈ s.entries ↔ t ∈ r.entries)
  lookup : ∀ id, s.lookup c id = r.lookup c id
  issued : s.issued.count c = r.issued.count c
  claimed : ∀ n, (c, n) ∈ s.claimed ↔ (c, n) ∈ r.claimed
  fired : ∀ x, (c, x) ∈ s.fired ↔ (c, x) ∈ r.fired

structure Blank (c : ConnectionId) (r : InFlight TokenName) : Prop where
  entries : ∀ t ∈ r.entries, t.connection ≠ c
  claimed : ∀ n, (c, n) ∉ r.claimed
  fired : ∀ x, (c, x) ∈ r.fired → x = .connection

namespace SameOn

variable {c d : ConnectionId} {r s u : InFlight TokenName} {id : RequestId} {t : Ticket TokenName}

theorem refl (c : ConnectionId) (r : InFlight TokenName) : SameOn c r r :=
  ⟨fun _ => Iff.rfl, fun _ => rfl, rfl, fun _ => Iff.rfl, fun _ => Iff.rfl⟩

theorem trans (h : SameOn c r s) (h' : SameOn c s u) : SameOn c r u :=
  ⟨fun hc => (h'.entries hc).trans (h.entries hc), fun id => (h'.lookup id).trans (h.lookup id),
    h'.issued.trans h.issued, fun n => (h'.claimed n).trans (h.claimed n),
    fun x => (h'.fired x).trans (h.fired x)⟩

theorem blank (h : SameOn c r s) (hb : Blank c r) : Blank c s :=
  ⟨fun t ht hc => hb.entries t ((h.entries hc).1 ht) hc, fun n hn => hb.claimed n ((h.claimed n).1 hn),
    fun x hx => hb.fired x ((h.fired x).1 hx)⟩

theorem erase (hd : d ≠ c) : SameOn c r (r.erase d id) where
  entries hc := by simp [InFlight.mem_entries_erase, hc, Ne.symm hd]
  lookup id := InFlight.lookup_erase_of_ne fun h => hd h.1.symm
  issued := rfl
  claimed _ := Iff.rfl
  fired _ := Iff.rfl

theorem fire (x : TokenName) (hd : x.1 ≠ c) : SameOn c r (r.fire x) where
  entries _ := Iff.rfl
  lookup _ := rfl
  issued := rfl
  claimed _ := Iff.rfl
  fired y := by
    rw [InFlight.mem_fired_fire]
    exact ⟨fun h => h.resolve_right fun e => hd (by rw [← e]), .inl⟩

theorem claim (hd : t.connection ≠ c) : SameOn c r (r.claim t).1 := by
  rw [InFlight.claim_eq]
  split
  · exact refl c r
  · exact ⟨fun _ => Iff.rfl, fun _ => rfl, rfl, fun n => by simp [Ne.symm hd], fun _ => Iff.rfl⟩

theorem release (hd : t.connection ≠ c) : SameOn c r (r.release t).1 := by
  rcases InFlight.release_eq (r := r) (t := t) with h | ⟨h, -⟩ <;> rw [h]
  · exact refl c r
  · exact erase hd

theorem begun {token : Flow.Token TokenName} (hd : d ≠ c)
    (h : r.begin? d id token = some (s, t)) : SameOn c r s := by
  obtain ⟨hn, rfl, rfl⟩ := InFlight.begin?_eq_some.1 h
  refine ⟨fun hc => ?_, fun i => ?_, ?_, fun _ => Iff.rfl, fun _ => Iff.rfl⟩
  · simp only [List.mem_append, List.mem_singleton, or_iff_left_iff_imp]
    rintro rfl
    exact absurd hc hd
  · rw [InFlight.lookup_append hn ⟨rfl, rfl⟩, if_neg fun h => hd h.1.symm]
  · simp [hd]

theorem cancel {b : Bool} (hd : d ≠ c)
    (hn : ∀ t ∈ r.entries, t.connection = d → t.token.name.1 = d)
    (h : r.cancel d id = (s, b)) : SameOn c r s := by
  cases b with
  | false =>
      rcases InFlight.cancel_eq_false h with ⟨-, rfl⟩ | ⟨t, -, -, rfl⟩
      · exact refl c s
      · exact erase hd
  | true =>
      obtain ⟨t, hl, -, rfl⟩ := InFlight.cancel_eq_true h
      obtain ⟨hm, rfl, rfl⟩ := InFlight.lookup_some hl
      have hc : SameOn c (r.erase t.connection t.id)
          { r.erase t.connection t.id with claimed := r.claimed ++ [(t.connection, t.serial)] } :=
        ⟨fun _ => Iff.rfl, fun _ => rfl, rfl, fun n => by simp [Ne.symm hd], fun _ => Iff.rfl⟩
      exact ((erase hd).trans hc).trans (fire _ (by rwa [hn t hm rfl]))

theorem withdraw (hd : d ≠ c) : SameOn c r (r.withdraw d).1 where
  entries hc := by simp [InFlight.mem_entries_withdraw, hc, Ne.symm hd]
  lookup _ := InFlight.lookup_withdraw_of_ne (Ne.symm hd)
  issued := rfl
  claimed _ := Iff.rfl
  fired _ := Iff.rfl

theorem seize (hd : t.connection ≠ c) : SameOn c r (r.seize t) where
  entries _ := Iff.rfl
  lookup _ := rfl
  issued := rfl
  claimed n := by
    rw [InFlight.mem_claimed_seize]
    exact or_iff_left fun h => hd (congrArg Prod.fst h).symm
  fired _ := Iff.rfl

end SameOn

namespace View

variable {c d : ConnectionId} {v w : View} {a : Ledger} {r : InFlight TokenName}

/-- The entries of a connection have tokens of it. -/
theorem Sound.name (hv : v.Sound d) (t : Ticket TokenName) (ht : t ∈ v.registry.entries)
    (hc : t.connection = d) : t.token.name.1 = d := by
  obtain ⟨s, j, hj, hjt, -⟩ := hv.entry ht hc
  rw [(hv.ticket hj hjt).2.1]
  rfl

/-- What one connection does is of no concern to the others. -/
theorem Sound.sameOn {e : Deed} (hv : v.Sound d) (hd : d ≠ c) (hc : Change d v e w) :
    SameOn c v.registry w.registry := by
  have hfire (x : Scope) : SameOn c v.registry (v.registry.fire (d, x)) := .fire _ hd
  have hrel {s : Nat} {j : Job} (hj : v.job s = some j) :
      SameOn c v.registry (j.release v.registry) := by
    cases ht : j.ticket with
    | none => simpa only [Job.release, ht] using .refl c _
    | some t => simpa only [Job.release, ht] using .release ((hv.ticket hj ht).1 ▸ hd)
  cases hc with
  | idle | shut | emptied | ended | received | posted | unsent => exact .refl c _
  | told | broken | dismissed => exact hfire _
  | withdrawn => exact .withdraw hd
  | @seized t ts hp =>
      have hm : t ∈ v.purge.doomed := by
        rw [hp]
        exact List.mem_cons_self
      exact .seize ((hv.doomed hm).1.1 ▸ hd)
  | struck hp =>
      obtain ⟨-, -, s, -, htoken, -⟩ := (hv.firing hp).1
      exact .fire _ (htoken ▸ hd)
  | handled _ hw =>
      cases hw with
      | passed | notified | refused => exact .refl c _
      | begun hb => exact .begun hd hb
      | cancelled _ _ hc | missed _ _ hc => exact .cancel hd hv.name hc
  | @turned s j r o x hj ht =>
      cases ht with
      | moved | finished | answered | lost => exact .refl c _
      | abandoned | discarded | settled => exact hrel hj
      | concluded =>
          cases ht : j.ticket with
          | none => simpa only [Job.claim, ht] using .refl c _
          | some t => simpa only [Job.claim, ht] using .claim ((hv.ticket hj ht).1 ▸ hd)

structure Like (c : ConnectionId) (v w : View) : Prop where
  registry : SameOn c v.registry w.registry
  job : w.job = v.job
  numbered : w.numbered = v.numbered
  pump : w.pump = v.pump
  responses : w.responses = v.responses
  shut : w.shut = v.shut
  purge : w.purge = v.purge

theorem Like.refl (c : ConnectionId) (v : View) : Like c v v :=
  ⟨.refl c _, rfl, rfl, rfl, rfl, rfl, rfl⟩

theorem Like.isOpen (h : Like c v w) : w.IsOpen c ↔ v.IsOpen c := by
  rw [IsOpen, IsOpen, h.registry.fired, h.purge]

theorem Sound.like (hv : v.Sound c) (h : Like c v w) (hk : w.registry.Keyed) : w.Sound c := by
  obtain ⟨r, job, numbered, pump, responses, shut, purge⟩ := w
  obtain ⟨hr, rfl, rfl, rfl, rfl, rfl, rfl⟩ := h
  have hbegun {t : Ticket TokenName} (ht : v.Begun c t) :
      View.Begun c ⟨r, v.job, v.numbered, v.pump, v.responses, v.shut, v.purge⟩ t :=
    ht.mono (Nat.le_of_eq hr.issued.symm) (Nat.le_refl _) fun s j _ hj => ⟨j, hj, rfl⟩
  exact { hv with
    keyed := hk
    ticket := fun hj ht => by rw [hr.issued]; exact hv.ticket hj ht
    entry := fun ht hc => hv.entry ((hr.entries hc).1 ht) hc
    claimed := fun hn => by rw [hr.issued]; exact hv.claimed ((hr.claimed _).1 hn)
    fired := fun hs => by
      refine ⟨(hv.fired ((hr.fired _).1 hs)).1, fun j hj => ?_⟩
      obtain ⟨t, ht, hc⟩ := (hv.fired ((hr.fired _).1 hs)).2 j hj
      exact ⟨t, ht, (hr.claimed _).2 hc⟩
    handlers := fun hs => hv.handlers ((hr.fired _).1 hs)
    shut := fun hs => (hr.fired _).2 (hv.shut hs)
    entered := fun hj ht he hm hn =>
      hv.entered hj ht he ((hr.entries (hv.ticket hj ht).1).1 hm) ((hr.claimed _).1 hn)
    unresolved := fun hj ht he hn =>
      (hv.unresolved hj ht he fun h => hn ((hr.claimed _).2 h)).imp_left
        (hr.entries (hv.ticket hj ht).1).2
    concluded := fun hj ht he => (hr.claimed _).2 (hv.concluded hj ht he)
    doomed := fun ht => ⟨hbegun (hv.doomed ht).1, fun u hu huc =>
      (hv.doomed ht).2 u ((hr.entries huc).1 hu) huc⟩
    firing := fun hp => ⟨hbegun (hv.firing hp).1, (hr.claimed _).2 (hv.firing hp).2⟩ }

theorem Balanced.like (hb : v.Balanced c a) (h : Like c v w) : w.Balanced c a := by
  obtain ⟨r, job, numbered, pump, responses, shut, purge⟩ := w
  obtain ⟨hr, rfl, rfl, rfl, rfl, rfl, rfl⟩ := h
  refine ⟨hb.known.congr (Nat.le_refl _) rfl rfl, hb.due, hb.answers, hb.nodup,
    fun hn hs hj => ?_, fun hn hs => ?_⟩
  · obtain ⟨he, t, ht, hc⟩ := hb.settled hn hs hj
    exact ⟨he, t, ht, (hr.claimed _).2 hc⟩
  · obtain ⟨s, j, t, ho, hj, ht, hc⟩ := hb.unsettled hn hs
    exact ⟨s, j, t, ho, hj, ht, fun he h => hc he ((hr.claimed _).1 h)⟩

end View

end Parley.Dispatch
