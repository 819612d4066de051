import Parley.Proofs.Session.OnlyStore

namespace Parley.Session

namespace Manager

variable {χ : Type} {m n m' n' : Manager χ} {a b c : Handle} {id : SessionId} {now : Nat} {who : χ}

def only (m : Manager χ) (id : SessionId) : Manager χ where
  store := m.store.only id
  shared := m.shared.filter fun a => a.id = id && m.isHeld a
  holds := m.holds.filter fun h => h.2.id = id
  failing := m.failing
  refusal := m.refusal

structure Agree (id : SessionId) (m n : Manager χ) : Prop where
  store : m.store.only id = n.store.only id
  holds : m.holds.filter (fun h => h.2.id = id) = n.holds.filter fun h => h.2.id = id
  failing : m.failing = n.failing
  refusal : m.refusal = n.refusal

theorem Agree.has (h : Agree id m n) (ha : a.id = id) : m.Has a ↔ n.Has a := by
  have hstored (k : Manager χ) : a ∈ k.store.stored ↔ a ∈ (k.store.only id).stored := by
    simp [Store.only, ha]
  have hholds (k : Manager χ) (who : χ) :
      (who, a) ∈ k.holds ↔ (who, a) ∈ k.holds.filter fun h => h.2.id = id := by
    simp [ha]
  simp only [Has, hstored m, hstored n, h.store, hholds m, hholds n, h.holds]

theorem Agree.isHeld (h : Agree id m n) (ha : a.id = id) : m.isHeld a = n.isHeld a := by
  rw [Bool.eq_iff_iff, isHeld_iff, isHeld_iff]
  exact h.has ha

theorem only_eq : m.only id = n.only id ↔ Agree id m n ∧
    m.shared.filter (fun a => a.id = id && m.isHeld a) =
      n.shared.filter fun a => a.id = id && n.isHeld a := by
  rw [only, only, Manager.mk.injEq]
  exact ⟨fun ⟨h1, h2, h3, h4, h5⟩ => ⟨⟨h1, h3, h4, h5⟩, h2⟩,
    fun ⟨⟨h1, h3, h4, h5⟩, h2⟩ => ⟨h1, h2, h3, h4, h5⟩⟩

/-- Sessions may be let go of, and that is all. -/
theorem only_of_agree (h : m.only id = n.only id) (hm : m'.shared = m.shared)
    (hn : n'.shared = n.shared) (ha : Agree id m' n')
    (hm' : ∀ a, a.id = id → m'.Has a → m.Has a) (hn' : ∀ a, a.id = id → n'.Has a → n.Has a) :
    m'.only id = n'.only id := by
  have hfilter (k k' : Manager χ) (he : k'.shared = k.shared)
      (hk : ∀ a, a.id = id → k'.Has a → k.Has a) :
      k'.shared.filter (fun a => a.id = id && k'.isHeld a) =
        (k.shared.filter fun a => a.id = id && k.isHeld a).filter k'.isHeld := by
    rw [he, List.filter_filter]
    apply List.filter_congr
    intro a _
    by_cases ha : a.id = id
    · cases hk' : k'.isHeld a with
      | false => simp
      | true => simp [ha, isHeld_iff.2 (hk a ha (isHeld_iff.1 hk'))]
    · simp [ha]
  refine only_eq.2 ⟨ha, ?_⟩
  rw [hfilter m m' hm hm', hfilter n n' hn hn', (only_eq.1 h).2]
  apply List.filter_congr
  intro a hx
  have hx := (List.mem_filter.1 hx).2
  rw [Bool.and_eq_true, decide_eq_true_eq] at hx
  exact ha.isHeld hx.1

theorem only_release [DecidableEq χ] (h : m.only id = n.only id) (who : χ) :
    (m.release who).only id = (n.release who).only id := by
  have hless (k : Manager χ) (a : Handle) (hk : (k.release who).Has a) : k.Has a :=
    hk.imp_right fun ⟨w, hw⟩ => ⟨w, (List.mem_filter.1 hw).1⟩
  have ha := (only_eq.1 h).1
  refine only_of_agree h rfl rfl ⟨ha.store, ?_, ha.failing, ha.refusal⟩ (fun a _ => hless m a)
    fun a _ => hless n a
  have hf (k : Manager χ) : (k.release who).holds.filter (fun h => h.2.id = id) =
      (k.holds.filter fun h => h.2.id = id).filter fun h => h.1 ≠ who := by
    simp only [release, List.filter_filter, Bool.and_comm]
  rw [hf, hf, ha.holds]

theorem only_edit (h : m.only id = n.only id) (a : Handle) (f : Session → Session) :
    (m.edit a f).only id = (n.edit a f).only id := by
  have ha := (only_eq.1 h).1
  refine only_of_agree h rfl rfl ⟨?_, ha.holds, ha.failing, ha.refusal⟩ (fun _ _ h => h) fun _ _ h => h
  rw [edit, edit, ← Store.modify_only, ha.store, Store.modify_only]

theorem only_prune : m.prune.only id = m.only id := by
  have hh : m.prune.isHeld = m.isHeld := rfl
  simp only [only, hh]
  simp only [prune, List.filter_filter]
  congr 1
  apply List.filter_congr
  intro a _
  cases m.isHeld a <;> simp

/-- The same session of an id has been given out, as far as somebody holds it. -/
theorem filter_shared (hu : (m.shared.map Handle.id).Nodup) (id : SessionId) :
    (m.shared.filter fun a => a.id = id && m.isHeld a) =
      ((m.shared.find? fun a => a.id = id).filter m.isHeld).toList := by
  generalize m.isHeld = held
  generalize m.shared = as at hu
  induction as with
  | nil => rfl
  | cons a as ih =>
      obtain ⟨ha, hu⟩ := List.nodup_cons.1 hu
      by_cases hi : a.id = id
      · have hn : (as.filter fun a => a.id = id && held a) = [] := by
          rw [List.filter_eq_nil_iff]
          intro b hb
          have hne : b.id ≠ id := fun he => ha (List.mem_map.2 ⟨b, hb, he.trans hi.symm⟩)
          simp [hne]
        rw [List.find?_cons_of_pos (by simp [hi])]
        cases hh : held a with
        | true => rw [List.filter_cons_of_pos (by simp [hi, hh]), hn]; simp [Option.filter, hh]
        | false => rw [List.filter_cons_of_neg (by simp [hh]), hn]; simp [Option.filter, hh]
      · rw [List.find?_cons_of_neg (by simp [hi]), List.filter_cons_of_neg (by simp [hi]), ih hu]

theorem share_eq (c : Handle) : m.share c =
    match (m.shared.find? fun a => a.id = c.id).filter m.isHeld with
    | some a => if m.store.isExpired a then (m.register c, c) else (m, a)
    | none => (m.register c, c) := by
  rw [share]
  cases hf : m.shared.find? fun a => a.id = c.id with
  | none => rfl
  | some a =>
      cases hh : m.isHeld a <;> cases he : m.store.isExpired a <;> simp [Option.filter, hh, he]

theorem agree_hold (h : Agree id m n) (who : χ) (a : Handle) :
    Agree id (m.hold who a) (n.hold who a) :=
  ⟨h.store, by simp only [hold, List.filter_append, h.holds], h.failing, h.refusal⟩

theorem only_register_hold (h : Agree id m n) (hc : c.id = id) (who : χ) :
    ((m.register c).hold who c).only id = ((n.register c).hold who c).only id := by
  have ha : Agree id (m.register c) (n.register c) := ⟨h.store, h.holds, h.failing, h.refusal⟩
  have hshared (k : Manager χ) : ((k.register c).hold who c).shared.filter (fun a =>
      a.id = id && ((k.register c).hold who c).isHeld a) = [c] := by
    have hheld : ((k.register c).hold who c).isHeld c = true :=
      isHeld_iff.2 (.inr ⟨who, by simp [hold]⟩)
    have hnil : (k.shared.filter fun b => b.id ≠ c.id).filter (fun a =>
        a.id = id && ((k.register c).hold who c).isHeld a) = [] := by
      rw [List.filter_eq_nil_iff]
      intro b hb
      have hne : b.id ≠ c.id := of_decide_eq_true (List.mem_filter.1 hb).2
      simp [show b.id ≠ id from fun he => hne (he.trans hc.symm)]
    change ((k.shared.filter fun b => b.id ≠ c.id) ++ [c]).filter _ = _
    rw [List.filter_append, hnil]
    simp [hc, hheld]
  exact only_eq.2 ⟨agree_hold ha who c, (hshared m).trans (hshared n).symm⟩

/-- The session of an id has been resolved alike. A session that nobody holds yet does not count, so
what there is of the id is told as of when it is held. -/
inductive Resolved (id : SessionId) :
    Manager χ × Except SessionError Handle → Manager χ × Except SessionError Handle → Prop
  | failed {m n : Manager χ} {e : SessionError} (h : m.only id = n.only id) :
      Resolved id (m, .error e) (n, .error e)
  | found {m n : Manager χ} {a : Handle} (ha : a.id = id)
      (h : ∀ who : χ, (m.hold who a).only id = (n.hold who a).only id) :
      Resolved id (m, .ok a) (n, .ok a)

theorem share_resolved (h : m.only id = n.only id) (hm : (m.shared.map Handle.id).Nodup)
    (hn : (n.shared.map Handle.id).Nodup) (hc : c.id = id) :
    Resolved id ((m.share c).1, .ok (m.share c).2) ((n.share c).1, .ok (n.share c).2) := by
  obtain ⟨ha, hs⟩ := only_eq.1 h
  rw [filter_shared hm, filter_shared hn] at hs
  have hfound : (m.shared.find? fun a => a.id = id).filter m.isHeld =
      (n.shared.find? fun a => a.id = id).filter n.isHeld := by
    simpa using congrArg List.head? hs
  rw [share_eq, share_eq, hc, ← hfound]
  cases hf : (m.shared.find? fun a => a.id = id).filter m.isHeld with
  | none => exact .found hc (only_register_hold ha hc)
  | some a =>
      have hid : a.id = id := by
        have hx := (Option.filter_eq_some_iff.1 hf).1
        simpa using List.find?_some hx
      have hexp : m.store.isExpired a = n.store.isExpired a := by
        rw [← Store.isExpired_only hid, ha.store, Store.isExpired_only hid]
      simp only [hexp]
      split
      · exact .found hc (only_register_hold ha hc)
      · refine .found hid fun who => only_eq.2 ⟨agree_hold ha who a, ?_⟩
        have hkept (k : Manager χ) (hk : (k.shared.map Handle.id).Nodup)
            (hk' : (k.shared.find? fun a => a.id = id).filter k.isHeld = some a) :
            (k.hold who a).shared.filter (fun b => b.id = id && (k.hold who a).isHeld b) = [a] := by
          rw [filter_shared (m := k.hold who a) hk]
          have hheld : (k.hold who a).isHeld a = true := isHeld_iff.2 (.inr ⟨who, by simp [hold]⟩)
          have hx : (k.hold who a).shared.find? (fun a => a.id = id) = some a :=
            (Option.filter_eq_some_iff.1 hk').1
          rw [hx]
          simp [Option.filter, hheld]
        exact (hkept m hm hf).trans (hkept n hn (hfound ▸ hf)).symm

theorem only_store {s t : Store} (h : m.only id = n.only id) (hst : s.only id = t.only id)
    (hs : s.stored ⊆ m.store.stored) (ht : t.stored ⊆ n.store.stored) :
    ({ m with store := s } : Manager χ).only id = ({ n with store := t } : Manager χ).only id := by
  have ha := (only_eq.1 h).1
  exact only_of_agree h rfl rfl ⟨hst, ha.holds, ha.failing, ha.refusal⟩
    (fun _ _ hx => hx.imp_left fun hx => hs hx) fun _ _ hx => hx.imp_left fun hx => ht hx

theorem resolve_one (m : Manager χ) (id : SessionId) (now : Nat) : m.resolve [id] id now =
    if .retrieve ∈ m.failing then (m, .error (m.refusal .retrieve))
    else
      let k : Manager χ := { m with store := (m.store.retrieve id now).1 }
      match (m.store.retrieve id now).2 with
      | some a => ((k.share a).1, .ok (k.share a).2)
      | none =>
        if .create ∈ m.failing then (k.prune, .error (m.refusal .create))
        else
          let c := k.store.create id now
          let k : Manager χ := { k.prune with store := c.1 }
          ((k.share c.2).1, .ok (k.share c.2).2) := by
  rw [resolve]
  simp only [List.isEmpty_cons, Bool.not_false, and_true, retrieveFirst]
  split
  · rfl
  · rcases m.store.retrieve id now with ⟨s, _ | a⟩ <;> rfl

/-- The session of an id is resolved from what there is of the id. -/
theorem resolve_resolved (h : m.only id = n.only id) (hm : (m.shared.map Handle.id).Nodup)
    (hn : (n.shared.map Handle.id).Nodup) (now : Nat) :
    Resolved id (m.resolve [id] id now) (n.resolve [id] id now) := by
  obtain ⟨ha, -⟩ := only_eq.1 h
  have hfail (o : Operation) : (o ∈ m.failing) = (o ∈ n.failing) := by rw [ha.failing]
  rw [resolve_one, resolve_one]
  simp only [hfail]
  split
  · rw [ha.refusal]
    exact .failed h
  · obtain ⟨hs, hr⟩ := Store.retrieve_congr ha.store now
    have hk : ({ m with store := (m.store.retrieve id now).1 } : Manager χ).only id =
        ({ n with store := (n.store.retrieve id now).1 } : Manager χ).only id :=
      only_store h hs (Store.Fades.retrieve id now).stored.subset
        (Store.Fades.retrieve id now).stored.subset
    rw [← hr]
    cases hf : (m.store.retrieve id now).2 with
    | some a => exact share_resolved hk hm hn (Store.of_retrieve (Prod.ext rfl hf)).1
    | none =>
        have hp : ({ m with store := (m.store.retrieve id now).1 } : Manager χ).prune.only id =
            ({ n with store := (n.store.retrieve id now).1 } : Manager χ).prune.only id := by
          rw [only_prune, only_prune, hk]
        dsimp only
        split
        · rw [congrFun ha.refusal .create]
          exact .failed hp
        · have hc := Store.create_congr hs now
          have hkeep {k : Manager χ} (hk : (k.shared.map Handle.id).Nodup) :
              ((k.shared.filter k.isHeld).map Handle.id).Nodup :=
            hk.sublist (List.filter_sublist.map _)
          rw [← hc.2]
          exact share_resolved (only_store hp hc.1 (List.Subset.refl _) (List.Subset.refl _))
            (hkeep hm) (hkeep hn) rfl

theorem id_of_resolve (hm : (m.shared.map Handle.id).Nodup)
    (h : (m.resolve [id] id now).2 = .ok a) : a.id = id := by
  have hr := resolve_resolved (rfl : m.only id = m.only id) hm hm now
  generalize m.resolve [id] id now = x at h hr
  cases hr with
  | failed => cases h
  | found ha => cases h; exact ha

theorem saveIfActive_congr (h : m.only id = n.only id) (ha : a.id = id) (hm : m.Has a)
    (hn : n.Has a)
    (now : Nat) : (m.saveIfActive a now).1.only id = (n.saveIfActive a now).1.only id ∧
      (m.saveIfActive a now).2 = (n.saveIfActive a now).2 := by
  have hag := (only_eq.1 h).1
  have hget : m.store.get? a = n.store.get? a := by
    rw [← Store.get?_only ha, hag.store, Store.get?_only ha]
  have hfail : (Operation.save ∈ m.failing) = (Operation.save ∈ n.failing) := by rw [hag.failing]
  rw [saveIfActive, saveIfActive]
  simp only [hget]
  split
  · rw [save, save]
    simp only [hfail]
    split
    · exact ⟨h, congrArg Except.error (congrFun hag.refusal .save)⟩
    · obtain ⟨hs, hr⟩ := Store.save_congr hag.store ha now
      have hless {k : Manager χ} (hk : k.Has a) (b : Handle)
          (hb : ({ k with store := (k.store.save a now).1 } : Manager χ).Has b) : k.Has b := by
        rcases hb with hb | hb
        · rcases Store.mem_stored_save hb with hb | rfl
          · exact .inl hb
          · exact hk
        · exact .inr hb
      exact ⟨only_of_agree h rfl rfl ⟨hs, hag.holds, hag.failing, hag.refusal⟩ (fun b _ => hless hm b)
        fun b _ => hless hn b, hr⟩
  · exact ⟨h, rfl⟩

end Manager

end Parley.Session
