import Parley.Proofs.Session.Agree

namespace Parley.Session

namespace Manager

variable {χ : Type} {m m' : Manager χ} {a b c : Handle} {id : SessionId} {now : Nat} {who : χ}

theorem only_of_shared (ha : Agree id m' m) (hs : m'.shared = m.shared) : m'.only id = m.only id := by
  refine only_eq.2 ⟨ha, hs ▸ List.filter_congr fun a _ => ?_⟩
  by_cases hi : a.id = id
  · rw [ha.isHeld hi]
  · simp [hi]

theorem only_of_store {s : Store} (h : s.only id = m.store.only id) :
    ({ m with store := s } : Manager χ).only id = m.only id :=
  only_of_shared ⟨h, rfl, rfl, rfl⟩ rfl

theorem only_register (h : c.id ≠ id) : (m.register c).only id = m.only id := by
  have hh : (m.register c).isHeld = m.isHeld := rfl
  simp only [only, hh]
  simp only [register, List.filter_append, List.filter_filter]
  congr 1
  rw [List.filter_cons_of_neg (by simp [h]), List.filter_nil, List.append_nil]
  apply List.filter_congr
  intro a _
  by_cases ha : a.id = id
  · simp [ha, Ne.symm h]
  · simp [ha]

theorem only_share (h : c.id ≠ id) : (m.share c).1.only id = m.only id := by
  rw [share]
  split
  · split
    · rfl
    · exact only_register h
  · exact only_register h

theorem only_resolve {id' : SessionId} (h : id' ≠ id) (now : Nat) :
    (m.resolve [id'] id' now).1.only id = m.only id := by
  have hr : ({ m with store := (m.store.retrieve id' now).1 } : Manager χ).only id = m.only id :=
    only_of_store (Store.only_retrieve h)
  rw [resolve_one]
  split
  · rfl
  · cases hf : (m.store.retrieve id' now).2 with
    | some a =>
        have ha : a.id ≠ id := (Store.of_retrieve (Prod.ext rfl hf)).1 ▸ h
        exact (only_share ha).trans hr
    | none =>
        dsimp only
        split
        · exact only_prune.trans hr
        · have hc : ((m.store.retrieve id' now).1.create id' now).1.only id =
              (m.store.retrieve id' now).1.only id := Store.only_create h
          exact (only_share h).trans ((only_of_store hc).trans (only_prune.trans hr))

theorem only_hold (h : a.id ≠ id) (who : χ) : (m.hold who a).only id = m.only id := by
  refine only_of_shared ⟨rfl, ?_, rfl, rfl⟩ rfl
  simp [hold, h]

theorem only_release_of_ne [DecidableEq χ] (h : ∀ x ∈ m.holds, x.1 = who → x.2.id ≠ id) :
    (m.release who).only id = m.only id := by
  refine only_of_shared ⟨rfl, ?_, rfl, rfl⟩ rfl
  simp only [release, List.filter_filter]
  apply List.filter_congr
  intro x hx
  by_cases hw : x.1 = who
  · simp [h x hx hw]
  · simp [hw]

theorem only_saveIfActive (h : a.id ≠ id) (now : Nat) :
    (m.saveIfActive a now).1.only id = m.only id := by
  rw [saveIfActive]
  split
  · rw [save]
    split
    · rfl
    · exact only_of_store (Store.only_save h)
  · rfl

@[simp] theorem holds_share (c : Handle) : (m.share c).1.holds = m.holds := by
  rw [share_eq]
  split
  · split <;> rfl
  · rfl

theorem nodup_register (h : (m.shared.map Handle.id).Nodup) (c : Handle) :
    ((m.register c).shared.map Handle.id).Nodup := by
  rw [register, List.map_append, List.nodup_append]
  refine ⟨h.sublist (List.filter_sublist.map _), List.nodup_singleton _, ?_⟩
  intro _ hb _ hc
  obtain ⟨b, hm, rfl⟩ := List.mem_map.1 hb
  rw [List.eq_of_mem_singleton hc]
  exact of_decide_eq_true (List.mem_filter.1 hm).2

theorem nodup_share (h : (m.shared.map Handle.id).Nodup) (c : Handle) :
    ((m.share c).1.shared.map Handle.id).Nodup := by
  rw [share_eq]
  split
  · split
    · exact nodup_register h c
    · exact h
  · exact nodup_register h c

@[simp] theorem holds_resolve (id : SessionId) (now : Nat) :
    (m.resolve [id] id now).1.holds = m.holds := by
  rw [resolve_one]
  split
  · rfl
  · cases (m.store.retrieve id now).2 with
    | some a => exact holds_share a
    | none =>
        dsimp only
        split
        · rfl
        · exact holds_share _

theorem nodup_resolve (h : (m.shared.map Handle.id).Nodup) (id : SessionId) (now : Nat) :
    ((m.resolve [id] id now).1.shared.map Handle.id).Nodup := by
  rw [resolve_one]
  split
  · exact h
  · have hp : ((m.shared.filter fun a => isHeld { m with store := (m.store.retrieve id now).1 } a).map
        Handle.id).Nodup := h.sublist (List.filter_sublist.map _)
    cases (m.store.retrieve id now).2 with
    | some a => exact nodup_share (m := { m with store := (m.store.retrieve id now).1 }) h a
    | none =>
        dsimp only
        split
        · exact hp
        · exact nodup_share (m := { m with store := _, shared := _ }) hp _

theorem saveIfActive_fst (a : Handle) (now : Nat) :
    ∃ store, (m.saveIfActive a now).1 = { m with store } := by
  rw [saveIfActive]
  split
  · rw [save]
    split
    · exact ⟨_, rfl⟩
    · exact ⟨_, rfl⟩
  · exact ⟨_, rfl⟩

end Manager

inductive Use {χ : Type} [DecidableEq χ] (who : χ) (id : SessionId) (m : Manager χ) : Manager χ → Prop
  | resolved (now : Nat) : Use who id m (m.resolve [id] id now).1
  | held {a : Handle} (ha : a.id = id) : Use who id m (m.hold who a)
  | edited {a : Handle} (ha : a.id = id) (f : Session → Session) : Use who id m (m.edit a f)
  | saved {a : Handle} (ha : a.id = id) (now : Nat) : Use who id m (m.saveIfActive a now).1
  | released : Use who id m (m.release who)

structure Manager.Owned {χ : Type} (own : χ → SessionId) (m : Manager χ) : Prop where
  shared : (m.shared.map Handle.id).Nodup
  holds : ∀ x ∈ m.holds, x.2.id = own x.1

namespace Use

variable {χ : Type} [DecidableEq χ] {own : χ → SessionId} {m m' : Manager χ} {who : χ}
  {id : SessionId} {x : χ × Handle}

theorem only (h : Use who (own who) m m') (hm : m.Owned own) (hi : own who ≠ id) :
    m'.only id = m.only id := by
  cases h with
  | resolved now => exact Manager.only_resolve hi now
  | held ha => exact Manager.only_hold (ha ▸ hi) who
  | edited ha f => exact Manager.only_of_store (Store.only_modify (ha ▸ hi))
  | saved ha now => exact Manager.only_saveIfActive (ha ▸ hi) now
  | released => exact Manager.only_release_of_ne fun x hx hw => by rw [hm.holds x hx, hw]; exact hi

theorem owned (h : Use who (own who) m m') (hm : m.Owned own) : m'.Owned own := by
  cases h with
  | resolved now => exact ⟨Manager.nodup_resolve hm.shared _ now, by simpa using hm.holds⟩
  | @held a ha =>
      refine ⟨hm.shared, fun x hx => ?_⟩
      rcases List.mem_append.1 hx with hx | hx
      · exact hm.holds x hx
      · rw [List.mem_singleton.1 hx]; exact ha
  | edited => exact ⟨hm.shared, hm.holds⟩
  | @saved a _ now =>
      obtain ⟨store, hs⟩ := m.saveIfActive_fst a now
      exact hs ▸ ⟨hm.shared, hm.holds⟩
  | released => exact ⟨hm.shared, fun x hx => hm.holds x (List.mem_filter.1 hx).1⟩

theorem holds (h : Use who id m m') (hx : x ∈ m.holds) (hw : x.1 ≠ who) : x ∈ m'.holds := by
  cases h with
  | resolved => simpa using hx
  | held => exact List.mem_append_left _ hx
  | edited => exact hx
  | @saved a _ now =>
      obtain ⟨store, hs⟩ := m.saveIfActive_fst a now
      exact hs ▸ hx
  | released => exact List.mem_filter.2 ⟨hx, by simpa using hw⟩

end Use

end Parley.Session
