import Parley.Proofs.Session.Store
import Parley.Session.Manager

namespace Parley.Session.Manager

variable {χ : Type} {m m' : Manager χ} {a b c : Handle} {who : χ} {ids : List SessionId}
  {id spare : SessionId} {now : Nat}

/-- Somebody holds the session, or it is stored. -/
def Has (m : Manager χ) (a : Handle) : Prop := a ∈ m.store.stored ∨ ∃ who, (who, a) ∈ m.holds

theorem isHeld_iff : m.isHeld a = true ↔ m.Has a := by
  simp only [isHeld, Bool.or_eq_true, decide_eq_true_eq, List.any_eq_true, Has]
  refine or_congr_right ⟨?_, ?_⟩
  · rintro ⟨⟨who, b⟩, hb, rfl⟩
    exact ⟨who, hb⟩
  · rintro ⟨who, hw⟩
    exact ⟨_, hw, rfl⟩

structure Sound (m : Manager χ) : Prop where
  numbered : m.store.Numbered
  known : ∀ {a}, m.Has a → a ∈ m.store.handles
  stored : (m.store.stored.map Handle.id).Nodup
  shared : (m.shared.map Handle.id).Nodup
  usable : ∀ {a}, m.Has a → m.store.isExpired a = false → a ∈ m.shared

theorem eq_of_id {as : List Handle} (h : (as.map Handle.id).Nodup) (ha : a ∈ as) (hb : b ∈ as)
    (hi : a.id = b.id) : a = b :=
  List.inj_on_of_nodup_map h ha hb hi

theorem Sound.unique (h : m.Sound) (ha : m.Has a) (hb : m.Has b) (hi : a.id = b.id)
    (hea : m.store.isExpired a = false) (heb : m.store.isExpired b = false) : a = b :=
  eq_of_id h.shared (h.usable ha hea) (h.usable hb heb) hi

theorem Sound.find? (h : m.Sound) (ha : a ∈ m.shared) :
    (m.shared.find? fun b => b.id = a.id) = some a := by
  cases hf : m.shared.find? fun b => b.id = a.id with
  | none => simpa using List.find?_eq_none.1 hf a ha
  | some b =>
      have hb : b.id = a.id := by simpa using List.find?_some hf
      rw [eq_of_id h.shared (List.mem_of_find?_eq_some hf) ha hb]

theorem sound_empty (store : Store) (hs : store.sessions = []) (ht : store.stored = []) :
    ({ store } : Manager χ).Sound where
  numbered := by simp [Store.Numbered, Store.handles, hs]
  known := by rintro a (ha | ⟨_, ha⟩) <;> simp_all
  stored := by simp [ht]
  shared := List.nodup_nil
  usable := by rintro a (ha | ⟨_, ha⟩) <;> simp_all

theorem Sound.fewer (h : m.Sound) (hf : m.store.Fades m'.store) (hs : m'.shared = m.shared)
    (hh : ∀ e ∈ m'.holds, e ∈ m.holds) : m'.Sound := by
  have has {a} (ha : m'.Has a) : m.Has a := by
    rcases ha with ha | ⟨who, hw⟩
    · exact .inl (hf.stored.subset ha)
    · exact .inr ⟨who, hh _ hw⟩
  refine ⟨?_, fun ha => ?_, ?_, hs ▸ h.shared, fun ha he => ?_⟩
  · exact h.numbered.of_handles hf.handles
  · rw [hf.handles]
    exact h.known (has ha)
  · exact h.stored.sublist (hf.stored.map _)
  · rw [hs]
    exact h.usable (has ha) (hf.expired he)

theorem Sound.fades {t : Store} (h : m.Sound) (hf : m.store.Fades t) :
    ({ m with store := t } : Manager χ).Sound :=
  h.fewer hf rfl fun _ he => he

theorem Sound.release [DecidableEq χ] (h : m.Sound) (who : χ) : (m.release who).Sound :=
  h.fewer (.refl _) rfl fun _ he => List.mem_of_mem_filter he

theorem Sound.prune (h : m.Sound) : m.prune.Sound where
  numbered := h.numbered
  known := h.known
  stored := h.stored
  shared := h.shared.sublist (List.filter_sublist.map _)
  usable := fun ha he => List.mem_filter.2 ⟨h.usable ha he, isHeld_iff.2 ha⟩

theorem Sound.hold (h : m.Sound) (who : χ) (ha : a ∈ m.shared) (hk : a ∈ m.store.handles) :
    (m.hold who a).Sound := by
  have has {b} (hb : (m.hold who a).Has b) : m.Has b ∨ b = a := by
    rcases hb with hb | ⟨w, hw⟩
    · exact .inl (.inl hb)
    · rcases List.mem_append.1 hw with hw | hw
      · exact .inl (.inr ⟨w, hw⟩)
      · exact .inr (Prod.mk.inj (List.mem_singleton.1 hw)).2
  refine ⟨h.numbered, fun hb => ?_, h.stored, h.shared, fun hb he => ?_⟩
  · rcases has hb with hb | rfl
    · exact h.known hb
    · exact hk
  · rcases has hb with hb | rfl
    · exact h.usable hb he
    · exact ha

def Vacant (m : Manager χ) (id : SessionId) : Prop :=
  ∀ a, m.Has a → a.id = id → m.store.isExpired a = true

theorem Sound.register (h : m.Sound) (hv : m.Vacant c.id) : (m.register c).Sound where
  numbered := h.numbered
  known := h.known
  stored := h.stored
  shared := by
    simp only [Manager.register, List.map_append, List.map_cons, List.map_nil]
    refine List.nodup_append.2
      ⟨h.shared.sublist (List.filter_sublist.map _), List.nodup_singleton _, ?_⟩
    rintro i hi j hj rfl
    obtain ⟨a, ha, rfl⟩ := List.mem_map.1 hi
    have hn : a.id ≠ c.id := by simpa using (List.mem_filter.1 ha).2
    exact hn (List.mem_singleton.1 hj)
  usable := by
    intro a ha he
    -- The entry that gives way is of no use to anybody.
    have hn : a.id ≠ c.id := fun hi => by
      have := (hv a ha hi).symm.trans he
      cases this
    exact List.mem_append_left _ (List.mem_filter.2 ⟨h.usable ha he, by simpa using hn⟩)

inductive Sharing (m : Manager χ) (c : Handle) : Manager χ × Handle → Prop
  | old (a : Handle) : m.Has a → a.id = c.id → m.store.isExpired a = false → Sharing m c (m, a)
  | new : m.Vacant c.id → Sharing m c (m.register c, c)

theorem Sound.share (h : m.Sound) (c : Handle) : Sharing m c (m.share c) := by
  -- What can be used is shared, so it is enough to look there.
  have hvacant (hn : ∀ a ∈ m.shared, a.id = c.id → ¬(m.Has a ∧ m.store.isExpired a = false)) :
      m.Vacant c.id := by
    intro a ha hi
    by_contra he
    rw [Bool.not_eq_true] at he
    exact hn a (h.usable ha he) hi ⟨ha, he⟩
  rw [Manager.share]
  split
  · next a hf =>
    have hi : a.id = c.id := by simpa using List.find?_some hf
    have hu : (m.isHeld a && !m.store.isExpired a) = true ↔
        m.Has a ∧ m.store.isExpired a = false := by simp [isHeld_iff]
    split
    · next hc => exact .old a (hu.1 hc).1 hi (hu.1 hc).2
    · next hc =>
      refine .new (hvacant fun b hb hib hu' => hc (hu.2 ?_))
      rwa [eq_of_id h.shared (List.mem_of_find?_eq_some hf) hb (hi.trans hib.symm)]
  · next hf => exact .new (hvacant fun b hb hib => by simpa [hib] using List.find?_eq_none.1 hf b hb)

structure Offers (m : Manager χ) (a : Handle) : Prop where
  sound : m.Sound
  shared : a ∈ m.shared
  usable : m.store.isExpired a = false

theorem Offers.known (h : m.Offers a) : a ∈ m.store.handles := by
  obtain ⟨x, hx, -⟩ := Store.isExpired_eq_false.1 h.usable
  exact Store.mem_handles.2 ⟨x, hx⟩

theorem Offers.hold (h : m.Offers a) (who : χ) : (m.hold who a).Offers a :=
  ⟨h.sound.hold who h.shared h.known, h.shared, h.usable⟩

theorem Offers.release [DecidableEq χ] (h : m.Offers a) (who : χ) : (m.release who).Offers a :=
  ⟨h.sound.release who, h.shared, h.usable⟩

theorem Sharing.offers {r : Manager χ × Handle} (h : m.Sound) (hc : m.store.isExpired c = false)
    (hs : Sharing m c r) : r.1.Offers r.2 := by
  cases hs with
  | old a ha hi he => exact ⟨h, h.usable ha he, he⟩
  | new hv => exact ⟨h.register hv, by simp [Manager.register], hc⟩

theorem retrieveFirst_fades (m : Manager χ) (now : Nat) (ids : List SessionId) :
    ∃ t, m.store.Fades t ∧ (m.retrieveFirst now ids).1 = { m with store := t } ∧
      ∀ a, (m.retrieveFirst now ids).2 = some a → a ∈ t.stored ∧ t.isExpired a = false := by
  induction ids generalizing m with
  | nil => exact ⟨m.store, .refl _, rfl, fun a h => by cases h⟩
  | cons id ids ih =>
      have hf : m.store.Fades (m.store.retrieve id now).1 := .retrieve id now
      rcases hr : m.store.retrieve id now with ⟨t, _ | a⟩
      · obtain ⟨u, hu, he, ha⟩ := ih { m with store := t }
        rw [hr] at hf
        simp only [retrieveFirst, hr]
        exact ⟨u, hf.trans hu, he, ha⟩
      · rw [hr] at hf
        simp only [retrieveFirst, hr]
        refine ⟨t, hf, rfl, fun b hb => ?_⟩
        cases hb
        exact (Store.of_retrieve hr).2

theorem Sound.created {t : Store} (h : m.Sound) (hc : m.store.Created t id now a) :
    ({ m with store := t } : Manager χ).Sound := by
  have has {b} (hb : ({ m with store := t } : Manager χ).Has b) : m.Has b :=
    hb.imp_left fun hb => hc.stored ▸ hb
  refine ⟨hc.numbered, fun hb => ?_, ?_, h.shared, fun {b} hb he => h.usable (has hb) ?_⟩
  · rw [hc.handles]
    exact List.mem_append_left _ (h.known (has hb))
  · change (t.stored.map _).Nodup
    rw [hc.stored]
    exact h.stored
  · have hne : b ≠ a := fun e => hc.new (e ▸ h.known (has hb))
    obtain ⟨x, hx, hex⟩ := Store.isExpired_eq_false.1 he
    rw [hc.get?, if_neg hne] at hx
    exact Store.isExpired_eq_false.2 ⟨x, hx, hex⟩

def candidate (m : Manager χ) (ids : List SessionId) (spare : SessionId) (now : Nat) :
    Manager χ × Handle :=
  match m.retrieveFirst now ids with
  | (m, some a) => (m, a)
  | (m, none) =>
    let (store, a) := m.store.create (ids.headD spare) now
    ({ m.prune with store }, a)

theorem resolve_eq (hf : m.failing = []) :
    m.resolve ids spare now =
      let c := m.candidate ids spare now
      ((c.1.share c.2).1, .ok (c.1.share c.2).2) := by
  obtain ⟨t, -, hr, -⟩ := retrieveFirst_fades m now ids
  have hnr : ¬(Operation.retrieve ∈ m.failing ∧ (!ids.isEmpty) = true) := by simp [hf]
  rw [Manager.resolve, if_neg hnr, candidate]
  rcases hx : m.retrieveFirst now ids with ⟨n, _ | c⟩
  · have hnc : Operation.create ∉ n.prune.failing := by
      rw [hx] at hr
      subst hr
      simp [prune, hf]
    simp only [if_neg hnc]
    rfl
  · rfl

theorem Sound.candidate (h : m.Sound) (ids : List SessionId) (spare : SessionId) (now : Nat) :
    (m.candidate ids spare now).1.Sound ∧
      (m.candidate ids spare now).1.store.isExpired (m.candidate ids spare now).2 = false ∧
      (m.candidate ids spare now).1.holds = m.holds ∧
      (m.candidate ids spare now).1.failing = m.failing := by
  obtain ⟨t, ht, hr, ha⟩ := retrieveFirst_fades m now ids
  rw [Manager.candidate]
  rcases hx : m.retrieveFirst now ids with ⟨n, _ | c⟩
  · rw [hx] at hr
    subst hr
    have hc := (h.fades ht).numbered.create (ids.headD spare) now
    refine ⟨(h.fades ht).prune.created hc, ?_, rfl, rfl⟩
    exact Store.isExpired_eq_false.2 ⟨_, (hc.get? _).trans (if_pos rfl), rfl⟩
  · rw [hx] at hr ha
    subst hr
    exact ⟨h.fades ht, (ha c rfl).2, rfl, rfl⟩

theorem Sharing.holds {r : Manager χ × Handle} (hs : Sharing m c r) :
    r.1.holds = m.holds ∧ r.1.failing = m.failing ∧ r.1.store = m.store := by
  cases hs <;> exact ⟨rfl, rfl, rfl⟩

/-- A session is always found or made, and it can be used. -/
theorem Sound.resolve (h : m.Sound) (hf : m.failing = []) (ids : List SessionId)
    (spare : SessionId) (now : Nat) :
    ∃ m' a, m.resolve ids spare now = (m', .ok a) ∧ m'.Offers a ∧ m'.failing = [] ∧
      m'.holds = m.holds := by
  obtain ⟨hn, he, hh, hf'⟩ := h.candidate ids spare now
  have hs := hn.share (m.candidate ids spare now).2
  obtain ⟨hh', hf'', -⟩ := hs.holds
  exact ⟨_, _, resolve_eq hf, hs.offers hn he, hf''.trans (hf'.trans hf), hh'.trans hh⟩

theorem Sound.keep (h : m.Sound) (ha : m.Has a) (now : Nat) :
    ({ m with store := m.store.keep a now } : Manager χ).Sound := by
  have has {b} (hb : ({ m with store := m.store.keep a now } : Manager χ).Has b) : m.Has b := by
    rcases hb with hb | hb
    · rcases Store.mem_stored_keep.1 hb with hb | rfl
      · exact .inl hb.1
      · exact ha
    · exact .inr hb
  refine ⟨?_, fun hb => ?_, ?_, h.shared, fun hb he => ?_⟩
  · exact h.numbered.of_handles Store.handles_keep
  · rw [Store.handles_keep]
    exact h.known (has hb)
  · exact Store.nodup_keep h.stored
  · rw [Store.isExpired_keep] at he
    exact h.usable (has hb) he

theorem saveIfActive_eq (hf : m.failing = []) :
    m.saveIfActive a now =
      (if (m.store.get? a).any isActive then { m with store := m.store.keep a now } else m, .ok ()) := by
  rw [saveIfActive]
  split
  · next h =>
    have he : m.store.isExpired a = false := by
      cases hx : m.store.get? a with
      | none => simp [hx] at h
      | some x =>
          have hx' : isActive x = true := by simpa [hx] using h
          simp only [isActive, Bool.and_eq_true, Bool.not_eq_true'] at hx'
          exact Store.isExpired_eq_false.2 ⟨x, hx, hx'.2⟩
    rw [save, if_neg (by simp [hf])]
    simp only [Store.save_of_not_expired he]
  · rfl

theorem Sound.saveAll {as : List Handle} (h : m.Sound) (hf : m.failing = [])
    (hh : ∀ a ∈ as, ∃ who, (who, a) ∈ m.holds) (now : Nat) :
    ∃ t, m.saveAll now as = ({ m with store := t }, .ok ()) ∧
      ({ m with store := t } : Manager χ).Sound := by
  induction as generalizing m with
  | nil => exact ⟨m.store, rfl, h⟩
  | cons a as ih =>
      have ha : m.Has a := .inr (hh a List.mem_cons_self)
      -- Saved or not, only the store has changed.
      have hn : (if (m.store.get? a).any isActive then { m with store := m.store.keep a now } else m) =
          { m with store := if (m.store.get? a).any isActive then m.store.keep a now else m.store } := by
        split <;> rfl
      rw [Manager.saveAll, saveIfActive_eq hf, hn]
      refine ih (m := { m with store := _ }) ?_ hf fun b hb => hh b (List.mem_cons_of_mem _ hb)
      split
      · exact h.keep ha now
      · exact h

end Parley.Session.Manager
