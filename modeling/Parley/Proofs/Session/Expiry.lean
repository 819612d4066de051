import Parley.Proofs.Session.Store

namespace Parley.Session.Store

inductive Demand
  | create (id : SessionId) (now : Nat)
  | save (a : Handle) (now : Nat)
  | retrieve (id : SessionId) (now : Nat)
  | remove (id : SessionId)
  | evict (now : Nat)
  | act (a : Handle) (what : Act)

variable {s t : Store} {a b : Handle} {x : Session} {id : SessionId} {now : Nat}
  {d : Demand} {ds : List Demand}

def meet (s : Store) : Demand → Store
  | .create id now => (s.create id now).1
  | .save a now => (s.save a now).1
  | .retrieve id now => (s.retrieve id now).1
  | .remove id => s.remove id
  | .evict now => (s.evict now).1
  | .act a what => s.modify a what.run

def meetAll (s : Store) (ds : List Demand) : Store := ds.foldl meet s

def Usable (s : Store) (now : Nat) (a : Handle) : Prop :=
  ∃ x, s.get? a = some x ∧ x.expired = false ∧ now - x.lastAccessed ≤ s.maxIdle

theorem isFresh_iff_usable : s.isFresh now a = true ↔ s.Usable now a := by
  rw [isFresh_iff]
  simp only [Usable, Session.isIdle, decide_eq_false_iff_not, Nat.not_lt]

structure InOrder (s : Store) : Prop where
  numbered : s.Numbered
  known : ∀ {a}, a ∈ s.stored → a ∈ s.handles
  one : (s.stored.map Handle.id).Nodup

theorem InOrder.find?_eq_some (h : s.InOrder) :
    s.find? id = some a ↔ a ∈ s.stored ∧ a.id = id := by
  refine ⟨find?_some, ?_⟩
  rintro ⟨ha, rfl⟩
  cases hf : s.find? a.id with
  | none => exact absurd rfl (find?_eq_none.1 hf a ha)
  | some b =>
      obtain ⟨hb, hi⟩ := find?_some hf
      rw [List.inj_on_of_nodup_map h.one hb ha hi]

theorem InOrder.fades (h : s.InOrder) (hf : s.Fades t) : t.InOrder where
  numbered := h.numbered.of_handles hf.handles
  known := fun ha => hf.handles ▸ h.known (hf.stored.subset ha)
  one := h.one.sublist (hf.stored.map _)

theorem InOrder.keep (h : s.InOrder) (ha : a ∈ s.handles) (now : Nat) : (s.keep a now).InOrder where
  numbered := h.numbered.of_handles handles_keep
  known := by
    intro b hb
    rw [handles_keep]
    rcases mem_stored_keep.1 hb with hb | rfl
    · exact h.known hb.1
    · exact ha
  one := nodup_keep h.one

theorem save_of_expired (h : s.isExpired a = true) :
    s.save a now = (s, .error (.expired a.id.text)) := if_pos h

theorem mem_handles_of_not_expired (h : s.isExpired a = false) : a ∈ s.handles := by
  obtain ⟨x, hx, -⟩ := isExpired_eq_false.1 h
  exact mem_handles.2 ⟨x, hx⟩

theorem InOrder.meet (h : s.InOrder) (d : Demand) : (s.meet d).InOrder := by
  cases d with
  | create id now =>
      have hc := h.numbered.create id now
      refine ⟨hc.numbered, fun ha => ?_, ?_⟩
      · rw [Store.meet, hc.handles]
        rw [Store.meet, hc.stored] at ha
        exact List.mem_append_left _ (h.known ha)
      · rw [Store.meet, hc.stored]
        exact h.one
  | save a now =>
      cases he : s.isExpired a with
      | true =>
          rw [Store.meet, save_of_expired he]
          exact h
      | false =>
          rw [Store.meet, save_of_not_expired he]
          exact h.keep (mem_handles_of_not_expired he) now
  | retrieve id now => exact h.fades (.retrieve id now)
  | remove id => exact h.fades (.remove id)
  | evict now => exact h.fades (.evict now)
  | act a what => exact h.fades (.act a what)

theorem InOrder.meetAll (h : s.InOrder) (ds : List Demand) : (s.meetAll ds).InOrder := by
  induction ds generalizing s with
  | nil => exact h
  | cons d ds ih => exact ih (h.meet d)

theorem inOrder_empty (maxIdle : Nat) : ({ maxIdle } : Store).InOrder :=
  ⟨nofun, nofun, List.nodup_nil⟩

def Expired (s : Store) (a : Handle) : Prop := ∃ x, s.get? a = some x ∧ x.expired = true

theorem expired_iff : s.Expired a ↔ a ∈ s.handles ∧ s.isExpired a = true := by
  rw [Expired, mem_handles, isExpired]
  cases s.get? a <;> simp

theorem Expired.fades (h : s.Expired a) (hf : s.Fades t) : t.Expired a := by
  rw [expired_iff] at h ⊢
  refine ⟨hf.handles ▸ h.1, ?_⟩
  by_contra he
  have hs := hf.expired (Bool.not_eq_true _ ▸ he)
  rw [h.2] at hs
  cases hs

/-- Nothing makes a session usable that has expired. -/
theorem Expired.meet (h : s.Expired a) (ho : s.InOrder) (d : Demand) : (s.meet d).Expired a := by
  cases d with
  | create id now =>
      have hc := ho.numbered.create id now
      obtain ⟨x, hx, he⟩ := h
      have hne : a ≠ (s.create id now).2 := by
        rintro rfl
        exact hc.new (mem_handles.2 ⟨x, hx⟩)
      exact ⟨x, (hc.get? a).trans ((if_neg hne).trans hx), he⟩
  | save b now =>
      cases he : s.isExpired b with
      | true =>
          rw [Store.meet, save_of_expired he]
          exact h
      | false =>
          rw [Store.meet, save_of_not_expired he, expired_iff, handles_keep, isExpired_keep]
          exact expired_iff.1 h
  | retrieve id now => exact h.fades (.retrieve id now)
  | remove id => exact h.fades (.remove id)
  | evict now => exact h.fades (.evict now)
  | act b what => exact h.fades (.act b what)

theorem Expired.meetAll (h : s.Expired a) (ho : s.InOrder) (ds : List Demand) :
    (s.meetAll ds).Expired a := by
  induction ds generalizing s with
  | nil => exact h
  | cons d ds ih => exact ih (h.meet ho d) (ho.meet d)

theorem Expired.not_found (h : s.Expired a) (id : SessionId) (now : Nat) :
    (s.retrieve id now).2 ≠ some a := by
  intro hr
  have hf := (of_retrieve (Prod.ext rfl hr)).2.2
  have he := (expired_iff.1 (h.fades (.retrieve id now))).2
  rw [hf] at he
  cases he

theorem Expired.refused (h : s.Expired a) (now : Nat) :
    s.save a now = (s, .error (.expired a.id.text)) := save_of_expired (expired_iff.1 h).2

structure Retrieval (s : Store) (id : SessionId) (now : Nat) (t : Store) (answer : Option Handle) :
    Prop where
  found : ∀ a, answer = some a ↔ a ∈ s.stored ∧ a.id = id ∧ s.Usable now a
  stamped : ∀ a, answer = some a → t.stored = s.stored ∧
    ∀ b, t.get? b = if b = a then (s.get? a).map (·.touch now) else s.get? b
  gone : answer = none → t.stored = s.stored.filter (·.id ≠ id) ∧
    (∀ b ∈ s.stored, b.id = id → t.Expired b) ∧
    ∀ b, ¬(b ∈ s.stored ∧ b.id = id) → t.get? b = s.get? b

theorem InOrder.retrieval (h : s.InOrder) (id : SessionId) (now : Nat) :
    Retrieval s id now (s.retrieve id now).1 (s.retrieve id now).2 := by
  cases hf : s.find? id with
  | none =>
      have hn := find?_eq_none.1 hf
      rw [retrieve_of_none hf]
      refine ⟨fun a => ⟨nofun, fun ⟨ha, hi, _⟩ => absurd hi (hn a ha)⟩, nofun, fun _ => ⟨?_, ?_, ?_⟩⟩
      · exact (List.filter_eq_self.2 fun a ha => by simpa using hn a ha).symm
      · exact fun b hb hi => absurd hi (hn b hb)
      · exact fun _ _ => rfl
  | some a =>
      obtain ⟨ha, hi⟩ := find?_some hf
      have hother {b : Handle} : b ∈ s.stored ∧ b.id = id ↔ b = a := by
        rw [← h.find?_eq_some, hf, Option.some.injEq, eq_comm]
      cases hu : s.isFresh now a with
      | true =>
          rw [retrieve_of_fresh hf hu]
          refine ⟨fun b => ?_, fun b hb => ?_, nofun⟩
          · rw [← and_assoc, hother, Option.some.injEq]
            constructor
            · rintro rfl
              exact ⟨rfl, isFresh_iff_usable.1 hu⟩
            · exact fun hb => hb.1.symm
          · cases hb
            exact ⟨rfl, fun b => get?_modify⟩
      | false =>
          rw [retrieve_of_stale hf hu]
          have hget {b : Handle} : ((s.modify a Session.invalidate).discard id).get? b =
              if b = a then (s.get? a).map Session.invalidate else s.get? b := get?_modify
          refine ⟨fun b => ⟨nofun, fun ⟨hb, hbi, hbu⟩ => ?_⟩, nofun, fun _ => ⟨rfl, ?_, ?_⟩⟩
          · obtain rfl := hother.1 ⟨hb, hbi⟩
            rw [isFresh_iff_usable.2 hbu] at hu
            cases hu
          · intro b hb hbi
            obtain rfl := hother.1 ⟨hb, hbi⟩
            obtain ⟨x, hx⟩ := mem_handles.1 (h.known hb)
            exact ⟨x.invalidate, by rw [hget, if_pos rfl, hx]; rfl, rfl⟩
          · intro b hb
            rw [hget, if_neg fun he => hb (hother.2 he)]

structure Saving (s : Store) (a : Handle) (now : Nat) (t : Store)
    (answer : Except SessionError Unit) : Prop where
  refused : (∃ e, answer = .error e) ↔ s.Expired a
  unchanged : ∀ e, answer = .error e → e = .expired a.id.text ∧ t = s
  stored : answer = .ok () → (∀ b, b ∈ t.stored ↔ b ∈ s.stored ∧ b.id ≠ a.id ∨ b = a) ∧
    ∀ b, t.get? b = if b = a then (s.get? a).map (·.touch now) else s.get? b

theorem saving (ha : a ∈ s.handles) (now : Nat) :
    Saving s a now (s.save a now).1 (s.save a now).2 := by
  cases he : s.isExpired a with
  | true =>
      rw [save_of_expired he]
      refine ⟨⟨fun _ => expired_iff.2 ⟨ha, he⟩, fun _ => ⟨_, rfl⟩⟩, fun e h => ?_, nofun⟩
      cases h
      exact ⟨rfl, rfl⟩
  | false =>
      rw [save_of_not_expired he]
      refine ⟨⟨nofun, fun h => ?_⟩, nofun, fun _ => ⟨fun b => mem_stored_keep, fun b => ?_⟩⟩
      · rw [(expired_iff.1 h).2] at he
        cases he
      · exact (get?_modify : (s.modify a (·.touch now)).get? b = _)

/-- What an eviction comes to, with the number of sessions that it tells. -/
structure Eviction (s : Store) (now : Nat) (t : Store) (n : Nat) : Prop where
  kept : ∀ a, a ∈ t.stored ↔ a ∈ s.stored ∧ s.Usable now a
  expired : ∀ a ∈ s.stored, a ∉ t.stored → t.Expired a
  others : ∀ a, (a ∈ s.stored → a ∈ t.stored) → t.get? a = s.get? a
  count : n + t.size = s.size

theorem get?_invalidateAll (as : List Handle) (b : Handle) :
    (as.foldl (fun t a => t.modify a Session.invalidate) s).get? b =
      if b ∈ as then (s.get? b).map Session.invalidate else s.get? b := by
  induction as generalizing s with
  | nil => rfl
  | cons a as ih =>
      rw [List.foldl_cons, ih, get?_modify]
      by_cases hb : b = a
      · subst hb
        cases s.get? b <;> simp [Session.invalidate]
      · simp [hb]

theorem InOrder.eviction (h : s.InOrder) (now : Nat) :
    Eviction s now (s.evict now).1 (s.evict now).2 := by
  have hkept {a : Handle} :
      a ∈ (s.stored.filter fun a => s.isFresh now a) ↔ a ∈ s.stored ∧ s.Usable now a := by
    rw [List.mem_filter, isFresh_iff_usable]
  have hget {a : Handle} : (s.evict now).1.get? a =
      if a ∈ s.stored.filter (fun a => !s.isFresh now a) then (s.get? a).map Session.invalidate
      else s.get? a := get?_invalidateAll _ _
  constructor
  case kept => exact fun a => hkept
  case expired =>
    intro a ha hn
    have hs : s.isFresh now a = false := by
      by_contra hf
      exact hn (List.mem_filter.2 ⟨ha, Bool.not_eq_false _ ▸ hf⟩)
    obtain ⟨x, hx⟩ := mem_handles.1 (h.known ha)
    exact ⟨x.invalidate, by rw [hget, if_pos (List.mem_filter.2 ⟨ha, by simp [hs]⟩), hx]; rfl, rfl⟩
  case others =>
    intro a ha
    rw [hget, if_neg]
    rw [List.mem_filter, Bool.not_eq_true']
    rintro ⟨hm, hs⟩
    have hf := (List.mem_filter.1 (ha hm)).2
    rw [hs] at hf
    cases hf
  case count =>
    have hl := List.length_eq_length_filter_add (l := s.stored) (fun a => s.isFresh now a)
    exact (Nat.add_comm _ _).trans hl.symm

/-- Whatever is asked of a store, and whatever the clock shows: a session that has expired stays so,
and is never found or saved again. A session is found exactly if it is stored and may be used, and
is stamped then; where none is found, none is left. Only a session that has expired is not saved,
and nothing changes then. An eviction keeps the stored sessions that may be used, and has all others
expire, and counts these. -/
theorem expired_for_good (maxIdle : Nat) (ds : List Demand) :
    let s := ({ maxIdle } : Store).meetAll ds
    (∀ a, s.Expired a → ∀ ds', (s.meetAll ds').Expired a ∧
      (∀ id now, ((s.meetAll ds').retrieve id now).2 ≠ some a) ∧
      ∀ now, (s.meetAll ds').save a now = (s.meetAll ds', .error (.expired a.id.text))) ∧
    (∀ id now, Retrieval s id now (s.retrieve id now).1 (s.retrieve id now).2) ∧
    (∀ a ∈ s.handles, ∀ now, Saving s a now (s.save a now).1 (s.save a now).2) ∧
    ∀ now, Eviction s now (s.evict now).1 (s.evict now).2 := by
  intro s
  have hs : s.InOrder := (inOrder_empty maxIdle).meetAll ds
  refine ⟨fun a ha ds' => ?_, hs.retrieval, fun a ha now => saving ha now, hs.eviction⟩
  have ha' := ha.meetAll hs ds'
  exact ⟨ha', ha'.not_found, ha'.refused⟩

def forgotten : List Demand :=
  [.create ⟨"c"⟩ 0, .save ⟨⟨"c"⟩, 0⟩ 1, .evict 9]

theorem expired_for_good_of_forgotten :
    let s := ({ maxIdle := 5 } : Store).meetAll forgotten
    s.Expired ⟨⟨"c"⟩, 0⟩ ∧ (s.meetAll [.create ⟨"c"⟩ 10]).Expired ⟨⟨"c"⟩, 0⟩ ∧
      (s.save ⟨⟨"c"⟩, 0⟩ 9).2 = .error (.expired "c") := by
  intro s
  have he : s.Expired ⟨⟨"c"⟩, 0⟩ := expired_iff.2 (by decide +kernel)
  obtain ⟨hgone, -⟩ := expired_for_good 5 forgotten
  refine ⟨he, (hgone _ he _).1, ?_⟩
  exact congrArg Prod.snd ((hgone _ he []).2.2 9)

end Parley.Session.Store
