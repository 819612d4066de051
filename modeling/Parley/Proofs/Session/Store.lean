import Parley.Session.Basic
import Parley.Session.Store
import Mathlib.Data.List.Nodup

namespace Parley.Session.Store

variable {s t u : Store} {a b : Handle} {x : Session} {id : SessionId} {now : Nat}
  {f : Session → Session}

def handles (s : Store) : List Handle := s.sessions.map Prod.fst

@[simp] theorem handles_modify : (s.modify a f).handles = s.handles := by
  simp only [handles, modify, List.map_map]
  refine List.map_congr_left fun e _ => ?_
  simp only [Function.comp_apply]
  split
  · next h => exact h.symm
  · rfl

theorem mem_stored_discard : a ∈ (s.discard id).stored ↔ a ∈ s.stored ∧ a.id ≠ id := by
  simp [discard]

theorem get?_modify : (s.modify a f).get? b = if b = a then (s.get? a).map f else s.get? b := by
  simp only [get?, modify]
  induction s.sessions with
  | nil => simp
  | cons e es ih =>
      obtain ⟨c, x⟩ := e
      by_cases hc : c = a
      · subst hc
        by_cases hb : b = c
        · subst hb
          simp
        · have hb' : (b == c) = false := by simpa using hb
          simp only [List.map_cons, if_true, List.lookup_cons, hb', ih, if_neg hb]
      · by_cases hb : b = c
        · subst hb
          simp [hc]
        · have hb' : (b == c) = false := by simpa using hb
          have hc' : (a == c) = false := by simpa using Ne.symm hc
          simp only [List.map_cons, if_neg hc, List.lookup_cons, hb', hc', ih]

theorem mem_handles : a ∈ s.handles ↔ ∃ x, s.get? a = some x := by
  simp only [← Option.isSome_iff_exists, get?, handles]
  induction s.sessions with
  | nil => simp
  | cons e es ih =>
      obtain ⟨c, x⟩ := e
      by_cases hc : a = c
      · simp [hc]
      · have hc' : (a == c) = false := by simpa using hc
        simp only [List.lookup_cons, hc', List.map_cons, List.mem_cons, hc, false_or, ih]

theorem isExpired_eq_false : s.isExpired a = false ↔ ∃ x, s.get? a = some x ∧ x.expired = false := by
  rw [isExpired]
  cases s.get? a <;> simp

theorem isFresh_iff :
    s.isFresh now a = true ↔
      ∃ x, s.get? a = some x ∧ x.expired = false ∧ x.isIdle s.maxIdle now = false := by
  rw [isFresh]
  cases s.get? a <;> simp

theorem find?_some (h : s.find? id = some a) : a ∈ s.stored ∧ a.id = id :=
  ⟨List.mem_of_find?_eq_some h, by simpa using List.find?_some h⟩

theorem find?_eq_none : s.find? id = none ↔ ∀ a ∈ s.stored, a.id ≠ id := by
  simp [find?]

/-- What a store comes to when nothing is created or saved: the same sessions, some of which may
have changed, but none that had expired has not, and some may not be stored any more. -/
structure Fades (s t : Store) : Prop where
  handles : t.handles = s.handles
  stored : t.stored.Sublist s.stored
  expired : ∀ {a}, t.isExpired a = false → s.isExpired a = false

theorem Fades.refl (s : Store) : Fades s s := ⟨rfl, .refl _, fun h => h⟩

theorem Fades.trans (h : Fades s t) (h' : Fades t u) : Fades s u :=
  ⟨h'.handles.trans h.handles, h'.stored.trans h.stored, fun e => h.expired (h'.expired e)⟩

theorem Fades.modify (a : Handle) (hf : ∀ x, (f x).expired = false → x.expired = false) :
    Fades s (s.modify a f) where
  handles := handles_modify
  stored := .refl _
  expired := by
    intro b hb
    obtain ⟨y, hy, he⟩ := isExpired_eq_false.1 hb
    rw [get?_modify] at hy
    split at hy
    · next hba =>
      obtain ⟨x, hx, rfl⟩ := Option.map_eq_some_iff.1 hy
      exact isExpired_eq_false.2 ⟨x, hba ▸ hx, hf x he⟩
    · exact isExpired_eq_false.2 ⟨y, hy, he⟩

theorem Fades.invalidate (a : Handle) : Fades s (s.modify a Session.invalidate) :=
  .modify a fun _ h => by cases h

theorem Fades.discard (id : SessionId) : Fades s (s.discard id) :=
  ⟨rfl, List.filter_sublist, fun h => h⟩

theorem Fades.touch (a : Handle) (now : Nat) : Fades s (s.modify a (·.touch now)) :=
  .modify a fun _ h => h

theorem Fades.act (a : Handle) (act : Act) : Fades s (s.modify a act.run) := by
  refine .modify a fun x h => ?_
  cases act <;> first | exact h | cases h

theorem retrieve_of_none (h : s.find? id = none) : s.retrieve id now = (s, none) := by
  rw [retrieve, h]

theorem retrieve_of_fresh (h : s.find? id = some a) (hf : s.isFresh now a = true) :
    s.retrieve id now = (s.modify a (·.touch now), some a) := by
  simp only [retrieve, h, hf, if_true]

theorem retrieve_of_stale (h : s.find? id = some a) (hf : s.isFresh now a = false) :
    s.retrieve id now = ((s.modify a Session.invalidate).discard id, none) := by
  simp only [retrieve, h, hf, Bool.false_eq_true, if_false]

theorem Fades.retrieve (id : SessionId) (now : Nat) : Fades s (s.retrieve id now).1 := by
  cases h : s.find? id with
  | none =>
      rw [retrieve_of_none h]
      exact .refl s
  | some a =>
      cases hf : s.isFresh now a with
      | true =>
          rw [retrieve_of_fresh h hf]
          exact .touch a now
      | false =>
          rw [retrieve_of_stale h hf]
          exact (Fades.invalidate a).trans (.discard id)

theorem isExpired_touch : (s.modify a (·.touch now)).isExpired b = s.isExpired b := by
  rw [isExpired, isExpired, get?_modify]
  split
  · next h =>
    subst h
    cases s.get? b <;> rfl
  · rfl

theorem of_retrieve (h : s.retrieve id now = (t, some a)) :
    a.id = id ∧ a ∈ t.stored ∧ t.isExpired a = false := by
  cases hi : s.find? id with
  | none =>
      rw [retrieve_of_none hi] at h
      cases h
  | some b =>
      cases hf : s.isFresh now b with
      | true =>
          rw [retrieve_of_fresh hi hf] at h
          cases h
          obtain ⟨hm, hid⟩ := find?_some hi
          obtain ⟨x, hx, he, -⟩ := isFresh_iff.1 hf
          exact ⟨hid, hm, by rw [isExpired_touch]; exact isExpired_eq_false.2 ⟨x, hx, he⟩⟩
      | false =>
          rw [retrieve_of_stale hi hf] at h
          cases h

theorem Fades.remove (id : SessionId) : Fades s (s.remove id) := by
  rw [Store.remove]
  cases s.find? id with
  | none => exact .refl s
  | some a => exact (Fades.invalidate a).trans (.discard id)

theorem Fades.invalidateAll (as : List Handle) :
    Fades s (as.foldl (fun t a => t.modify a Session.invalidate) s) := by
  induction as generalizing s with
  | nil => exact .refl s
  | cons a as ih => exact (Fades.invalidate a).trans ih

theorem Fades.evict (now : Nat) : Fades s (s.evict now).1 := by
  have h := Fades.invalidateAll (s := s) (s.stored.filter fun a => !s.isFresh now a)
  exact ⟨h.handles, List.filter_sublist, h.expired⟩

def Numbered (s : Store) : Prop :=
  ∀ a ∈ s.handles, a.serial < (s.handles.filter fun b => b.id = a.id).length

theorem Numbered.of_handles (h : s.Numbered) (he : t.handles = s.handles) : t.Numbered := by
  rw [Numbered, he]
  exact h

theorem create_eq : s.create id now =
    ({ s with sessions := s.sessions ++ [(⟨id, (s.handles.filter fun b => b.id = id).length⟩,
        { id, lastAccessed := now })] },
      ⟨id, (s.handles.filter fun b => b.id = id).length⟩) := by
  have h : (s.sessions.filter fun e => e.1.id = id).length =
      (s.handles.filter fun b => b.id = id).length := by
    rw [handles, List.filter_map, List.length_map]
    rfl
  simp only [create, h]

structure Created (s t : Store) (id : SessionId) (now : Nat) (a : Handle) : Prop where
  named : a.id = id
  new : a ∉ s.handles
  numbered : t.Numbered
  stored : t.stored = s.stored
  handles : t.handles = s.handles ++ [a]
  get? : ∀ b, t.get? b = if b = a then some { id, lastAccessed := now } else s.get? b

theorem Numbered.create (h : s.Numbered) (id : SessionId) (now : Nat) :
    Created s (s.create id now).1 id now (s.create id now).2 := by
  rw [create_eq]
  have hnew : (⟨id, (s.handles.filter fun b => b.id = id).length⟩ : Handle) ∉ s.handles :=
    fun hm => Nat.lt_irrefl _ (h _ hm)
  refine ⟨rfl, hnew, ?_, rfl, by simp [Store.handles], fun b => ?_⟩
  · intro b hb
    simp only [Store.handles, List.map_append, List.filter_append, List.length_append] at hb ⊢
    rcases List.mem_append.1 hb with hb | hb
    · exact Nat.lt_add_right _ (h b hb)
    · obtain rfl := List.mem_singleton.1 hb
      simp
  · have hn : s.get? ⟨id, (s.handles.filter fun b => b.id = id).length⟩ = none := by
      exact Option.eq_none_iff_forall_ne_some.2 fun x hx => hnew (mem_handles.2 ⟨x, hx⟩)
    rw [Store.get?, List.lookup_append]
    change (s.get? b).or _ = _
    split
    · next hb =>
      subst hb
      simp [hn]
    · next hb =>
      have hb' : (b == (⟨id, (s.handles.filter fun b => b.id = id).length⟩ : Handle)) = false := by
        simpa using hb
      simp [List.lookup_cons, hb']

def keep (s : Store) (a : Handle) (now : Nat) : Store :=
  { s.modify a (·.touch now) with stored := (s.discard a.id).stored ++ [a] }

theorem save_of_not_expired (h : s.isExpired a = false) : s.save a now = (s.keep a now, .ok ()) := by
  simp only [save, h, Bool.false_eq_true, if_false]
  rfl

@[simp] theorem handles_keep : (s.keep a now).handles = s.handles :=
  (handles_modify : (s.modify a (·.touch now)).handles = s.handles)

@[simp] theorem isExpired_keep : (s.keep a now).isExpired b = s.isExpired b :=
  (isExpired_touch : (s.modify a (·.touch now)).isExpired b = s.isExpired b)

theorem nodup_keep (h : (s.stored.map Handle.id).Nodup) :
    ((s.keep a now).stored.map Handle.id).Nodup := by
  simp only [keep, List.map_append, List.map_cons, List.map_nil]
  refine List.nodup_append.2 ⟨h.sublist (List.filter_sublist.map _), List.nodup_singleton _, ?_⟩
  rintro i hi j hj rfl
  obtain ⟨b, hb, rfl⟩ := List.mem_map.1 hi
  exact (mem_stored_discard.1 hb).2 (List.mem_singleton.1 hj)

theorem mem_stored_keep : b ∈ (s.keep a now).stored ↔ b ∈ s.stored ∧ b.id ≠ a.id ∨ b = a := by
  rw [keep, List.mem_append, mem_stored_discard, List.mem_singleton]

end Parley.Session.Store
