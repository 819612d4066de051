import Parley.Proofs.Session.Manager

namespace Parley.Session

namespace Store

variable {s t : Store} {a : Handle} {id : SessionId} {now : Nat} {f : Session → Session}

def only (s : Store) (id : SessionId) : Store where
  maxIdle := s.maxIdle
  sessions := s.sessions.filter fun e => e.1.id = id
  stored := s.stored.filter fun a => a.id = id

theorem get?_only (ha : a.id = id) : (s.only id).get? a = s.get? a := by
  simp only [get?, only]
  induction s.sessions with
  | nil => rfl
  | cons e es ih =>
      obtain ⟨b, x⟩ := e
      by_cases hb : b.id = id
      · rw [List.filter_cons_of_pos (by simp [hb]), List.lookup_cons, List.lookup_cons, ih]
      · have hab : (a == b) = false := beq_eq_false_iff_ne.2 fun h => hb (h ▸ ha)
        rw [List.filter_cons_of_neg (by simp [hb]), List.lookup_cons, hab, ih]

theorem modify_only (a : Handle) (f : Session → Session) :
    (s.only id).modify a f = (s.modify a f).only id := by
  simp only [modify, only, List.filter_map]
  congr 2
  apply List.filter_congr
  intro e _
  by_cases h : e.1 = a <;> simp [h]

theorem only_modify (ha : a.id ≠ id) : (s.modify a f).only id = s.only id := by
  rw [← modify_only]
  simp only [modify, only]
  congr 1
  refine (List.map_congr_left (g := fun e => e) fun e he => ?_).trans (List.map_id' _)
  have he : e.1.id = id := of_decide_eq_true (List.mem_filter.1 he).2
  exact if_neg (show ¬e.1 = a from fun h => ha (h ▸ he))

theorem find?_only : (s.only id).find? id = s.find? id := by
  simp [find?, only, List.find?_filter]

theorem discard_only (id' : SessionId) : (s.only id).discard id' = (s.discard id').only id := by
  simp only [discard, only, List.filter_filter, Bool.and_comm]

theorem only_discard {id' : SessionId} (h : id' ≠ id) : (s.discard id').only id = s.only id := by
  rw [← discard_only]
  simp only [discard, only, List.filter_filter]
  congr 1
  apply List.filter_congr
  intro a _
  by_cases ha : a.id = id
  · simp [ha, Ne.symm h]
  · simp [ha]

theorem isFresh_only (ha : a.id = id) : (s.only id).isFresh now a = s.isFresh now a := by
  rw [isFresh, isFresh, get?_only ha]
  rfl

theorem isExpired_only (ha : a.id = id) : (s.only id).isExpired a = s.isExpired a := by
  rw [isExpired, isExpired, get?_only ha]

theorem retrieve_only : (s.only id).retrieve id now =
    ((s.retrieve id now).1.only id, (s.retrieve id now).2) := by
  rw [retrieve, retrieve, find?_only]
  cases hf : s.find? id with
  | none => rfl
  | some a =>
      have ha := (find?_some hf).2
      simp only [isFresh_only ha]
      split
      · rw [modify_only]
      · rw [modify_only, discard_only]

theorem retrieve_congr (h : s.only id = t.only id) (now : Nat) :
    (s.retrieve id now).1.only id = (t.retrieve id now).1.only id ∧
      (s.retrieve id now).2 = (t.retrieve id now).2 :=
  Prod.mk.inj (retrieve_only.symm.trans (h ▸ retrieve_only))

theorem only_retrieve {id' : SessionId} (h : id' ≠ id) :
    (s.retrieve id' now).1.only id = s.only id := by
  rw [retrieve]
  cases hf : s.find? id' with
  | none => rfl
  | some a =>
      have ha : a.id ≠ id := (find?_some hf).2 ▸ h
      dsimp only
      split
      · exact only_modify ha
      · exact (only_discard h).trans (only_modify ha)

theorem create_only : (s.only id).create id now =
    ((s.create id now).1.only id, (s.create id now).2) := by
  simp [create, only, List.filter_filter]

theorem create_congr (h : s.only id = t.only id) (now : Nat) :
    (s.create id now).1.only id = (t.create id now).1.only id ∧
      (s.create id now).2 = (t.create id now).2 :=
  Prod.mk.inj (create_only.symm.trans (h ▸ create_only))

theorem only_create {id' : SessionId} (h : id' ≠ id) :
    (s.create id' now).1.only id = s.only id := by
  simp [create, only, h]

theorem save_only (ha : a.id = id) : (s.only id).save a now =
    ((s.save a now).1.only id, (s.save a now).2) := by
  rw [save, save, isExpired_only ha]
  split
  · rfl
  · simp only [modify_only, discard_only]
    simp [only, ha]

theorem save_congr (h : s.only id = t.only id) (ha : a.id = id) (now : Nat) :
    (s.save a now).1.only id = (t.save a now).1.only id ∧ (s.save a now).2 = (t.save a now).2 :=
  Prod.mk.inj ((save_only ha).symm.trans (h ▸ save_only ha))

theorem mem_stored_save {b : Handle} (h : b ∈ (s.save a now).1.stored) : b ∈ s.stored ∨ b = a := by
  rw [save] at h
  split at h
  · exact .inl h
  · rcases List.mem_append.1 h with h | h
    · exact .inl (List.mem_filter.1 h).1
    · exact .inr (List.mem_singleton.1 h)

theorem only_save (ha : a.id ≠ id) : (s.save a now).1.only id = s.only id := by
  rw [save]
  split
  · rfl
  · have hd : ((s.modify a (·.touch now)).discard a.id).only id = s.only id :=
      (only_discard ha).trans (only_modify ha)
    rw [← hd]
    simp [only, ha]

end Store

end Parley.Session
