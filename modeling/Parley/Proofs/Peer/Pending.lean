import Parley.Peer.Pending
import Mathlib.Data.List.Nodup

namespace Parley.Pending

variable {κ : Type} {p q : Pending κ} {id id' : RequestId} {who s : κ} {r : Response}

theorem find?_fst_eq_none {α β : Type} [DecidableEq α] {xs : List (α × β)} {a : α} :
    (xs.find? fun e => e.1 = a).map (·.2) = none ↔ ∀ b, (a, b) ∉ xs := by
  simp only [Option.map_eq_none_iff, List.find?_eq_none, decide_eq_true_eq]
  exact ⟨fun h b hb => h _ hb rfl, fun h e he hi => h e.2 (hi ▸ he)⟩

theorem mem_of_find?_fst {α β : Type} [DecidableEq α] {xs : List (α × β)} {a : α} {b : β}
    (h : (xs.find? fun e => e.1 = a).map (·.2) = some b) : (a, b) ∈ xs := by
  obtain ⟨e, he, rfl⟩ := Option.map_eq_some_iff.1 h
  have hi : e.1 = a := by simpa using List.find?_some he
  exact hi ▸ List.mem_of_find?_eq_some he

def slot? (p : Pending κ) (id : RequestId) : Option κ := (p.slots.find? fun s => s.1 = id).map (·.2)

def Keyed (p : Pending κ) : Prop := (p.slots.map (·.1)).Nodup

theorem contains_iff : p.contains id = true ↔ ∃ s, (id, s) ∈ p.slots := by
  simp [contains]

theorem slot?_eq_none : p.slot? id = none ↔ ∀ s, (id, s) ∉ p.slots := find?_fst_eq_none

theorem mem_of_slot? (h : p.slot? id = some s) : (id, s) ∈ p.slots := mem_of_find?_fst h

theorem Keyed.eq (hk : p.Keyed) (hs : (id, s) ∈ p.slots) (hw : (id, who) ∈ p.slots) : s = who :=
  congrArg Prod.snd (List.inj_on_of_nodup_map hk hs hw rfl)

theorem Keyed.slot? (hk : p.Keyed) (hs : (id, s) ∈ p.slots) : p.slot? id = some s := by
  cases h : p.slot? id with
  | none => exact absurd hs (slot?_eq_none.1 h s)
  | some who => rw [hk.eq hs (mem_of_slot? h)]

theorem register_eq_ok : p.register id who = .ok q ↔
    p.closed = false ∧ (∀ s, (id, s) ∉ p.slots) ∧ q = { p with slots := p.slots ++ [(id, who)] } := by
  have hn : p.contains id = true ↔ ¬∀ s, (id, s) ∉ p.slots := by simp [contains_iff]
  unfold register
  cases hc : p.closed <;> simp only [Bool.false_eq_true, if_false, if_true]
  · split
    · next h => simp [hn.1 h]
    · next h => simp [Classical.not_not.1 (mt hn.2 h), eq_comm]
  · simp

theorem register_eq_duplicate : p.register id who = .error (.duplicateId id') ↔
    p.closed = false ∧ (∃ s, (id, s) ∈ p.slots) ∧ id = id' := by
  rw [← contains_iff]
  unfold register
  cases hc : p.closed <;> cases hd : p.contains id <;> simp

theorem register_eq_closed (id : RequestId) (who : κ) (hc : p.closed = true) :
    p.register id who = .error .connectionClosed := by
  simp [register, hc]

/-- Registration fails on this side. -/
theorem register_ne_remote {e : ExchangeError} (h : p.register id who = .error e)
    (b : ErrorBody) : e ≠ .remote b := by
  unfold register at h
  split at h
  · cases h
    simp
  · split at h <;> cases h
    simp

theorem mem_slots_remove : (id', s) ∈ (p.remove id).1.slots ↔ (id', s) ∈ p.slots ∧ id' ≠ id := by
  simp [remove]

theorem Keyed.sublist (hk : p.Keyed) (h : q.slots.Sublist p.slots) : q.Keyed :=
  List.Nodup.sublist (h.map _) hk

theorem slots_remove_sublist (p : Pending κ) (id : RequestId) :
    (p.remove id).1.slots.Sublist p.slots :=
  List.filter_sublist

theorem Keyed.register (hk : p.Keyed) (h : ∀ s, (id, s) ∉ p.slots) :
    ({ p with slots := p.slots ++ [(id, who)] } : Pending κ).Keyed := by
  rw [Keyed, List.map_append]
  refine List.nodup_append.2 ⟨hk, List.nodup_singleton _, fun a ha b hb => ?_⟩
  obtain ⟨e, he, rfl⟩ := List.mem_map.1 ha
  obtain rfl := List.mem_singleton.1 hb
  exact fun hi => h e.2 (hi ▸ he)

theorem fulfill_of_none (h : p.slot? r.id = none) : p.fulfill r = (p, false) := by
  rw [slot?, Option.map_eq_none_iff] at h
  simp [fulfill, h]

theorem fulfill_of_some (h : p.slot? r.id = some s) :
    p.fulfill r = ({ (p.remove r.id).1 with mail := p.mail ++ [(s, .ok r)] }, true) := by
  obtain ⟨e, he, rfl⟩ := Option.map_eq_some_iff.1 h
  simp [fulfill, he]

variable [DecidableEq κ] {a : Except ExchangeError Response}

/-- What has come for a slot. -/
def mailOf? (p : Pending κ) (who : κ) : Option (Except ExchangeError Response) :=
  (p.mail.find? fun m => m.1 = who).map (·.2)

theorem mailOf?_eq_none : p.mailOf? who = none ↔ ∀ a, (who, a) ∉ p.mail := find?_fst_eq_none

theorem mem_of_mailOf? (h : p.mailOf? who = some a) : (who, a) ∈ p.mail := mem_of_find?_fst h

theorem look_of_some (h : p.mailOf? who = some a) :
    p.look who = ({ p with mail := p.mail.filter fun m => m.1 ≠ who }, .answer a) := by
  obtain ⟨m, hm, rfl⟩ := Option.map_eq_some_iff.1 h
  simp [look, hm]

theorem look_of_none (h : p.mailOf? who = none) :
    p.look who = (p, if p.slots.any fun s => s.2 = who then .waiting else .gone) := by
  rw [mailOf?, Option.map_eq_none_iff] at h
  simp [look, h]

end Parley.Pending
