import Parley.Message.Envelope
import Parley.Proofs.Json.Plain

namespace Parley.Json.Term

theorem named_ofMembers {name : String} {ms : Members} (h : (ms.map (·.1)).Nodup) :
    named name (ms.map fun m => (m.1, ofJson m.2)) = ((ms.lookup name).map ofJson).toList := by
  induction ms with
  | nil => rfl
  | cons m ms ih =>
      obtain ⟨k, v⟩ := m
      obtain ⟨hk, ht⟩ := List.nodup_cons.1 h
      have hs := ih ht
      unfold named at hs ⊢
      by_cases he : k = name
      · subst he
        have hl : ms.lookup k = none := by
          rw [List.lookup_eq_none_iff]
          intro m hm
          have hne : k ≠ m.1 := fun he => hk (List.mem_map.2 ⟨m, hm, he.symm⟩)
          simpa using hne
        rw [hl] at hs
        simp [hs]
      · have hn : (name == k) = false := by simpa using Ne.symm he
        simp [List.lookup_cons, hn, he, hs]

theorem text?_ofMembers (ms : Members) :
    (ofMembers ms).mapM (fun (k, t) => k.text?.map (·, t)) =
      some (ms.map fun m => (m.1, ofJson m.2)) := by
  induction ms with
  | nil => rfl
  | cons m ms ih =>
      obtain ⟨k, v⟩ := m
      rw [ofMembers, List.mapM_cons, ih]
      simp only [Literal.text?_ofString, Option.map_some]
      rfl

/-- The fields of a record that was written are its members. -/
theorem fields?_ofJson (names : List String) {ms : Members} (h : (ms.map (·.1)).Nodup) :
    fields? names (ofJson (.obj ms)) =
      some (names.map fun name => (ms.lookup name).map ofJson) := by
  rw [ofJson, fields?, text?_ofMembers]
  simp only [Option.bind_eq_bind, Option.bind_some]
  induction names with
  | nil => rfl
  | cons name names ih =>
      rw [List.mapM_cons, ih, named_ofMembers h, List.map_cons]
      cases ms.lookup name with
      | none => rfl
      | some v => rfl

theorem Whole.fields {names : List String} {t : Term} {fs : List (Option Term)} (h : t.Whole)
    (hf : fields? names t = some fs) : ∀ f ∈ fs, ∀ t ∈ f, t.Whole := by
  cases h with
  | object h =>
      rw [fields?] at hf
      obtain ⟨ms, hms, hf⟩ := Option.bind_eq_some_iff.1 hf
      intro f hm t ht
      obtain ⟨name, -, hn⟩ := mem_mapM? hf hm
      split at hn
      · cases hn
        cases ht
      · next t' hs =>
        cases hn
        cases ht
        have hmem : t ∈ named name ms := hs ▸ List.mem_cons_self
        obtain ⟨m, hf, rfl⟩ := List.mem_map.1 hmem
        obtain ⟨⟨k, t⟩, hk, hj⟩ := mem_mapM? hms (List.mem_filter.1 hf).1
        obtain ⟨name', -, rfl⟩ := Option.map_eq_some_iff.1 hj
        exact h (k, t) hk
      · cases hn
  | array h =>
      rw [fields?] at hf
      split at hf
      · cases hf
        intro f hm t ht
        rcases List.mem_append.1 hm with hm | hm
        · obtain ⟨t', ht', rfl⟩ := List.mem_map.1 hm
          cases ht
          exact h t ht'
        · cases (List.mem_replicate.1 hm).2
          cases ht
      · cases hf
  | _ => cases hf

theorem optional_some {α : Type} {read : Term → Option α} {t : Term} {a : α} (ht : t ≠ .null)
    (h : read t = some a) : optional read (some t) = some (some a) := by
  unfold optional
  split
  · next he => cases he
  · next he =>
    cases he
    exact absurd rfl ht
  · next he =>
    cases he
    rw [h, Option.map_some]

theorem of_optional {α : Type} {read : Term → Option α} {f : Option Term} {a : α}
    (h : optional read f = some (some a)) : ∃ t, f = some t ∧ t ≠ .null ∧ read t = some a := by
  unfold optional at h
  split at h
  · cases h
  · cases h
  · next t hn =>
    obtain ⟨a', ha, he⟩ := Option.map_eq_some_iff.1 h
    cases he
    exact ⟨t, rfl, hn, ha⟩

end Parley.Json.Term
