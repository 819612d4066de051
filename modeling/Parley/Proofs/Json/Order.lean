import Parley.Json.Basic

namespace Parley.Json

/-- Each name once, in ascending order. -/
def Ascending (ms : Members) : Prop := ms.Pairwise fun m m' => m.1 < m'.1

theorem mem_insert {k : String} {v : Json} {ms : Members} {m : String × Json}
    (h : m ∈ insert k v ms) : m = (k, v) ∨ m ∈ ms := by
  induction ms with
  | nil => exact .inl (List.mem_singleton.1 h)
  | cons m' ms ih =>
      obtain ⟨l, w⟩ := m'
      rw [insert] at h
      split at h
      · rcases List.mem_cons.1 h with h | h
        · exact .inl h
        · exact .inr (List.mem_cons_of_mem _ h)
      · split at h
        · exact List.mem_cons.1 h
        · rcases List.mem_cons.1 h with rfl | h
          · exact .inr List.mem_cons_self
          · exact (ih h).imp id (List.mem_cons_of_mem _)

theorem ascending_insert {ms : Members} (k : String) (v : Json) (h : Ascending ms) :
    Ascending (insert k v ms) := by
  induction ms with
  | nil => exact List.pairwise_singleton _ _
  | cons m ms ih =>
      obtain ⟨l, w⟩ := m
      obtain ⟨hm, ht⟩ := List.pairwise_cons.1 h
      rw [insert]
      split
      · next he =>
        subst he
        exact List.pairwise_cons.2 ⟨hm, ht⟩
      · next hne =>
        split
        · next hlt =>
          refine List.pairwise_cons.2 ⟨fun m hc => ?_, h⟩
          rcases List.mem_cons.1 hc with rfl | hc
          · exact hlt
          · exact Std.lt_trans hlt (hm m hc)
        · next hge =>
          refine List.pairwise_cons.2 ⟨fun m hc => ?_, ih ht⟩
          rcases mem_insert hc with rfl | hc
          · exact Std.lt_of_le_of_ne hge (Ne.symm hne)
          · exact hm m hc

theorem insert_of_lt {k : String} {v : Json} {ms : Members} (h : ∀ m ∈ ms, m.1 < k) :
    insert k v ms = ms ++ [(k, v)] := by
  induction ms with
  | nil => rfl
  | cons m ms ih =>
      obtain ⟨l, w⟩ := m
      have hl : l < k := h (l, w) List.mem_cons_self
      have hne : k ≠ l := fun he => Std.lt_irrefl (he ▸ hl)
      have hge : ¬k < l := fun hk => Std.lt_irrefl (Std.lt_trans hk hl)
      rw [insert, if_neg hne, if_neg hge, ih fun m hm => h m (List.mem_cons_of_mem _ hm)]
      rfl

theorem lookup_member (n l : String) (w : Json) (ms : Members) :
    List.lookup n ((l, w) :: ms) = if n = l then some w else ms.lookup n := by
  by_cases hn : n = l
  · simp [hn]
  · simp [List.lookup_cons, beq_eq_false_iff_ne.2 hn, hn]

theorem lookup_insert (k n : String) (v : Json) (ms : Members) :
    (insert k v ms).lookup n = if n = k then some v else ms.lookup n := by
  induction ms with
  | nil => exact lookup_member n k v []
  | cons m ms ih =>
      obtain ⟨l, w⟩ := m
      rw [insert]
      split
      · next he =>
        subst he
        simp only [lookup_member]
        split <;> rfl
      · next hne =>
        split
        · exact lookup_member n k v _
        · simp only [lookup_member, ih]
          by_cases hn : n = l
          · subst hn
            rw [if_pos rfl, if_pos rfl, if_neg (Ne.symm hne)]
          · rw [if_neg hn, if_neg hn]

theorem lookup_erase (k n : String) (ms : Members) :
    (erase k ms).lookup n = if n = k then none else ms.lookup n := by
  simp only [erase]
  induction ms with
  | nil => simp
  | cons m ms ih =>
      obtain ⟨l, w⟩ := m
      by_cases hl : l = k
      · rw [List.filter_cons_of_neg (by simp [hl]), ih, lookup_member]
        split
        · rfl
        · next hn => rw [if_neg (hl ▸ hn)]
      · rw [List.filter_cons_of_pos (by simp [hl]), lookup_member, lookup_member, ih]
        split
        · next hn => rw [if_neg (hn ▸ hl)]
        · rfl

theorem mem_sorted {ms : Members} {m : String × Json} (h : m ∈ sorted ms) : m ∈ ms := by
  have hf : ∀ acc : Members, m ∈ ms.foldl (fun acc m => insert m.1 m.2 acc) acc →
      m ∈ acc ∨ m ∈ ms := by
    clear h
    induction ms with
    | nil => exact fun _ h => .inl h
    | cons m' ms ih =>
        intro acc h
        rcases ih _ h with h | h
        · rcases mem_insert h with rfl | h
          · exact .inr List.mem_cons_self
          · exact .inl h
        · exact .inr (List.mem_cons_of_mem _ h)
  rcases hf [] h with h | h
  · cases h
  · exact h

theorem ascending_sorted (ms : Members) : Ascending (sorted ms) := by
  have hf : ∀ acc : Members, Ascending acc →
      Ascending (ms.foldl (fun acc m => insert m.1 m.2 acc) acc) := by
    induction ms with
    | nil => exact fun _ h => h
    | cons m ms ih => exact fun acc h => ih _ (ascending_insert m.1 m.2 h)
  exact hf [] List.Pairwise.nil

theorem sorted_of_ascending {ms : Members} (h : Ascending ms) : sorted ms = ms := by
  have hf : ∀ acc : Members, Ascending (acc ++ ms) →
      ms.foldl (fun acc m => insert m.1 m.2 acc) acc = acc ++ ms := by
    clear h
    induction ms with
    | nil => simp
    | cons m ms ih =>
        intro acc h
        have hl : ∀ m' ∈ acc, m'.1 < m.1 := fun m' hm =>
          (List.pairwise_append.1 h).2.2 m' hm m List.mem_cons_self
        rw [← List.singleton_append, ← List.append_assoc] at h ⊢
        rw [List.singleton_append, List.foldl_cons, insert_of_lt hl]
        exact ih _ h
  exact hf [] h

end Parley.Json
