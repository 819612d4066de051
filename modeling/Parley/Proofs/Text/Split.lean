import Parley.Text.Split

namespace Parley.Text

variable {α : Type} [DecidableEq α] {a : α} {sep l before after rest : List α}

theorem cut_sound (h : cut sep l = some (before, after)) : l = before ++ sep ++ after := by
  induction l generalizing before after with
  | nil =>
      rw [cut] at h
      split at h
      · next hs =>
        cases h
        simpa using hs
      · cases h
  | cons x l ih =>
      rw [cut] at h
      split at h
      · next hp =>
        cases h
        obtain ⟨t, ht⟩ := List.isPrefixOf_iff_prefix.1 hp
        rw [← ht]
        simp
      · obtain ⟨⟨b, r⟩, hc, he⟩ := Option.map_eq_some_iff.1 h
        cases he
        rw [ih hc]
        rfl

theorem cut_append (h : a ∉ before) :
    cut (a :: sep) (before ++ (a :: sep) ++ rest) = some (before, rest) := by
  induction before with
  | nil =>
      have hp : (a :: sep).isPrefixOf (a :: (sep ++ rest)) = true :=
        List.isPrefixOf_iff_prefix.2 ⟨rest, rfl⟩
      rw [List.nil_append, List.cons_append, cut, if_pos hp]
      simp
  | cons x before ih =>
      have hx : a ≠ x := fun e => h (e ▸ List.mem_cons_self)
      have hp : ¬(a :: sep).isPrefixOf (x :: (before ++ (a :: sep) ++ rest)) = true := fun hp => by
        obtain ⟨t, ht⟩ := List.isPrefixOf_iff_prefix.1 hp
        exact hx (List.cons.inj ht).1
      simp only [List.cons_append] at hp ⊢
      rw [cut, if_neg hp]
      have hc := ih fun hm => h (List.mem_cons_of_mem _ hm)
      simp only [List.cons_append, List.append_assoc] at hc ⊢
      rw [hc]
      rfl

theorem cut_append_left (h : a ∉ before) : cut (a :: sep) (before ++ l) =
    (cut (a :: sep) l).map fun p => (before ++ p.1, p.2) := by
  induction before with
  | nil => exact Option.map_id'.symm
  | cons x before ih =>
      have hp : ¬(a :: sep).isPrefixOf (x :: (before ++ l)) = true := fun hp => by
        obtain ⟨t, ht⟩ := List.isPrefixOf_iff_prefix.1 hp
        exact h ((List.cons.inj ht).1 ▸ List.mem_cons_self)
      rw [List.cons_append, cut, if_neg hp, ih fun hm => h (List.mem_cons_of_mem _ hm),
        Option.map_map]
      rfl

theorem cut_eq_none (h : a ∉ before) (hl : l ++ rest = before ++ a :: sep) (hr : rest ≠ []) :
    cut (a :: sep) l = none := by
  cases hc : cut (a :: sep) l with
  | none => rfl
  | some p =>
      obtain ⟨x, y⟩ := p
      have he : x ++ (a :: (sep ++ (y ++ rest))) = before ++ a :: sep := by
        rw [← hl, cut_sound hc]
        simp
      have hlen : x.length < before.length := by
        have hr' := List.length_pos_iff.2 hr
        have := congrArg List.length he
        simp only [List.length_append, List.length_cons] at this
        omega
      have hx : (x ++ (a :: (sep ++ (y ++ rest))))[x.length]? = some a := by simp
      rw [he, List.getElem?_append_left hlen] at hx
      exact absurd (List.mem_of_getElem? hx) h

theorem cut_append_rest (h : cut sep l = some (before, after)) :
    cut sep (l ++ rest) = some (before, after ++ rest) := by
  induction l generalizing before with
  | nil =>
      cases sep with
      | nil =>
          cases h
          cases rest <;> simp [cut]
      | cons => cases h
  | cons x l ih =>
      rw [cut] at h
      rw [List.cons_append, cut]
      split at h
      · next hp =>
        cases h
        have hs := List.isPrefixOf_iff_prefix.1 hp
        have hp' : sep.isPrefixOf (x :: (l ++ rest)) = true :=
          List.isPrefixOf_iff_prefix.2 (hs.trans (List.prefix_append (x :: l) rest))
        rw [if_pos hp', ← List.cons_append, List.drop_append_of_le_length hs.length_le]
      · next hp =>
        obtain ⟨⟨b, r⟩, hc, he⟩ := Option.map_eq_some_iff.1 h
        cases he
        have hlen := length_cut hc
        have hp' : ¬sep.isPrefixOf (x :: (l ++ rest)) = true := by
          intro hpre
          refine hp (List.isPrefixOf_iff_prefix.2 ?_)
          refine List.prefix_of_prefix_length_le (List.isPrefixOf_iff_prefix.1 hpre)
            (List.prefix_append (x :: l) rest) ?_
          simp only [List.length_cons]
          omega
        rw [if_neg hp', ih hc]
        rfl

/-- Where a list holds no separator, one that it holds together with what comes behind it ends
there. -/
theorem length_lt_of_cut (hl : cut sep l = none)
    (h : cut sep (l ++ rest) = some (before, after)) : l.length < before.length + sep.length := by
  induction l generalizing before with
  | nil =>
      cases sep with
      | nil => cases hl
      | cons a as =>
          simp only [List.length_nil, List.length_cons]
          omega
  | cons x l ih =>
      rw [cut] at hl
      rw [List.cons_append, cut] at h
      split at hl
      · cases hl
      · next hp =>
        split at h
        · next hpre =>
          cases h
          refine Nat.lt_of_not_le fun hle => hp (List.isPrefixOf_iff_prefix.2 ?_)
          exact List.prefix_of_prefix_length_le (List.isPrefixOf_iff_prefix.1 hpre)
            (List.prefix_append (x :: l) rest) (by simpa using hle)
        · obtain ⟨⟨b, r⟩, hc, he⟩ := Option.map_eq_some_iff.1 h
          cases he
          have := ih (Option.map_eq_none_iff.1 hl) hc
          simp only [List.length_cons]
          omega

theorem cut_eq_none_iff : cut sep l = none ↔ ¬sep <:+: l := by
  induction l with
  | nil => simp [cut]
  | cons x l ih =>
      rw [cut, List.infix_cons_iff, ← List.isPrefixOf_iff_prefix]
      split
      · next hp => simp [hp]
      · next hp => simp [hp, ih]

theorem exists_cut (sep before after : List α) :
    ∃ x y, cut sep (before ++ sep ++ after) = some (x, y) ∧ x.length ≤ before.length := by
  cases h : cut sep (before ++ sep) with
  | none => exact absurd (List.infix_append before sep []) (by simpa using cut_eq_none_iff.1 h)
  | some p =>
      obtain ⟨x, y⟩ := p
      have hl := length_cut h
      rw [List.length_append] at hl
      exact ⟨x, y ++ after, cut_append_rest h, by omega⟩

theorem cut_eq_some_iff : cut sep l = some (before, after) ↔
    l = before ++ sep ++ after ∧ ∀ x y, before ++ sep = x ++ sep ++ y → y = [] := by
  constructor
  · intro h
    refine ⟨cut_sound h, fun x y he => ?_⟩
    obtain ⟨x', y', hc, hx⟩ := exists_cut sep x (y ++ after)
    rw [← List.append_assoc, ← he, ← cut_sound h, h] at hc
    obtain ⟨rfl, -⟩ := Prod.mk.inj (Option.some.inj hc)
    have := congrArg List.length he
    simp only [List.length_append] at this
    exact List.eq_nil_of_length_eq_zero (by omega)
  · rintro ⟨rfl, h⟩
    obtain ⟨x, y, hc, -⟩ := exists_cut sep before []
    rw [List.append_nil] at hc
    have he := cut_sound hc
    obtain rfl := h x y he
    rw [List.append_nil] at he
    rw [cut_append_rest hc, List.append_cancel_right he, List.nil_append]

theorem cut_singleton_eq_none : cut [a] l = none ↔ a ∉ l := by
  refine cut_eq_none_iff.trans (not_congr ⟨fun h => h.subset List.mem_cons_self, fun h => ?_⟩)
  obtain ⟨x, y, rfl⟩ := List.append_of_mem h
  exact ⟨x, y, by simp⟩

theorem cut_singleton :
    cut [a] l = some (before, after) ↔ a ∉ before ∧ l = before ++ a :: after := by
  constructor
  · intro h
    refine ⟨fun hm => ?_, by simpa using cut_sound h⟩
    obtain ⟨x, y, rfl, hx⟩ := List.eq_append_cons_of_mem hm
    have hl : l = x ++ [a] ++ (y ++ a :: after) := by simpa using cut_sound h
    rw [hl, cut_append hx] at h
    obtain ⟨he, -⟩ := Prod.mk.inj (Option.some.inj h)
    simp at he
  · rintro ⟨hb, rfl⟩
    have hl : before ++ a :: after = before ++ [a] ++ after := by simp
    rw [hl, cut_append hb]

variable {b : α} {ls : List (List α)}

theorem cut_pair (hab : a ≠ b) (h : ¬[a, b] <:+: l) (rest : List α) :
    cut [a, b] (l ++ [a, b] ++ rest) = some (l, rest) := by
  refine cut_eq_some_iff.2 ⟨rfl, fun x y he => ?_⟩
  have hr := congrArg List.reverse he
  simp only [List.reverse_append, List.reverse_cons, List.reverse_nil, List.nil_append,
    List.cons_append] at hr
  -- An occurrence further left would end with the first half of this one, or lie within `l`.
  match hy : y.reverse with
  | [] => exact List.reverse_eq_nil_iff.1 hy
  | [c] =>
      rw [hy] at hr
      exact absurd (List.cons.inj (List.cons.inj hr).2).1 hab
  | c :: d :: z =>
      rw [hy] at hr
      have hl := congrArg List.reverse (List.cons.inj (List.cons.inj hr).2).2
      rw [List.reverse_reverse] at hl
      exact absurd ⟨x, z.reverse, by simp [hl]⟩ h

omit [DecidableEq α] in
theorem not_pair {x y : α} (h : ¬[a, b] <:+: x :: y :: l) : ¬(x = a ∧ y = b) := by
  rintro ⟨rfl, rfl⟩
  exact h ⟨[], l, rfl⟩

theorem pieces_eq_singleton (h : ¬[a, b] <:+: l) : pieces a b l = [l] := by
  induction l with
  | nil => rfl
  | cons x l ih =>
      have hl := ih fun hi => h (List.infix_cons hi)
      cases l with
      | nil => rfl
      | cons y l =>
          rw [pieces, if_neg (not_pair h), hl]

theorem pieces_of_not_mem (h : a ∉ l) : pieces a b l = [l] :=
  pieces_eq_singleton fun hi => h (hi.subset List.mem_cons_self)

/-- A pair that the list before it does not hold is the first one, since its halves differ. -/
theorem pieces_append_pair (hab : a ≠ b) (h : ¬[a, b] <:+: l) (rest : List α) :
    pieces a b (l ++ [a, b] ++ rest) = l :: pieces a b rest := by
  induction l with
  | nil => rw [List.nil_append, List.cons_append, List.cons_append, List.nil_append, pieces,
      if_pos ⟨rfl, rfl⟩]
  | cons x l ih =>
      have hl := ih fun hi => h (List.infix_cons hi)
      cases l with
      | nil =>
          have hx : ¬(x = a ∧ a = b) := fun hx => hab hx.2
          simp only [List.cons_append, List.nil_append] at hl ⊢
          rw [pieces, if_neg hx, hl]
      | cons y l =>
          simp only [List.cons_append] at hl ⊢
          rw [pieces, if_neg (not_pair h), hl]

theorem pieces_intercalate (hab : a ≠ b) (hne : ls ≠ []) (h : ∀ l ∈ ls, ¬[a, b] <:+: l) :
    pieces a b ([a, b].intercalate ls) = ls := by
  induction ls with
  | nil => exact absurd rfl hne
  | cons l ls ih =>
      obtain ⟨hl, hls⟩ := List.forall_mem_cons.1 h
      cases ls with
      | nil => rw [List.intercalate_singleton, pieces_eq_singleton hl]
      | cons l' ls =>
          rw [List.intercalate_cons_cons, pieces_append_pair hab hl,
            ih (List.cons_ne_nil l' ls) hls]

end Parley.Text
