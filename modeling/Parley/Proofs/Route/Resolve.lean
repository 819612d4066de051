import Mathlib.Data.List.Basic
import Parley.Proofs.Route.Condition
import Parley.Route.Table

namespace Parley.Route

section Stable

variable {β κ : Type} [LinearOrder κ] (key : β → κ) {l : List β} {b : β} {bs : List β}

def byKey (l : List β) : List β := l.mergeSort fun a b => decide (key a ≤ key b)

theorem byKey_perm (l : List β) : (byKey key l).Perm l := List.mergeSort_perm l _

theorem key_trans (a b c : β) (hab : decide (key a ≤ key b) = true)
    (hbc : decide (key b ≤ key c) = true) : decide (key a ≤ key c) = true :=
  decide_eq_true ((of_decide_eq_true hab).trans (of_decide_eq_true hbc))

theorem key_total (a b : β) : (decide (key a ≤ key b) || decide (key b ≤ key a)) = true := by
  simpa using le_total (key a) (key b)

theorem byKey_pairwise (l : List β) : (byKey key l).Pairwise fun a b => key a ≤ key b :=
  (List.pairwise_mergeSort (key_trans key) (key_total key) l).imp of_decide_eq_true

theorem filter_byKey (k : κ) (l : List β) :
    (byKey key l).filter (fun e => key e = k) = l.filter fun e => key e = k := by
  have hp := (byKey_perm key l).filter fun e => decide (key e = k)
  have hs : (l.filter fun e => decide (key e = k)).Sublist (byKey key l) := by
    refine List.sublist_mergeSort (key_trans key) (key_total key) ?_ List.filter_sublist
    refine List.pairwise_of_forall_mem_list fun a ha b hb => ?_
    simp only [List.mem_filter, decide_eq_true_eq] at ha hb ⊢
    exact (ha.2.trans hb.2.symm).le
  -- Both are the elements of the key, so the sublist is the whole.
  have hf := hs.filter fun e => decide (key e = k)
  rw [List.filter_filter] at hf
  simp only [Bool.and_self] at hf
  exact (hf.eq_of_length hp.length_eq.symm).symm

theorem takeWhile_eq_filter (h : (b :: bs).Pairwise fun a b => key a ≤ key b) :
    (b :: bs).takeWhile (fun e => key e = key b) = (b :: bs).filter fun e => key e = key b := by
  generalize hk : key b = k
  have hb : ∀ e ∈ b :: bs, k ≤ key e := by
    intro e he
    rcases List.mem_cons.1 he with rfl | he
    · exact hk.ge
    · exact hk ▸ (List.pairwise_cons.1 h).1 e he
  -- That nothing is below `k` is all that the induction needs to know of the first element.
  clear hk
  generalize b :: bs = s at h hb ⊢
  induction s with
  | nil => rfl
  | cons x xs ih =>
      obtain ⟨hx, hxs⟩ := List.pairwise_cons.1 h
      by_cases he : key x = k
      · rw [List.takeWhile_cons_of_pos (by simpa using he), List.filter_cons_of_pos (by simpa using he),
          ih hxs fun e hm => hb e (List.mem_cons_of_mem _ hm)]
      · have hlt : k < key x := lt_of_le_of_ne (hb x List.mem_cons_self) (Ne.symm he)
        rw [List.takeWhile_cons_of_neg (by simpa using he), eq_comm, List.filter_eq_nil_iff]
        intro e hm
        rcases List.mem_cons.1 hm with rfl | hm
        · simpa using he
        · simpa using (hlt.trans_le (hx e hm)).ne'

/-- What stands at the front of a sorted list is what is least, in its old order. -/
theorem takeWhile_byKey (h : byKey key l = b :: bs) :
    (b :: bs).takeWhile (fun e => key e = key b) =
      l.filter fun e => ∀ e' ∈ l, key e ≤ key e' := by
  have hs := byKey_pairwise key l
  have hm (e : β) : e ∈ b :: bs ↔ e ∈ l := h ▸ (byKey_perm key l).mem_iff
  rw [h] at hs
  rw [takeWhile_eq_filter key hs, ← h, filter_byKey]
  refine List.filter_congr fun e he => decide_eq_decide.2 ⟨fun hk e' he' => ?_, fun hk => ?_⟩
  · rcases List.mem_cons.1 ((hm e').2 he') with rfl | he'
    · exact hk.le
    · exact hk.le.trans ((List.pairwise_cons.1 hs).1 e' he')
  · refine le_antisymm (hk b ((hm b).1 List.mem_cons_self)) ?_
    rcases List.mem_cons.1 ((hm e).2 he) with rfl | he
    · exact le_rfl
    · exact (List.pairwise_cons.1 hs).1 e he

end Stable

namespace Table

variable {α : Type} {t : Table α} {method : String} {best e : Mapping × α}
  {es : List (Mapping × α)}

def covering (t : Table α) (method : String) : List (Mapping × α) :=
  t.entries.filter fun e => e.1.methods.Covers method

def IsNarrowest (es : List (Mapping × α)) (method : String) (e : Mapping × α) : Prop :=
  e.1.methods.Covers method ∧
    ∀ e' ∈ es, e'.1.methods.Covers method → e.1.methods.breadth ≤ e'.1.methods.breadth

instance (es : List (Mapping × α)) (method : String) (e : Mapping × α) :
    Decidable (IsNarrowest es method e) := inferInstanceAs (Decidable (_ ∧ _))

def narrowest (t : Table α) (method : String) : List (Mapping × α) :=
  t.entries.filter fun e => IsNarrowest t.entries method e

/-- Which route a method has, by the narrowest ones. -/
def reference (t : Table α) (method : String) : Except Error α :=
  match t.narrowest method with
  | [] => .error (.notFound method)
  | [w] => .ok w.2
  | w :: w' :: ws =>
    match t.tieBreak with
    | .firstRegistered => .ok w.2
    | .reject => .error (.ambiguous method ((w :: w' :: ws).map fun e => e.1.display))

theorem ranked_eq (t : Table α) (method : String) :
    t.ranked method = byKey (fun e => e.1.methods.breadth) (t.covering method) := by
  have hf : (fun e : Mapping × α => e.1.admits method) =
      fun e => decide (e.1.methods.Covers method) := by
    funext e
    rw [Bool.eq_iff_iff, decide_eq_true_eq]
    exact Condition.admits_iff
  have hs : (fun a b : Mapping × α => a.1.compare b.1 != .gt) =
      fun a b => decide (a.1.methods.breadth ≤ b.1.methods.breadth) := by
    funext a b
    rw [Bool.eq_iff_iff, decide_eq_true_eq, bne_iff_ne]
    exact Condition.compare_ne_gt_iff
  rw [ranked, hf, hs, byKey, covering]

theorem narrowest_eq (t : Table α) (method : String) :
    t.narrowest method = (t.covering method).filter fun e =>
      decide (∀ e' ∈ t.covering method, e.1.methods.breadth ≤ e'.1.methods.breadth) := by
  rw [narrowest, covering, List.filter_filter]
  refine List.filter_congr fun e _ => ?_
  rw [← Bool.decide_and]
  refine decide_eq_decide.2 ?_
  simp only [IsNarrowest, List.mem_filter, decide_eq_true_eq, and_imp, and_comm]

theorem tied_eq (h : t.ranked method = best :: es) :
    (best :: es).takeWhile (fun e => best.1.compare e.1 = .eq) = t.narrowest method := by
  have hc : (fun e : Mapping × α => decide (best.1.compare e.1 = .eq)) =
      fun e => decide (e.1.methods.breadth = best.1.methods.breadth) := by
    funext e
    exact decide_eq_decide.2 (Condition.compare_eq_iff.trans eq_comm)
  rw [hc, narrowest_eq]
  exact takeWhile_byKey (fun e : Mapping × α => e.1.methods.breadth) (ranked_eq t method ▸ h)

theorem compare_self (m : Mapping) : m.compare m = .eq := Condition.compare_eq_iff.2 rfl

theorem narrowest_cons (h : t.ranked method = best :: es) :
    t.narrowest method =
      best :: es.takeWhile fun e => best.1.compare e.1 = .eq := by
  rw [← tied_eq h, List.takeWhile_cons_of_pos (by simpa using compare_self best.1)]

theorem mem_covering : e ∈ t.covering method ↔ e ∈ t.entries ∧ e.1.methods.Covers method := by
  rw [covering, List.mem_filter, decide_eq_true_eq]

theorem mem_narrowest : e ∈ t.narrowest method ↔ e ∈ t.entries ∧ IsNarrowest t.entries method e := by
  rw [narrowest, List.mem_filter, decide_eq_true_eq]

theorem covering_eq_nil_of_ranked (h : t.ranked method = []) : t.covering method = [] := by
  have hp := byKey_perm (fun e : Mapping × α => e.1.methods.breadth) (t.covering method)
  rw [← ranked_eq, h] at hp
  exact List.nil_perm.1 hp

theorem exists_narrowest (h : e ∈ t.entries) (hc : e.1.methods.Covers method) :
    ∃ w ∈ t.narrowest method, w.1.methods.breadth ≤ e.1.methods.breadth := by
  have he : e ∈ t.covering method := mem_covering.2 ⟨h, hc⟩
  cases hr : t.ranked method with
  | nil =>
      rw [covering_eq_nil_of_ranked hr] at he
      cases he
  | cons best es =>
      have hbest : best ∈ t.narrowest method := narrowest_cons hr ▸ List.mem_cons_self
      exact ⟨best, hbest, (mem_narrowest.1 hbest).2.2 e h hc⟩

theorem narrowest_eq_nil_iff :
    t.narrowest method = [] ↔ ∀ e ∈ t.entries, ¬e.1.methods.Covers method := by
  constructor
  · intro hn e he hc
    obtain ⟨w, hw, -⟩ := exists_narrowest he hc
    rw [hn] at hw
    cases hw
  · intro h
    refine List.eq_nil_iff_forall_not_mem.2 fun w hw => ?_
    obtain ⟨hw, hc, -⟩ := mem_narrowest.1 hw
    exact h w hw hc

theorem resolve_eq (t : Table α) (method : String) : t.resolve method = t.reference method := by
  rw [resolve, reference]
  split
  · next h => rw [narrowest_eq, covering_eq_nil_of_ranked h, List.filter_nil]
  · next best h => rw [narrowest_cons h, List.takeWhile_nil]
  · next best next rest h =>
    rw [narrowest_cons h]
    by_cases hn : best.1.compare next.1 = .eq
    · cases htb : t.tieBreak with
      | reject => simp [hn, compare_self]
      | firstRegistered => simp [hn]
    · simp [hn]

theorem resolve_notFound_iff :
    (∃ m, t.resolve method = .error (.notFound m)) ↔ t.narrowest method = [] := by
  rw [resolve_eq, reference]
  split
  · next h => simp [h]
  · next h => simp [h]
  · next h => cases t.tieBreak <;> simp [h]

theorem narrowest_of_sublist (hw : (t.narrowest method).Sublist es) (hs : es.Sublist t.entries) :
    narrowest { t with entries := es } method = t.narrowest method := by
  have hn : narrowest { t with entries := es } method =
      es.filter fun e => IsNarrowest t.entries method e := by
    refine List.filter_congr fun e he => decide_eq_decide.2 ?_
    constructor
    · rintro ⟨hc, hmin⟩
      -- A route that is left out is no narrower than one that is left in.
      refine ⟨hc, fun e' he' hc' => ?_⟩
      obtain ⟨w, hw', hle⟩ := exists_narrowest he' hc'
      exact (hmin w (hw.subset hw') (mem_narrowest.1 hw').2.1).trans hle
    · rintro ⟨hc, hmin⟩
      exact ⟨hc, fun e' he' hc' => hmin e' (hs.subset he') hc'⟩
  rw [hn]
  refine (hs.filter _).antisymm ?_
  have hf := hw.filter fun e => decide (IsNarrowest t.entries method e)
  rw [narrowest, List.filter_filter] at hf
  simpa only [Bool.and_self] using hf

theorem narrowest_perm (h : es.Perm t.entries) :
    (narrowest { t with entries := es } method).Perm (t.narrowest method) := by
  have hn : narrowest { t with entries := es } method =
      es.filter fun e => IsNarrowest t.entries method e := by
    refine List.filter_congr fun e he => decide_eq_decide.2 ?_
    simp only [IsNarrowest, h.mem_iff]
  rw [hn]
  exact h.filter _

theorem reference_eq_ok_iff {a : α} (h : t.tieBreak = .reject) :
    t.reference method = .ok a ↔ ∃ m, t.narrowest method = [(m, a)] := by
  rw [reference, h]
  split
  · next hn => simp [hn]
  · next w hn =>
    rw [hn]
    constructor
    · intro he
      cases he
      exact ⟨w.1, rfl⟩
    · rintro ⟨m, hm⟩
      cases hm
      rfl
  · next hn => simp [hn]

theorem foldl_register (t : Table α) (es : List (Mapping × α)) :
    es.foldl (fun u r => u.register r.1 r.2) t = { t with entries := t.entries ++ es } := by
  induction es generalizing t with
  | nil => simp
  | cons e es ih =>
      rw [List.foldl_cons, ih]
      simp [register]

/-- The choice of a route: it is that of the reference, it fails for want of a route when none is
for the method, the routes that are not among the narrowest have no part in it, and when ties are
rejected the winner is the same in whatever order the routes were registered, which is that of the
entries. -/
theorem resolve_narrowest (t : Table α) (method : String) :
    t.resolve method = t.reference method ∧
    ((∃ m, t.resolve method = .error (.notFound m)) ↔
      ∀ e ∈ t.entries, e.1.methods.names ≠ [] ∧ method ∉ e.1.methods.names) ∧
    (∀ es : List (Mapping × α), (t.narrowest method).Sublist es → es.Sublist t.entries →
      resolve { t with entries := es } method = t.resolve method) ∧
    (t.tieBreak = .reject → ∀ es : List (Mapping × α), es.Perm t.entries → ∀ a,
      t.resolve method = .ok a → resolve { t with entries := es } method = .ok a) ∧
    t.entries.foldl (fun u r => u.register r.1 r.2) { tieBreak := t.tieBreak } = t := by
  refine ⟨resolve_eq t method, ?_, fun es hw hs => ?_, fun hr es hp a ha => ?_,
    foldl_register { tieBreak := t.tieBreak } t.entries⟩
  · rw [resolve_notFound_iff, narrowest_eq_nil_iff]
    simp only [Condition.Covers, not_or, ne_eq]
  · rw [resolve_eq, resolve_eq, reference, reference, narrowest_of_sublist hw hs]
  · rw [resolve_eq, reference_eq_ok_iff hr] at ha
    obtain ⟨m, hm⟩ := ha
    rw [resolve_eq, reference_eq_ok_iff (t := { t with entries := es }) hr]
    exact ⟨m, List.perm_singleton.1 (hm ▸ narrowest_perm hp)⟩

def sample : Table Nat where
  entries := [(.any, 0), (.ofMethods ["a", "b"], 1), (.ofMethod "a", 2), (.any, 3)]

theorem resolve_narrowest_of_sample :
    resolve { sample with entries := [(.any, 0), (.ofMethod "a", 2)] } "a" = .ok 2 ∧
    resolve { sample with entries := sample.entries.reverse } "a" = .ok 2 := by
  have hw : sample.resolve "a" = .ok 2 := by
    rw [(resolve_narrowest sample "a").1]
    decide +kernel
  refine ⟨?_, ?_⟩
  · rw [← hw]
    exact (resolve_narrowest sample "a").2.2.1 _ (by decide +kernel) (by decide +kernel)
  · exact (resolve_narrowest sample "a").2.2.2.1 rfl _ (List.reverse_perm _) _ hw

end Table

end Parley.Route
