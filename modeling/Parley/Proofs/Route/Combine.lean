import Mathlib.Data.List.Induction
import Parley.Proofs.Route.Condition

namespace Parley.Route

namespace Condition

variable {a b c a' b' : Condition} {l : List String} {method name : String}

theorem eq_of_names (h : a.names = b.names) : a = b := by
  cases a
  cases h
  rfl

theorem names_add (c : Condition) (name : String) :
    (c.add name).names = if name ∈ c.names then c.names else c.names ++ [name] := by
  rw [add]
  split <;> rfl

theorem add_of_mem (h : name ∈ c.names) : c.add name = c := by
  rw [add, dif_pos h]

theorem mem_add : method ∈ (c.add name).names ↔ method ∈ c.names ∨ method = name := by
  rw [names_add]
  split
  · next h => exact ⟨.inl, fun hm => hm.elim id fun he => he ▸ h⟩
  · rw [List.mem_append, List.mem_singleton]

theorem mem_foldl_add : method ∈ (l.foldl add c).names ↔ method ∈ c.names ∨ method ∈ l := by
  induction l generalizing c with
  | nil => simp
  | cons name l ih => rw [List.foldl_cons, ih, mem_add, List.mem_cons, or_assoc]

theorem foldl_add_of_subset (h : l ⊆ c.names) : l.foldl add c = c := by
  induction l with
  | nil => rfl
  | cons name l ih =>
      obtain ⟨hn, hl⟩ := List.cons_subset.1 h
      rw [List.foldl_cons, add_of_mem hn, ih hl]

theorem mem_ofList : method ∈ (ofList l).names ↔ method ∈ l := by
  rw [ofList, mem_foldl_add]
  exact or_iff_right List.not_mem_nil

theorem ofList_append_singleton (l : List String) (name : String) :
    ofList (l ++ [name]) = (ofList l).add name :=
  List.foldl_append

theorem names_ofList (l : List String) : (ofList l).names = l.eraseDups := by
  induction l using List.reverseRecOn with
  | nil => rfl
  | append_singleton l name ih =>
      rw [ofList_append_singleton, names_add, ih, List.eraseDups_append]
      by_cases h : name ∈ l
      · simp [List.removeAll, h]
      · simp [List.removeAll, List.eraseDups_cons, h]

theorem names_ofList_of_nodup (h : l.Nodup) : (ofList l).names = l := by
  induction l using List.reverseRecOn with
  | nil => rfl
  | append_singleton l name ih =>
      obtain ⟨hl, -, hn⟩ := List.nodup_append.1 h
      have hn' : name ∉ l := fun hm => hn name hm name (List.mem_singleton_self name) rfl
      rw [ofList_append_singleton, names_add, if_neg (mt mem_ofList.1 hn'), ih hl]

theorem ofList_names (c : Condition) : ofList c.names = c :=
  eq_of_names (names_ofList_of_nodup c.nodup)

theorem mem_combine : method ∈ (a.combine b).names ↔ method ∈ a.names ∨ method ∈ b.names :=
  mem_foldl_add

/-- Names that a condition was given one by one are added by it like the list of them. -/
theorem foldl_add_names (a c : Condition) (l : List String) :
    (l.foldl add c).names.foldl add a = l.foldl add (c.names.foldl add a) := by
  induction l generalizing c with
  | nil => rfl
  | cons name l ih =>
      rw [List.foldl_cons, List.foldl_cons, ih, names_add]
      split
      · next h => rw [add_of_mem (mem_foldl_add.2 (.inr h))]
      · rw [List.foldl_append, List.foldl_cons, List.foldl_nil]

theorem combine_assoc (a b c : Condition) : (a.combine b).combine c = a.combine (b.combine c) :=
  (foldl_add_names a b c.names).symm

theorem combine_ofList (l l' : List String) :
    (ofList l).combine (ofList l') = ofList (l ++ l') := by
  rw [combine, ofList, ofList, ofList, foldl_add_names, List.foldl_append]
  rfl

theorem combine_self (a : Condition) : a.combine a = a := foldl_add_of_subset (List.Subset.refl _)

theorem combine_any (a : Condition) : a.combine any = a := rfl

theorem any_combine (a : Condition) : any.combine a = a := ofList_names a

theorem combine_eq_nil : (a.combine b).names = [] ↔ a.names = [] ∧ b.names = [] := by
  simp only [List.eq_nil_iff_forall_not_mem, mem_combine, not_or, forall_and]

theorem admits_combine (ha : a.names ≠ []) (hb : b.names ≠ []) :
    (a.combine b).admits method = true ↔ a.admits method = true ∨ b.admits method = true := by
  have hc : (a.combine b).names ≠ [] := fun h => ha (combine_eq_nil.1 h).1
  simp only [admits_iff, Covers, ha, hb, hc, false_or, mem_combine]

theorem isLE_compare : (a.compare b).isLE ↔ a.breadth ≤ b.breadth :=
  Ordering.isLE_iff_ne_gt.trans compare_ne_gt_iff

theorem compare_eq_gt_iff : a.compare b = .gt ↔ b.breadth < a.breadth := by
  rw [← not_le, ← compare_ne_gt_iff, ne_eq, not_not]

theorem compare_eq_lt_iff : a.compare b = .lt ↔ a.breadth < b.breadth := by
  rw [lt_iff_le_and_ne, ← compare_ne_gt_iff, ne_eq a.breadth, ← compare_eq_iff]
  cases a.compare b <;> simp

theorem compare_swap (a b : Condition) : b.compare a = (a.compare b).swap := by
  cases h : a.compare b with
  | lt => exact compare_eq_gt_iff.2 (compare_eq_lt_iff.1 h)
  | eq => exact compare_eq_iff.2 (compare_eq_iff.1 h).symm
  | gt => exact compare_eq_lt_iff.2 (compare_eq_gt_iff.1 h)

theorem breadth_congr (h : a.names.toFinset = b.names.toFinset) : a.breadth = b.breadth := by
  have hn : a.names = [] ↔ b.names = [] := by
    rw [← List.toFinset_eq_empty_iff, h, List.toFinset_eq_empty_iff]
  rw [breadth, breadth, h]
  simp only [hn]

theorem compare_congr (ha : a.names.toFinset = a'.names.toFinset)
    (hb : b.names.toFinset = b'.names.toFinset) : a.compare b = a'.compare b' := by
  have hl := breadth_congr ha
  have hr := breadth_congr hb
  cases h : a'.compare b' with
  | lt => rwa [compare_eq_lt_iff, hl, hr, ← compare_eq_lt_iff]
  | eq => rwa [compare_eq_iff, hl, hr, ← compare_eq_iff]
  | gt => rwa [compare_eq_gt_iff, hl, hr, ← compare_eq_gt_iff]

theorem compare_any (h : a.names ≠ []) : a.compare any = .lt := by
  rw [compare_eq_lt_iff, breadth_of_any (c := any) rfl, breadth_of_names h]
  exact WithTop.coe_lt_top _

theorem compare_ne_lt_of_subset (ha : a.names ≠ []) (h : a.names ⊆ b.names) :
    b.compare a ≠ .lt := by
  have hb : b.names ≠ [] := fun hb => ha (List.subset_nil.1 (hb ▸ h))
  have hs : a.names.toFinset ⊆ b.names.toFinset := fun x hx =>
    List.mem_toFinset.2 (h (List.mem_toFinset.1 hx))
  rw [ne_eq, compare_eq_lt_iff, not_lt, breadth, breadth, if_neg ha, if_neg hb]
  exact WithTop.coe_le_coe.2 (Finset.card_le_card hs)

end Condition

/-- How a condition, or a mapping, is put together. -/
inductive Recipe
  | any
  | names (l : List String)
  | combine (outer inner : Recipe)

namespace Recipe

def condition : Recipe → Condition
  | any => .any
  | names l => .ofList l
  | combine p q => p.condition.combine q.condition

def mapping : Recipe → Mapping
  | any => .any
  | names l => .ofMethods l
  | combine p q => p.mapping.combine q.mapping

def given : Recipe → List String
  | any => []
  | names l => l
  | combine p q => p.given ++ q.given

theorem condition_eq (p : Recipe) : p.condition = .ofList p.given := by
  induction p with
  | any => rfl
  | names l => rfl
  | combine p q hp hq => rw [condition, hp, hq, Condition.combine_ofList, given]

theorem methods_mapping (p : Recipe) : p.mapping.methods = p.condition := by
  induction p with
  | any => rfl
  | names l => rfl
  | combine p q hp hq => rw [mapping, Mapping.combine, hp, hq, condition]

/-- The algebra of conditions. One that was put together has the names that it was given, each once;
combination is associative and idempotent, with the condition for every method as its unit; methods
of either part are methods of the whole; the order by specificity is a total preorder on the sets of
names with the condition for every method strictly last, and a combination with a condition that has
names is no more specific than this one. Mappings are combined, admit methods and are compared as
their conditions are. -/
theorem conditions_lawful (p q : Recipe) (a b c a' b' : Condition) (method : String) :
    (p.condition.names.Nodup ∧ p.condition.names = p.given.eraseDups ∧
      ∃ r : Recipe, r.condition = a) ∧
    ((a.combine b).combine c = a.combine (b.combine c) ∧ a.combine a = a ∧
      Condition.any.combine a = a ∧ a.combine .any = a) ∧
    (a.names ≠ [] → b.names ≠ [] →
      ((a.combine b).admits method = true ↔ a.admits method = true ∨ b.admits method = true)) ∧
    (((a.compare b).isLE ∨ (b.compare a).isLE) ∧
      ((a.compare b).isLE → (b.compare c).isLE → (a.compare c).isLE) ∧
      b.compare a = (a.compare b).swap) ∧
    (a.names.toFinset = a'.names.toFinset → b.names.toFinset = b'.names.toFinset →
      a.compare b = a'.compare b') ∧
    (a.names ≠ [] → a.compare .any = .lt ∧ Condition.any.compare a = .gt) ∧
    (a.names ≠ [] → (a.combine b).compare a ≠ .lt ∧ (b.combine a).compare a ≠ .lt) ∧
    ((p.mapping.combine q.mapping).methods = p.condition.combine q.condition ∧
      p.mapping.admits method = p.condition.admits method ∧
      p.mapping.compare q.mapping = p.condition.compare q.condition) := by
  refine ⟨⟨p.condition.nodup, ?_, .names a.names, Condition.ofList_names a⟩,
    ⟨Condition.combine_assoc a b c, Condition.combine_self a, Condition.any_combine a,
      Condition.combine_any a⟩, Condition.admits_combine, ⟨?_, ?_, Condition.compare_swap a b⟩,
    Condition.compare_congr, ?_, ?_, ?_⟩
  · rw [condition_eq, Condition.names_ofList]
  · rw [Condition.isLE_compare, Condition.isLE_compare]
    exact le_total a.breadth b.breadth
  · simp only [Condition.isLE_compare]
    exact le_trans
  · intro h
    refine ⟨Condition.compare_any h, ?_⟩
    rw [Condition.compare_swap a, Condition.compare_any h]
    rfl
  · intro h
    exact ⟨Condition.compare_ne_lt_of_subset h fun x hx => Condition.mem_combine.2 (.inl hx),
      Condition.compare_ne_lt_of_subset h fun x hx => Condition.mem_combine.2 (.inr hx)⟩
  · rw [Mapping.combine, Mapping.admits, Mapping.compare, methods_mapping, methods_mapping]
    exact ⟨rfl, rfl, rfl⟩

theorem conditions_lawful_of_overlapping :
    let a := Condition.ofList ["a", "b"]
    let b := Condition.ofList ["b", "c", "d"]
    let a' := Condition.ofList ["b", "a", "b"]
    let b' := Condition.ofList ["d", "c", "b", "c"]
    (a.names ≠ [] ∧ b.names ≠ [] ∧ (a.compare b).isLE ∧ (b.compare .any).isLE ∧
      a.names.toFinset = a'.names.toFinset ∧ b.names.toFinset = b'.names.toFinset) ∧
    ((a.combine b).admits "c" = true ∧ (a.compare .any).isLE ∧ a.compare b = a'.compare b' ∧
      a.compare .any = .lt ∧ (a.combine b).compare a ≠ .lt) := by
  intro a b a' b'
  have ha : a.names ≠ [] := by decide +kernel
  have hb : b.names ≠ [] := by decide +kernel
  have hab : (a.compare b).isLE := by decide +kernel
  have hbc : (b.compare .any).isLE := by decide +kernel
  have ha' : a.names.toFinset = a'.names.toFinset := by decide +kernel
  have hb' : b.names.toFinset = b'.names.toFinset := by decide +kernel
  have h := conditions_lawful .any .any a b .any a' b' "c"
  refine ⟨⟨ha, hb, hab, hbc, ha', hb'⟩, (h.2.2.1 ha hb).2 (.inr ?_), h.2.2.2.1.2.1 hab hbc,
    h.2.2.2.2.1 ha' hb', (h.2.2.2.2.2.1 ha).1, (h.2.2.2.2.2.2.1 ha).1⟩
  decide +kernel

end Recipe

end Parley.Route
