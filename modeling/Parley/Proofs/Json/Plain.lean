import Parley.Proofs.Json.Order
import Parley.Proofs.Json.Written

namespace Parley.Json

/-- The value is built from null, truth values, integers that fit, text, arrays and objects. -/
inductive Plain : Json → Prop
  | null : Plain .null
  | bool (b : Bool) : Plain (.bool b)
  | int {n : Int} : -(span 63 : Int) ≤ n → n < span 64 → Plain (.int n)
  | str (s : String) : Plain (.str s)
  | arr {vs : List Json} : (∀ v ∈ vs, Plain v) → Plain (.arr vs)
  | obj {ms : Members} : Ascending ms → (∀ m ∈ ms, Plain m.2) → Plain (.obj ms)

mutual
def depth : Json → Nat
  | .arr vs => itemsDepth vs + 1
  | .obj ms => membersDepth ms + 1
  | _ => 0

def itemsDepth : List Json → Nat
  | [] => 0
  | v :: vs => max (depth v) (itemsDepth vs)

def membersDepth : Members → Nat
  | [] => 0
  | (_, v) :: ms => max (depth v) (membersDepth ms)
end

theorem depth_arr_le {vs : List Json} {d : Nat} :
    (arr vs).depth ≤ d + 1 ↔ ∀ v ∈ vs, v.depth ≤ d := by
  rw [depth, Nat.add_le_add_iff_right]
  induction vs with
  | nil => simp [itemsDepth]
  | cons v vs ih => rw [itemsDepth, Nat.max_le, ih, List.forall_mem_cons]

theorem depth_obj_le {ms : Members} {d : Nat} :
    (obj ms).depth ≤ d + 1 ↔ ∀ m ∈ ms, m.2.depth ≤ d := by
  rw [depth, Nat.add_le_add_iff_right]
  induction ms with
  | nil => simp [membersDepth]
  | cons m ms ih => rw [membersDepth, Nat.max_le, ih, List.forall_mem_cons]

namespace Term

theorem itemsToJson?_ofItems {vs : List Json} {d : Nat}
    (h : ∀ v ∈ vs, toJson? d (ofJson v) = some v) : itemsToJson? d (ofItems vs) = some vs := by
  induction vs with
  | nil => rfl
  | cons v vs ih =>
      have hv := h v List.mem_cons_self
      have hs := ih fun v hv => h v (List.mem_cons_of_mem _ hv)
      rw [ofItems, itemsToJson?, hv, hs]
      rfl

theorem membersToJson?_ofMembers {ms : Members} {d : Nat}
    (h : ∀ m ∈ ms, toJson? d (ofJson m.2) = some m.2) :
    membersToJson? d (ofMembers ms) = some ms := by
  induction ms with
  | nil => rfl
  | cons m ms ih =>
      obtain ⟨k, v⟩ := m
      have hv : toJson? d (ofJson v) = some v := h (k, v) List.mem_cons_self
      have hs := ih fun m hm => h m (List.mem_cons_of_mem _ hm)
      rw [ofMembers, membersToJson?, Literal.text?_ofString, hv, hs]
      rfl

theorem toJson?_ofJson {v : Json} {d : Nat} (h : v.Plain) (hd : v.depth ≤ d) :
    toJson? d (ofJson v) = some v := by
  induction h generalizing d with
  | null => rfl
  | bool b => rfl
  | int hl hu => exact Numeral.toJson?_ofInt hl hu
  | str s => rw [ofJson, toJson?, Literal.text?_ofString, Option.map_some]
  | arr _ ih =>
      cases d with
      | zero => cases hd
      | succ d =>
          have hs := depth_arr_le.1 hd
          have hj := itemsToJson?_ofItems fun v hv => ih v hv (hs v hv)
          rw [ofJson, toJson?, if_neg (by omega), Nat.add_sub_cancel, hj, Option.map_some]
  | obj ha _ ih =>
      cases d with
      | zero => cases hd
      | succ d =>
          have hs := depth_obj_le.1 hd
          have hj := membersToJson?_ofMembers fun m hm => ih m hm (hs m hm)
          rw [ofJson, toJson?, if_neg (by omega), Nat.add_sub_cancel, hj, Option.map_some,
            Json.ofMembers, sorted_of_ascending ha]

inductive Whole : Term → Prop
  | null : Whole .null
  | bool (b : Bool) : Whole (.bool b)
  | number {n : Numeral} {k : Int} : n.toJson? = some (.int k) → Whole (.number n)
  | string (s : Literal) : Whole (.string s)
  | array {ts : List Term} : (∀ t ∈ ts, Whole t) → Whole (.array ts)
  | object {ms : List (Literal × Term)} : (∀ m ∈ ms, Whole m.2) → Whole (.object ms)

theorem mem_mapM? {α β : Type} {f : α → Option β} {as : List α} {bs : List β} {b : β}
    (h : as.mapM f = some bs) (hb : b ∈ bs) : ∃ a ∈ as, f a = some b := by
  induction as generalizing bs with
  | nil =>
      cases h
      cases hb
  | cons a as ih =>
      rw [List.mapM_cons] at h
      obtain ⟨b', hf, h⟩ := Option.bind_eq_some_iff.1 h
      obtain ⟨bs', hm, h⟩ := Option.bind_eq_some_iff.1 h
      cases h
      rcases List.mem_cons.1 hb with rfl | hb
      · exact ⟨a, List.mem_cons_self, hf⟩
      · obtain ⟨a', ha, hf'⟩ := ih hm hb
        exact ⟨a', List.mem_cons_of_mem _ ha, hf'⟩

theorem itemsToJson?_eq (d : Nat) (ts : List Term) :
    itemsToJson? d ts = ts.mapM (toJson? d) := by
  induction ts with
  | nil => rfl
  | cons t ts ih =>
      rw [itemsToJson?, List.mapM_cons, ih]
      rfl

theorem membersToJson?_eq (d : Nat) (ts : List (Literal × Term)) :
    membersToJson? d ts =
      ts.mapM fun (k, t) => k.text?.bind fun name => (toJson? d t).map (name, ·) := by
  induction ts with
  | nil => rfl
  | cons t ts ih =>
      obtain ⟨k, t⟩ := t
      simp only [membersToJson?, List.mapM_cons, ih]
      cases k.text? with
      | none => rfl
      | some name => cases toJson? d t <;> rfl

theorem Whole.plain {t : Term} {d : Nat} {v : Json} (h : t.Whole) (hv : toJson? d t = some v) :
    v.Plain ∧ v.depth ≤ d := by
  induction h generalizing d v with
  | null =>
      cases hv
      exact ⟨.null, Nat.zero_le d⟩
  | bool b =>
      cases hv
      exact ⟨.bool b, Nat.zero_le d⟩
  | number hn =>
      cases hn.symm.trans hv
      obtain ⟨hl, hu⟩ := Numeral.range_of_toJson? hn
      exact ⟨.int hl hu, Nat.zero_le d⟩
  | string s =>
      obtain ⟨s, -, rfl⟩ := Option.map_eq_some_iff.1 hv
      exact ⟨.str s, Nat.zero_le d⟩
  | array _ ih =>
      rw [toJson?] at hv
      split at hv
      · cases hv
      · next hd =>
        obtain ⟨vs, hvs, rfl⟩ := Option.map_eq_some_iff.1 hv
        have hp : ∀ v ∈ vs, v.Plain ∧ v.depth ≤ d - 1 := by
          intro v hv
          obtain ⟨t, ht, hj⟩ := mem_mapM? (itemsToJson?_eq _ _ ▸ hvs) hv
          exact ih t ht hj
        obtain ⟨d, rfl⟩ := Nat.exists_eq_succ_of_ne_zero hd
        exact ⟨.arr fun v hv => (hp v hv).1, depth_arr_le.2 fun v hv => (hp v hv).2⟩
  | object _ ih =>
      rw [toJson?] at hv
      split at hv
      · cases hv
      · next hd =>
        obtain ⟨ms, hms, rfl⟩ := Option.map_eq_some_iff.1 hv
        have hp : ∀ m ∈ sorted ms, m.2.Plain ∧ m.2.depth ≤ d - 1 := by
          intro m hm
          obtain ⟨⟨k, t⟩, ht, hj⟩ := mem_mapM? (membersToJson?_eq _ _ ▸ hms) (mem_sorted hm)
          obtain ⟨name, -, hj⟩ := Option.bind_eq_some_iff.1 hj
          obtain ⟨v, hv, rfl⟩ := Option.map_eq_some_iff.1 hj
          exact ih (k, t) ht hv
        obtain ⟨d, rfl⟩ := Nat.exists_eq_succ_of_ne_zero hd
        exact ⟨.obj (ascending_sorted ms) fun m hm => (hp m hm).1,
          depth_obj_le.2 fun m hm => (hp m hm).2⟩

/-- Nothing but the word itself stands for null. -/
theorem toJson?_eq_null {t : Term} {d : Nat} (h : toJson? d t = some .null) : t = .null := by
  cases t with
  | null => rfl
  | bool b => cases h
  | number n =>
      rw [toJson?, Numeral.toJson?] at h
      split at h
      · cases h
      · split at h
        · cases h
        · obtain ⟨_, -, hf⟩ := Option.map_eq_some_iff.1 h
          cases hf
  | string s =>
      obtain ⟨_, -, hs⟩ := Option.map_eq_some_iff.1 h
      cases hs
  | array ts =>
      rw [toJson?] at h
      split at h
      · cases h
      · obtain ⟨_, -, hv⟩ := Option.map_eq_some_iff.1 h
        cases hv
  | object ms =>
      rw [toJson?] at h
      split at h
      · cases h
      · obtain ⟨_, -, hv⟩ := Option.map_eq_some_iff.1 h
        cases hv

end Term

theorem Plain.reads {v : Json} (h : v.Plain) : Term.Reads v := by
  induction h with
  | null => exact Term.reads_null
  | bool b => exact Term.reads_bool b
  | int _ _ => exact Term.reads_int _
  | str s => exact Term.reads_str s
  | arr _ ih => exact Term.reads_arr ih
  | obj _ _ ih => exact Term.reads_obj ih

end Parley.Json
