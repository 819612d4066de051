import Parley.Proofs.Json.Plain
import Parley.Settings.Load

namespace Parley

namespace Json

/-- In every object each name stands once, in ascending order. -/
inductive Orderly : Json → Prop
  | null : Orderly .null
  | bool (b : Bool) : Orderly (.bool b)
  | int (n : Int) : Orderly (.int n)
  | float (x : Decimal.Binary64) : Orderly (.float x)
  | str (s : String) : Orderly (.str s)
  | arr {vs : List Json} : (∀ v ∈ vs, Orderly v) → Orderly (.arr vs)
  | obj {ms : Members} : Ascending ms → (∀ m ∈ ms, Orderly m.2) → Orderly (.obj ms)

variable {ms : Members} {m : String × Json} {k : String} {v : Json}

theorem Orderly.ascending (h : Orderly (.obj ms)) : Ascending ms := by
  cases h with
  | obj ha _ => exact ha

theorem Orderly.member (h : Orderly (.obj ms)) (hm : m ∈ ms) : m.2.Orderly := by
  cases h with
  | obj _ hs => exact hs m hm

theorem Orderly.item {vs : List Json} (h : Orderly (.arr vs)) (hv : v ∈ vs) : v.Orderly := by
  cases h with
  | arr hs => exact hs v hv

theorem mem_of_lookup (h : ms.lookup k = some v) : (k, v) ∈ ms := by
  obtain ⟨before, after, hm, -⟩ := List.lookup_eq_some_iff.1 h
  rw [hm]
  simp

theorem lookup_eq_none (h : ∀ m ∈ ms, k ≠ m.1) : ms.lookup k = none := by
  induction ms with
  | nil => rfl
  | cons m ms ih =>
      rw [show m = (m.1, m.2) from rfl, lookup_member, if_neg (h m List.mem_cons_self)]
      exact ih fun m hm => h m (List.mem_cons_of_mem _ hm)

theorem Ascending.lookup_head {l : String} {w : Json} (h : Ascending ((l, w) :: ms)) :
    ms.lookup l = none := by
  apply lookup_eq_none
  intro m hm he
  have hlt := (List.pairwise_cons.1 h).1 m hm
  exact Std.lt_irrefl (he ▸ hlt)

theorem Numeral.orderly_of_toJson? {x : Numeral} (h : x.toJson? = some v) : v.Orderly := by
  rw [Numeral.toJson?] at h
  split at h
  · cases h
    exact .int _
  · split at h
    · cases h
      exact .int _
    · obtain ⟨x, -, rfl⟩ := Option.map_eq_some_iff.1 h
      exact .float x

namespace Term

/-- What a term stands for is orderly, since the members of an object are sorted. -/
theorem orderly_of_toJson? : ∀ (t : Term) {d : Nat} {v : Json}, t.toJson? d = some v → v.Orderly
  | .null, _, _, rfl => .null
  | .bool b, _, _, rfl => .bool b
  | .number _, _, _, h => Numeral.orderly_of_toJson? h
  | .string _, _, _, h => by
      obtain ⟨s, -, rfl⟩ := Option.map_eq_some_iff.1 h
      exact .str s
  | .array ts, _, _, h => by
      rw [toJson?] at h
      split at h
      · cases h
      · obtain ⟨vs, hvs, rfl⟩ := Option.map_eq_some_iff.1 h
        refine .arr fun v hv => ?_
        obtain ⟨t, ht, hj⟩ := mem_mapM? (itemsToJson?_eq _ _ ▸ hvs) hv
        exact orderly_of_toJson? t hj
  | .object ts, _, _, h => by
      rw [toJson?] at h
      split at h
      · cases h
      · obtain ⟨ms, hms, rfl⟩ := Option.map_eq_some_iff.1 h
        refine .obj (ascending_sorted ms) fun m hm => ?_
        obtain ⟨⟨k, t⟩, ht, hj⟩ := mem_mapM? (membersToJson?_eq _ _ ▸ hms) (mem_sorted hm)
        obtain ⟨name, -, hj⟩ := Option.bind_eq_some_iff.1 hj
        obtain ⟨v, hv, rfl⟩ := Option.map_eq_some_iff.1 hj
        exact orderly_of_toJson? t hv
termination_by t => sizeOf t
decreasing_by
  · have := List.sizeOf_lt_of_mem ht
    simp only [array.sizeOf_spec]
    omega
  · have := List.sizeOf_lt_of_mem ht
    simp only [object.sizeOf_spec, Prod.mk.sizeOf_spec] at this ⊢
    omega

end Term

end Json

namespace Settings

open Json (Members Ascending)

variable {base layer : Members} {k : String} {v : Json}

def Single (v : Json) : Prop := v ≠ .null ∧ ∀ ms, v ≠ .obj ms

def laid (below above : Option Json) : Option Json :=
  match above with
  | none | some .null => below
  | some v =>
    match below with
    | some existing => some (overlay existing v)
    | none => some v

theorem laid_of_ne {o : Option Json} {u : Json} (hu : u ≠ .null) :
    laid o (some u) = some (o.elim u fun e => overlay e u) := by
  cases u with
  | null => exact absurd rfl hu
  | _ => cases o <;> rfl

theorem overlayMembers_cons (h : v.isNull = false) : overlayMembers base ((k, v) :: layer) =
    overlayMembers (Json.insert k (match base.lookup k with
      | some existing => overlay existing v
      | none => v) base) layer := by
  rw [overlayMembers.eq_def]
  cases v with
  | null => cases h
  | _ => rfl

/-- A name of the upper object is laid over the same name of the lower one, and nothing else. -/
theorem lookup_overlayMembers (h : Ascending layer) (k : String) :
    (overlayMembers base layer).lookup k = laid (base.lookup k) (layer.lookup k) := by
  induction layer generalizing base with
  | nil => rw [overlayMembers]; rfl
  | cons m layer ih =>
      obtain ⟨l, w⟩ := m
      have ih (base : Members) : (overlayMembers base layer).lookup k =
          laid (base.lookup k) (layer.lookup k) := ih (List.pairwise_cons.1 h).2
      by_cases hk : k = l
      · subst hk
        have hn := h.lookup_head
        rw [Json.lookup_member, if_pos rfl]
        cases hw : w.isNull with
        | true =>
            cases w with
            | null => rw [overlayMembers, ih, hn]; rfl
            | _ => cases hw
        | false =>
            rw [overlayMembers_cons hw, ih, hn, Json.lookup_insert, if_pos rfl]
            cases w with
            | null => cases hw
            | _ => cases base.lookup k <;> rfl
      · rw [Json.lookup_member, if_neg hk]
        cases hw : w.isNull with
        | true =>
            cases w with
            | null => rw [overlayMembers, ih]
            | _ => cases hw
        | false => rw [overlayMembers_cons hw, ih, Json.lookup_insert, if_neg hk]

theorem overlayMembers_append (h : Ascending (base ++ layer)) (hn : ∀ m ∈ layer, m.2 ≠ .null) :
    overlayMembers base layer = base ++ layer := by
  induction layer generalizing base with
  | nil => rw [overlayMembers, List.append_nil]
  | cons m layer ih =>
      obtain ⟨l, w⟩ := m
      have hw : w.isNull = false := by
        cases w with
        | null => exact absurd rfl (hn _ List.mem_cons_self)
        | _ => rfl
      have hl : ∀ m ∈ base, m.1 < l := fun m hm =>
        (List.pairwise_append.1 h).2.2 m hm (l, w) List.mem_cons_self
      have hb : base.lookup l = none := Json.lookup_eq_none fun m hm he =>
        Std.lt_irrefl (he ▸ hl m hm)
      rw [List.append_cons] at h ⊢
      rw [overlayMembers_cons hw, hb, Json.insert_of_lt hl]
      exact ih h fun m hm => hn m (List.mem_cons_of_mem _ hm)

theorem overlay_obj (base layer : Members) :
    overlay (.obj base) (.obj layer) = .obj (overlayMembers base layer) := by
  rw [overlay]

theorem overlay_of_not_obj {lower : Json} (h : ∀ ms, v ≠ .obj ms) : overlay lower v = v := by
  cases v with
  | obj ms => exact absurd rfl (h ms)
  | _ => rw [overlay]; simp

theorem overlay_over {lower : Json} (h : ∀ ms, lower ≠ .obj ms) (v : Json) :
    overlay lower v = v := by
  cases v with
  | obj ms =>
      cases lower with
      | obj base => exact absurd rfl (h base)
      | _ => rw [overlay]; simp
  | _ => exact overlay_of_not_obj (by simp)

end Settings

end Parley
