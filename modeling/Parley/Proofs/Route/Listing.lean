import Mathlib.Data.String.Basic
import Parley.Proofs.Route.Combine
import Parley.Proofs.Route.Resolve
import Parley.Proofs.Text.Utf8

namespace Parley.Route

section Repeated

variable {β : Type} {x : β} {l : List β}

theorem eraseReps_loop [BEq β] (a : β) (l acc : List β) :
    List.eraseRepsBy.loop (· == ·) a l acc =
      acc.reverse ++ List.eraseRepsBy.loop (· == ·) a l [] := by
  induction l generalizing a acc with
  | nil => simp [List.eraseRepsBy.loop]
  | cons b l ih =>
      rw [List.eraseRepsBy.loop, List.eraseRepsBy.loop]
      split
      · exact ih a acc
      · rw [ih b (a :: acc), ih b [a]]
        simp

theorem eraseReps_cons_cons [DecidableEq β] (a b : β) (l : List β) :
    (a :: b :: l).eraseReps = if a = b then (b :: l).eraseReps else a :: (b :: l).eraseReps := by
  simp only [List.eraseReps, List.eraseRepsBy, List.eraseRepsBy.loop]
  split
  · next h => rw [if_pos (eq_of_beq h), eq_of_beq h]
  · next h =>
    rw [if_neg (ne_of_beq_false h), eraseReps_loop]
    rfl

theorem mem_eraseReps [DecidableEq β] : x ∈ l.eraseReps ↔ x ∈ l := by
  induction l with
  | nil => rfl
  | cons a l ih =>
      cases l with
      | nil => rfl
      | cons b l =>
          rw [eraseReps_cons_cons]
          split
          · next h => simp [ih, h]
          · rw [List.mem_cons, ih, ← List.mem_cons]

theorem pairwise_eraseReps [LinearOrder β] (h : l.Pairwise (· ≤ ·)) :
    l.eraseReps.Pairwise (· < ·) := by
  induction l with
  | nil => exact .nil
  | cons a l ih =>
      cases l with
      | nil => exact List.pairwise_singleton _ a
      | cons b l =>
          obtain ⟨ha, hb⟩ := List.pairwise_cons.1 h
          rw [eraseReps_cons_cons]
          split
          · exact ih hb
          · next hne =>
            have hab : a < b := lt_of_le_of_ne (ha b List.mem_cons_self) hne
            refine List.pairwise_cons.2 ⟨fun x hx => ?_, ih hb⟩
            rcases List.mem_cons.1 (mem_eraseReps.1 hx) with rfl | hx
            · exact hab
            · exact hab.trans_le ((List.pairwise_cons.1 hb).1 x hx)

end Repeated

namespace Table

variable {α : Type} {t : Table α} {method : String} {e : Mapping × α}

theorem hasMethod_iff :
    t.hasMethod method = true ↔ ∃ e ∈ t.entries, e.1.methods.Covers method := by
  simp only [hasMethod, List.any_eq_true, Mapping.admits, Condition.admits_iff]

theorem hasMethod_iff_resolve :
    t.hasMethod method = true ↔ ∀ m, t.resolve method ≠ .error (.notFound m) := by
  have hn : (∃ m, t.resolve method = .error (.notFound m)) ↔
      ∀ e ∈ t.entries, ¬e.1.methods.Covers method := resolve_notFound_iff.trans narrowest_eq_nil_iff
  rw [hasMethod_iff]
  constructor
  · rintro ⟨e, he, hc⟩ m hm
    exact hn.1 ⟨m, hm⟩ e he hc
  · intro hr
    by_contra hc
    obtain ⟨m, hm⟩ := hn.2 fun e he h => hc ⟨e, he, h⟩
    exact hr m hm

theorem mem_methods : method ∈ t.methods ↔ ∃ e ∈ t.entries, method ∈ e.1.methods.names := by
  rw [methods, mem_eraseReps, List.mem_mergeSort, List.mem_flatMap]

theorem pairwise_methods (t : Table α) : t.methods.Pairwise (· < ·) := by
  refine pairwise_eraseReps ((List.pairwise_mergeSort ?_ ?_ _).imp of_decide_eq_true)
  · intro a b c hab hbc
    exact decide_eq_true ((of_decide_eq_true hab).trans (of_decide_eq_true hbc))
  · intro a b
    simpa using le_total a b

theorem hasMethod_iff_mem (h : ∀ e ∈ t.entries, e.1.methods.names ≠ []) :
    t.hasMethod method = true ↔ method ∈ t.methods := by
  rw [hasMethod_iff, mem_methods]
  constructor
  · rintro ⟨e, he, hc⟩
    exact ⟨e, he, hc.resolve_left (h e he)⟩
  · rintro ⟨e, he, hm⟩
    exact ⟨e, he, .inr hm⟩

/-- A route for a method by its name is narrower than one for every method, so where there is one,
those that are chosen among are such routes. -/
theorem resolve_of_listed (he : e ∈ t.entries) (hm : method ∈ e.1.methods.names) :
    (∃ w ∈ t.entries, method ∈ w.1.methods.names ∧ t.resolve method = .ok w.2) ∨
      ∃ candidates, t.resolve method = .error (.ambiguous method candidates) := by
  have hn : ∀ w ∈ t.narrowest method, w ∈ t.entries ∧ method ∈ w.1.methods.names := by
    intro w hw
    obtain ⟨hw, hc, hmin⟩ := mem_narrowest.1 hw
    refine ⟨hw, hc.resolve_left fun h => ?_⟩
    have hle := hmin e he (.inr hm)
    rw [Condition.breadth_of_any h, Condition.breadth_of_names (List.ne_nil_of_mem hm)] at hle
    exact WithTop.coe_ne_top (top_le_iff.1 hle)
  obtain ⟨w, hw, -⟩ := exists_narrowest he (.inr hm)
  rw [resolve_eq, reference]
  split
  · next h =>
    rw [h] at hw
    cases hw
  · next w h =>
    obtain ⟨hw, hm⟩ := hn w (h ▸ List.mem_cons_self)
    exact .inl ⟨w, hw, hm, rfl⟩
  · next w w' ws h =>
    cases t.tieBreak with
    | reject => exact .inr ⟨_, rfl⟩
    | firstRegistered =>
        obtain ⟨hw, hm⟩ := hn w (h ▸ List.mem_cons_self)
        exact .inl ⟨w, hw, hm, rfl⟩

end Table

/-- A call that adds a route to a table, perhaps within a scope. -/
structure Registration (α : Type) where
  scope : Option Mapping := none
  mapping : Mapping
  handler : α

namespace Registration

variable {α : Type} {r : Registration α} {method : String}

def enter (t : Table α) (r : Registration α) : Table α :=
  match r.scope with
  | none => t.register r.mapping r.handler
  | some scope => t.registerScoped scope r.mapping r.handler

def Lists (r : Registration α) (method : String) : Prop :=
  method ∈ r.mapping.methods.names ∨ ∃ scope ∈ r.scope, method ∈ scope.methods.names

def CatchAll (r : Registration α) : Prop :=
  r.mapping.methods.names = [] ∧ ∀ scope ∈ r.scope, scope.methods.names = []

def entry (r : Registration α) : Mapping × α :=
  (r.scope.elim r.mapping fun scope => scope.combine r.mapping, r.handler)

theorem enter_eq (t : Table α) (r : Registration α) :
    r.enter t = t.register r.entry.1 r.entry.2 := by
  rcases r with ⟨_ | scope, m, handler⟩ <;> rfl

theorem mem_entry : method ∈ r.entry.1.methods.names ↔ r.Lists method := by
  rcases r with ⟨_ | scope, m, handler⟩
  · simp [Lists, entry]
  · simp [Lists, entry, Mapping.combine, Condition.mem_combine, or_comm]

theorem entry_eq_nil : r.entry.1.methods.names = [] ↔ r.CatchAll := by
  rcases r with ⟨_ | scope, m, handler⟩
  · simp [CatchAll, entry]
  · simp [CatchAll, entry, Mapping.combine, Condition.combine_eq_nil, and_comm]

end Registration

namespace Table

variable {α : Type}

def ofRegistrations (tieBreak : TieBreak) (rs : List (Registration α)) : Table α :=
  rs.foldl (fun t r => r.enter t) { tieBreak := tieBreak }

theorem entries_ofRegistrations (tieBreak : TieBreak) (rs : List (Registration α)) :
    (ofRegistrations tieBreak rs).entries = rs.map Registration.entry := by
  have h := foldl_register { tieBreak := tieBreak } (rs.map Registration.entry)
  rw [List.foldl_map] at h
  simp only [ofRegistrations, Registration.enter_eq, h, List.nil_append]

/-- What a table lists and what it routes. It is said to have a method exactly where the choice does
not fail for want of a route; its names are those that occur in registrations, each once and in the
order of their bytes; a listed name gets the handler of a registration that lists it, or is
ambiguous; and where no route is for every method it has the methods that it lists. -/
theorem listing_agrees (tieBreak : TieBreak) (rs : List (Registration α)) (method : String) :
    let t := ofRegistrations tieBreak rs
    (t.hasMethod method = true ↔ ∀ m, t.resolve method ≠ .error (.notFound m)) ∧
    t.methods.Pairwise (fun a b => Bytes.ofString a < Bytes.ofString b) ∧
    (method ∈ t.methods ↔ ∃ r ∈ rs, r.Lists method) ∧
    (method ∈ t.methods →
      (∃ r ∈ rs, r.Lists method ∧ t.resolve method = .ok r.handler) ∨
        ∃ candidates, t.resolve method = .error (.ambiguous method candidates)) ∧
    ((∀ r ∈ rs, ¬r.CatchAll) → (t.hasMethod method = true ↔ method ∈ t.methods)) := by
  intro t
  have he : t.entries = rs.map Registration.entry := entries_ofRegistrations tieBreak rs
  refine ⟨hasMethod_iff_resolve, (pairwise_methods t).imp fun h => Utf8.encode_lt h, ?_,
    fun hm => ?_, fun hc => hasMethod_iff_mem ?_⟩
  · simp only [mem_methods, he, List.mem_map, exists_exists_and_eq_and, Registration.mem_entry]
  · obtain ⟨e, he', hm⟩ := mem_methods.1 hm
    refine (resolve_of_listed he' hm).imp_left ?_
    rintro ⟨w, hw, hl, hr⟩
    rw [he] at hw
    obtain ⟨r, hrs, rfl⟩ := List.mem_map.1 hw
    exact ⟨r, hrs, Registration.mem_entry.1 hl, hr⟩
  · rw [he]
    exact List.forall_mem_map.2 fun r hr => mt Registration.entry_eq_nil.1 (hc r hr)

def overlapping : List (Registration Nat) := [
  { mapping := .ofMethods ["b", "a"], handler := 0 },
  { scope := some (.ofMethod "é"), mapping := .ofMethods ["a", "z"], handler := 1 },
  { mapping := .ofMethod "a", handler := 2 }]

theorem listing_agrees_of_overlapping :
    let t := ofRegistrations .reject overlapping
    ("é" ∈ t.methods ∧ ∀ r ∈ overlapping, ¬r.CatchAll) ∧
    ((∃ r ∈ overlapping, r.Lists "é" ∧ t.resolve "é" = .ok r.handler) ∨
      ∃ candidates, t.resolve "é" = .error (.ambiguous "é" candidates)) ∧
    (t.hasMethod "é" = true ↔ "é" ∈ t.methods) := by
  intro t
  have h := listing_agrees .reject overlapping "é"
  have hl : ∃ r ∈ overlapping, r.Lists "é" :=
    ⟨_, List.mem_cons_of_mem _ List.mem_cons_self, .inr ⟨_, rfl, by decide +kernel⟩⟩
  have hm : "é" ∈ t.methods := h.2.2.1.2 hl
  have hn : ∀ r ∈ overlapping, r.mapping.methods.names ≠ [] := by decide +kernel
  have hc : ∀ r ∈ overlapping, ¬r.CatchAll := fun r hr hc => hn r hr hc.1
  exact ⟨⟨hm, hc⟩, h.2.2.2.1 hm, h.2.2.2.2 hc⟩

end Table

end Parley.Route
