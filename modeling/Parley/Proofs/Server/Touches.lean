import Parley.Proofs.Dispatch.Diary
import Parley.Server.Builtin

namespace Parley

namespace Server.Builtin

def put (ms : Json.Members) : String × Json → Json.Members
  | (name, .null) => Json.erase name ms
  | (name, v) => Json.insert name v ms

def report (id : SessionId) (ms : Json.Members) (started : Bool) : Json :=
  .obj [("attributes", .obj ms), ("id", .str id.text), ("started", .bool started)]

theorem change_eq (s : Session) (m : String × Json) :
    change s m = { s with attributes := put s.attributes m } := by
  obtain ⟨name, v⟩ := m
  cases v <;> rfl

def script (set : Json.Members) : List (Option (String × Json)) := set.map some ++ [none, none]

end Server.Builtin

open Server (Builtin.put Builtin.report Builtin.script)

namespace Dispatch

abbrev Touches := List (Nat × Option (String × Json))

abbrev Wishes := List (Nat × Json.Members)

namespace Wishes

/-- The attributes once all has been done that was asked for, where there was none before. -/
def value (qs : Wishes) : Json.Members := qs.foldl (fun ms q => q.2.foldl Builtin.put ms) []

variable {qs : Wishes} {q : Nat × Json.Members}

theorem eq_singleton (hnd : (qs.map Prod.fst).Nodup) (hq : q ∈ qs) (h : ∀ p ∈ qs, p.1 = q.1) :
    qs = [q] := by
  cases qs with
  | nil => cases hq
  | cons p qs =>
      have hnil : qs = [] := List.eq_nil_iff_forall_not_mem.2 fun u hu => by
        have hup : u.1 = p.1 := (h u (.tail _ hu)).trans (h p List.mem_cons_self).symm
        exact (List.nodup_cons.1 hnd).1 (hup ▸ List.mem_map_of_mem hu)
      rw [hnil] at hq ⊢
      rw [List.mem_singleton.1 hq]

end Wishes

namespace Touches

def value (ts : Touches) : Json.Members := (ts.filterMap Prod.snd).foldl Builtin.put []

def inTurn (qs : Wishes) : Touches := qs.flatMap fun q => (Builtin.script q.2).map (q.1, ·)

variable {ts ts' : Touches} {n : Nat} {set : Json.Members} {qs : Wishes}

@[simp] theorem value_change (ts : Touches) (n : Nat) (m : String × Json) :
    (ts ++ [(n, some m)]).value = Builtin.put ts.value m := by
  simp [value, List.filterMap_append, List.foldl_append]

@[simp] theorem value_look (ts : Touches) (n : Nat) : (ts ++ [(n, none)]).value = ts.value := by
  simp [value, List.filterMap_append]

theorem value_append_look (ts ts' : Touches) (n : Nat) :
    (ts ++ (n, none) :: ts').value = (ts ++ ts').value := by
  simp [value, List.filterMap_append]

theorem inTurn_append (qs qs' : Wishes) : inTurn (qs ++ qs') = inTurn qs ++ inTurn qs' :=
  List.flatMap_append

theorem inTurn_singleton (n : Nat) (set : Json.Members) :
    inTurn [(n, set)] = (Builtin.script set).map (n, ·) := by
  simp [inTurn]

theorem filterMap_script (n : Nat) (set : Json.Members) :
    ((Builtin.script set).map (n, ·)).filterMap Prod.snd = set := by
  simp [Builtin.script, List.filterMap_append, Function.comp_def]

theorem value_inTurn (qs : Wishes) : (inTurn qs).value = qs.value := by
  have hfold (ms : Json.Members) : ((inTurn qs).filterMap Prod.snd).foldl Builtin.put ms =
      qs.foldl (fun ms q => q.2.foldl Builtin.put ms) ms := by
    induction qs generalizing ms with
    | nil => rfl
    | cons q qs ih =>
        rw [inTurn, List.flatMap_cons, List.filterMap_append, filterMap_script, List.foldl_append]
        exact ih _
  exact hfold []

theorem noted_inTurn (h : ∀ q ∈ qs, q.1 ≠ n) : noted (inTurn qs) n = [] := by
  induction qs with
  | nil => rfl
  | cons q qs ih =>
      rw [inTurn, List.flatMap_cons, noted_append, noted_map,
        if_neg (h q List.mem_cons_self).symm, List.nil_append]
      exact ih fun p hp => h p (List.mem_cons_of_mem q hp)

theorem noted_eq_nil (h : ∀ t ∈ ts, t.1 ≠ n) : noted ts n = [] := by
  refine List.filterMap_eq_nil_iff.2 fun t ht => ?_
  rw [if_neg (h t ht)]

theorem not_mem_of_noted {t : Option (String × Json)} (h : t ∉ noted ts n) : (n, t) ∉ ts := by
  intro ht
  exact h (List.mem_filterMap.2 ⟨(n, t), ht, if_pos rfl⟩)

/-- The call `n` has changed what `set` says, has looked at the attributes, and has then looked whether
there are any. Other calls may have touched them in between. -/
def Reports (ts : Touches) (n : Nat) (set : Json.Members) (id : SessionId) (v : Json) : Prop :=
  ∃ before mid after, ts = before ++ (n, none) :: (mid ++ (n, none) :: after) ∧
    noted before n = set.map some ∧ noted mid n = [] ∧ noted after n = [] ∧
      v = Builtin.report id (value before) (!(value (before ++ mid)).isEmpty)

theorem Reports.append {id : SessionId} {v : Json} (h : ts.Reports n set id v)
    (ht : noted ts' n = []) : (ts ++ ts').Reports n set id v := by
  obtain ⟨before, mid, after, rfl, hb, hm, ha, hv⟩ := h
  refine ⟨before, mid, after ++ ts', by simp, hb, hm, ?_, hv⟩
  rw [noted_append, ha, ht, List.append_nil]

theorem Reports.noted {id : SessionId} {v : Json} (h : ts.Reports n set id v) :
    noted ts n = Builtin.script set := by
  obtain ⟨before, mid, after, rfl, hb, hm, ha, -⟩ := h
  have hlook (ts : Touches) : Dispatch.noted ((n, none) :: ts) n = none :: Dispatch.noted ts n := by
    simp [Dispatch.noted]
  rw [noted_append, hb, hlook, noted_append, hm, hlook, ha]
  rfl

theorem eq_of_first {α : Type} {a : α} {xs ys us vs : List α} (hx : a ∉ xs) (hu : a ∉ us)
    (h : xs ++ a :: ys = us ++ a :: vs) : xs = us ∧ ys = vs := by
  induction xs generalizing us with
  | nil =>
      cases us with
      | nil => exact ⟨rfl, (List.cons.inj h).2⟩
      | cons u us => exact absurd ((List.cons.inj h).1 ▸ List.mem_cons_self) hu
  | cons x xs ih =>
      cases us with
      | nil => exact absurd ((List.cons.inj h).1 ▸ List.mem_cons_self) hx
      | cons u us =>
          obtain ⟨rfl, hrest⟩ := List.cons.inj h
          obtain ⟨rfl, rfl⟩ := ih (fun ha => hx (.tail _ ha)) (fun ha => hu (.tail _ ha)) hrest
          exact ⟨rfl, rfl⟩

/-- In turn, a call reports what has been asked for up to then. -/
theorem Reports.inTurn {id : SessionId} {v : Json} {earlier later : Wishes} {done : Touches}
    (h : (inTurn (earlier ++ (n, set) :: later) ++ done).Reports n set id v)
    (he : ∀ q ∈ earlier, q.1 ≠ n) :
    v = Builtin.report id (earlier ++ [(n, set)]).value (!(earlier ++ [(n, set)]).value.isEmpty) := by
  obtain ⟨before, mid, after, hts, hb, hm, -, rfl⟩ := h
  have hturn : Touches.inTurn (earlier ++ (n, set) :: later) ++ done =
      (Touches.inTurn earlier ++ set.map fun m => (n, some m)) ++
        (n, none) :: ([] ++ (n, none) :: (Touches.inTurn later ++ done)) := by
    simp [Touches.inTurn, Builtin.script]
  have hnone : (n, none) ∉ Touches.inTurn earlier ++ set.map fun m => (n, some m) := by
    have hearlier : (n, none) ∉ Touches.inTurn earlier :=
      not_mem_of_noted (by simp [noted_inTurn he])
    simpa using hearlier
  have hbefore : (n, none) ∉ before := not_mem_of_noted (by simp [hb])
  have hmid : (n, none) ∉ mid := not_mem_of_noted (by simp [hm])
  obtain ⟨rfl, hrest⟩ := eq_of_first hbefore hnone (hts.symm.trans hturn)
  obtain ⟨rfl, -⟩ := eq_of_first hmid List.not_mem_nil hrest
  have hvalue : (Touches.inTurn earlier ++ set.map fun m => (n, some m)).value =
      (earlier ++ [(n, set)]).value := by
    rw [← value_inTurn, inTurn_append, inTurn_singleton]
    simp [value, List.filterMap_append, Builtin.script]
  rw [List.append_nil, hvalue]

end Touches

end Dispatch

end Parley
