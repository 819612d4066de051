import Parley.Flow.Commit

namespace Parley.Flow.Commit

variable {η ε : Type}

theorem passed_eq (c : Commit η) (failed : Bool) :
    c.passed failed =
      { c with
        state := if failed = true ∨ c.hooks.length ≤ c.ran + 1 then .committed else c.state
        ran := c.ran + 1 } := by
  unfold passed finish remaining
  by_cases h : failed = true ∨ c.hooks.length ≤ c.ran + 1 <;> simp [h]

theorem hooks_start (c : Commit η) : c.start.1.hooks = c.hooks := by
  unfold start
  split <;> rfl

theorem of_remaining {c : Commit η} {hook : η} {rest : List η} (h : c.remaining = hook :: rest) :
    c.ran < c.hooks.length ∧ c.hooks = c.hooks.take c.ran ++ hook :: rest ∧
      c.hooks.take (c.ran + 1) = c.hooks.take c.ran ++ [hook] := by
  unfold remaining at h
  have hl : c.ran < c.hooks.length := by
    apply Nat.lt_of_not_le
    intro hl
    rw [List.drop_eq_nil_of_le hl] at h
    cases h
  refine ⟨hl, ?_, ?_⟩
  · rw [← h, List.take_append_drop]
  · have hh : c.hooks[c.ran] = hook := by
      rw [List.drop_eq_getElem_cons hl] at h
      exact (List.cons.inj h).1
    rw [← hh, List.take_append_getElem hl]

inductive Call (ε : Type)
  | between
  | inside
  | returned (result : Except ε Unit)

structure Scene (η ε : Type) where
  commit : Commit η := {}
  calls : List (Call ε) := []

inductive Event (η ε : Type)
  | offered (hook : η) (accepted : Bool)
  | called (n : Nat)
  | entered (n : Nat) (hook : η)
  | left (n : Nat) (hook : η) (result : Except ε Unit)
  | ended (n : Nat)

namespace Event

def accepted? : Event η ε → Option η
  | .offered hook true => some hook
  | _ => none

def begun? (n : Nat) : Event η ε → Option η
  | .entered m hook => if m = n then some hook else none
  | _ => none

def done? (n : Nat) : Event η ε → Option (η × Except ε Unit)
  | .left m hook result => if m = n then some (hook, result) else none
  | _ => none

theorem filterMap_snoc {α : Type} (f : Event η ε → Option α) (es : List (Event η ε))
    (e : Event η ε) : (es ++ [e]).filterMap f = es.filterMap f ++ (f e).toList := by
  rw [List.filterMap_append]
  cases h : f e <;> simp [h]

end Event

def Call.onward (c : Commit η) (result : Except ε Unit) : Call ε :=
  if c.state = .committed then .returned result else .between

namespace Scene

inductive Step (s : Scene η ε) : Event η ε → Scene η ε → Prop
  | offer (hook : η) :
      Step s (.offered hook (s.commit.add hook).2) { s with commit := (s.commit.add hook).1 }
  | call :
      Step s (.called s.calls.length)
        { commit := s.commit.start.1
          calls := s.calls ++ [if s.commit.start.2 then .between else .returned (.ok ())] }
  | enter {n : Nat} {hook : η} {rest : List η} (hc : s.calls[n]? = some .between)
      (hr : s.commit.remaining = hook :: rest) :
      Step s (.entered n hook) { s with calls := s.calls.set n .inside }
  | leave {n : Nat} {hook : η} {rest : List η} {result : Except ε Unit}
      (hc : s.calls[n]? = some .inside) (hr : s.commit.remaining = hook :: rest) :
      Step s (.left n hook result)
        { commit := s.commit.passed !result.isOk
          calls := s.calls.set n (.onward (s.commit.passed !result.isOk) result) }
  | finish {n : Nat} (hc : s.calls[n]? = some .between) (hr : s.commit.remaining = []) :
      Step s (.ended n) { commit := s.commit.finish, calls := s.calls.set n (.returned (.ok ())) }

inductive Runs : List (Event η ε) → Scene η ε → Prop
  | none : Runs [] {}
  | snoc {es : List (Event η ε)} {e : Event η ε} {s s' : Scene η ε} :
      Runs es s → Step s e s' → Runs (es ++ [e]) s'

/-- What the first call has done of its work: which hooks it has begun, and with what result it has
run which. -/
inductive Progress (c : Commit η) :
    Option (Call ε) → List η → List (η × Except ε Unit) → Prop
  | fresh (hs : c.state = .new) (hr : c.ran = 0) : Progress c none [] []
  | between (hs : c.state = .committing) (hr : c.hooks = [] ∨ c.ran < c.hooks.length) :
      Progress c (some .between) (c.hooks.take c.ran) ((c.hooks.take c.ran).map (·, .ok ()))
  | inside (hs : c.state = .committing) (hr : c.ran < c.hooks.length) :
      Progress c (some .inside) (c.hooks.take (c.ran + 1)) ((c.hooks.take c.ran).map (·, .ok ()))
  | through (hs : c.state = .committed) :
      Progress c (some (.returned (.ok ()))) c.hooks (c.hooks.map (·, .ok ()))
  | failed {before after : List η} {hook : η} {fault : ε} (hs : c.state = .committed)
      (hh : c.hooks = before ++ hook :: after) :
      Progress c (some (.returned (.error fault))) (before ++ [hook])
        (before.map (·, .ok ()) ++ [(hook, .error fault)])

namespace Progress

variable {c : Commit η} {call : Option (Call ε)} {bs : List η} {ds : List (η × Except ε Unit)}
  {hook : η} {rest : List η}

theorem add (h : Progress c call bs ds) (hook : η) : Progress (c.add hook).1 call bs ds := by
  unfold Commit.add
  split
  · next hs =>
    cases h with
    | fresh _ hr => exact .fresh hs hr
    | between hs' | inside hs' | through hs' | failed hs' => rw [hs] at hs'; cases hs'
  · exact h

theorem start (h : Progress c none bs ds) :
    c.start.2 = true ∧ Progress c.start.1 (some .between) bs ds := by
  cases h with
  | fresh hs hr =>
    obtain ⟨state, hooks, ran⟩ := c
    obtain rfl : state = .new := hs
    obtain rfl : ran = 0 := hr
    refine ⟨rfl, .between rfl ?_⟩
    cases hooks with
    | nil => exact .inl rfl
    | cons hook hooks => exact .inr (Nat.succ_pos _)

theorem start_eq {first : Call ε} (h : Progress c (some first) bs ds) : c.start = (c, false) := by
  have hs : c.state ≠ .new := by
    cases h with
    | between hs | inside hs | through hs | failed hs => rw [hs]; nofun
  exact if_neg hs

theorem committing {first : Call ε} (h : Progress c (some first) bs ds)
    (hb : ∀ result, first ≠ .returned result) : c.state = .committing := by
  cases h with
  | between hs | inside hs => exact hs
  | through | failed => exact absurd rfl (hb _)

theorem begun_prefix (h : Progress c call bs ds) : bs <+: c.hooks := by
  cases h with
  | fresh => exact List.nil_prefix
  | between | inside => exact List.take_prefix _ _
  | through => exact List.prefix_rfl
  | @failed before after hook _ _ hh => exact ⟨after, by simp [hh]⟩

theorem of_inside (h : Progress c (some .inside) bs ds) : c.ran < c.hooks.length := by
  cases h with
  | inside _ hl => exact hl

theorem of_ok (h : Progress c (some (.returned (.ok ()))) bs ds) :
    bs = c.hooks ∧ ds = c.hooks.map (·, .ok ()) := by
  cases h with
  | through => exact ⟨rfl, rfl⟩

theorem of_error {fault : ε} (h : Progress c (some (.returned (.error fault))) bs ds) :
    ∃ before hook, bs = before ++ [hook] ∧
      ds = before.map (·, .ok ()) ++ [(hook, .error fault)] := by
  cases h with
  | failed => exact ⟨_, _, rfl, rfl⟩

theorem of_under_way {first : Call ε} (h : Progress c (some first) bs ds)
    (hb : ∀ result, first ≠ .returned result) : ∀ d ∈ ds, d.2 = .ok () := by
  cases h with
  | between | inside =>
    intro d hd
    obtain ⟨_, -, rfl⟩ := List.mem_map.1 hd
    rfl
  | through | failed => exact absurd rfl (hb _)

theorem enter (h : Progress c (some .between) bs ds) (hr : c.remaining = hook :: rest) :
    Progress c (some .inside) (bs ++ [hook]) ds := by
  obtain ⟨hl, -, ht⟩ := of_remaining hr
  cases h with
  | between hs _ => exact ht ▸ .inside hs hl

theorem leave {result : Except ε Unit} (h : Progress c (some .inside) bs ds)
    (hr : c.remaining = hook :: rest) :
    Progress (c.passed !result.isOk) (some (.onward (c.passed !result.isOk) result)) bs
      (ds ++ [(hook, result)]) := by
  obtain ⟨hl, hh, ht⟩ := of_remaining hr
  have hn : c.hooks ≠ [] := fun hn => by simp [hn] at hl
  rw [passed_eq]
  unfold Call.onward
  cases h with
  | inside hs _ =>
    cases result with
    | error fault =>
      have hp : Progress { c with state := .committed, ran := c.ran + 1 }
          (some (.returned (.error fault))) _ _ := .failed rfl hh
      simpa [Except.isOk, Except.toBool, ht] using hp
    | ok _ =>
      by_cases he : c.hooks.length ≤ c.ran + 1
      · have hp : Progress { c with state := .committed, ran := c.ran + 1 }
            (some (.returned (.ok ()))) (c.hooks.take (c.ran + 1))
            ((c.hooks.take (c.ran + 1)).map (·, (.ok () : Except ε Unit))) := by
          rw [List.take_of_length_le he]
          exact .through rfl
        simpa [Except.isOk, Except.toBool, he, ht] using hp
      · have hp : Progress (ε := ε) { c with ran := c.ran + 1 } _ _ _ :=
          .between hs (.inr (Nat.lt_of_not_le he))
        simpa [Except.isOk, Except.toBool, he, hs, ht] using hp

theorem finish (h : Progress c (some .between) bs ds) (hr : c.remaining = []) :
    Progress c.finish (some (.returned (.ok ()))) bs ds := by
  have hl : c.hooks.length ≤ c.ran := List.drop_eq_nil_iff.1 hr
  cases h with
  | between hs hn =>
    have hn : c.hooks = [] := by
      rcases hn with hn | hn
      · exact hn
      · exact absurd hl (Nat.not_le_of_lt hn)
    have hp : Progress (ε := ε) c.finish _ _ _ := .through rfl
    simpa [finish, hn] using hp

end Progress

end Scene

end Parley.Flow.Commit
