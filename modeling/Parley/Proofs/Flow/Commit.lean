import Parley.Proofs.Flow.Scene

namespace Parley.Flow.Commit

variable {η ε : Type}

namespace Scene

structure Faithful (es : List (Event η ε)) (s : Scene η ε) : Prop where
  accepted : es.filterMap Event.accepted? = s.commit.hooks
  first : Progress s.commit s.calls[0]? (es.filterMap (Event.begun? 0))
    (es.filterMap (Event.done? 0))
  others : ∀ n, 0 < n → n < s.calls.length → s.calls[n]? = some (.returned (.ok ()))
  idle : ∀ n, 0 < n →
    es.filterMap (Event.begun? n) = [] ∧ es.filterMap (Event.done? n) = []

variable {es : List (Event η ε)} {e : Event η ε} {s s' : Scene η ε}

theorem Faithful.empty : Faithful ([] : List (Event η ε)) {} where
  accepted := rfl
  first := .fresh rfl rfl
  others := nofun
  idle := fun _ _ => ⟨rfl, rfl⟩

theorem Faithful.eq_zero {n : Nat} {c : Call ε} (h : Faithful es s) (hc : s.calls[n]? = some c)
    (hb : ∀ result, c ≠ .returned result) : n = 0 := by
  rcases Nat.eq_zero_or_pos n with hn | hn
  · exact hn
  · obtain ⟨hl, -⟩ := List.getElem?_eq_some_iff.1 hc
    rw [h.others n hn hl] at hc
    exact absurd (Option.some.inj hc).symm (hb _)

theorem Faithful.own {c : Commit η} {was call : Call ε} (h : Faithful es s)
    (hw : s.calls[0]? = some was) (hh : c.hooks = s.commit.hooks) (ha : e.accepted? = none)
    (he : ∀ n, 0 < n → e.begun? n = none ∧ e.done? n = none)
    (hp : Progress c (some call) (es.filterMap (Event.begun? 0) ++ (e.begun? 0).toList)
      (es.filterMap (Event.done? 0) ++ (e.done? 0).toList)) :
    Faithful (es ++ [e]) { commit := c, calls := s.calls.set 0 call } := by
  have hl : 0 < s.calls.length := (List.getElem?_eq_some_iff.1 hw).1
  refine ⟨?_, ?_, fun n hn hlt => ?_, fun n hn => ?_⟩
  · rw [Event.filterMap_snoc, ha, h.accepted, hh]
    exact List.append_nil _
  · rw [Event.filterMap_snoc, Event.filterMap_snoc, List.getElem?_set_self hl]
    exact hp
  · rw [List.length_set] at hlt
    rw [List.getElem?_set_ne (Nat.ne_of_lt hn)]
    exact h.others n hn hlt
  · obtain ⟨hb, hd⟩ := h.idle n hn
    rw [Event.filterMap_snoc, Event.filterMap_snoc, hb, hd, (he n hn).1, (he n hn).2]
    exact ⟨rfl, rfl⟩

theorem Faithful.offer (h : Faithful es s) (hook : η) :
    Faithful (es ++ [.offered hook (s.commit.add hook).2])
      { s with commit := (s.commit.add hook).1 } := by
  refine ⟨?_, ?_, h.others, fun n hn => ?_⟩
  · rw [Event.filterMap_snoc, h.accepted]
    unfold add
    split <;> simp [Event.accepted?]
  · rw [Event.filterMap_snoc, Event.filterMap_snoc]
    simpa only [Event.begun?, Event.done?, Option.toList_none, List.append_nil] using
      h.first.add hook
  · rw [Event.filterMap_snoc, Event.filterMap_snoc]
    simpa only [Event.begun?, Event.done?, Option.toList_none, List.append_nil] using h.idle n hn

theorem Faithful.call (h : Faithful es s) :
    Faithful (es ++ [.called s.calls.length])
      { commit := s.commit.start.1
        calls := s.calls ++ [if s.commit.start.2 then .between else .returned (.ok ())] } := by
  have hf := h.first
  have hh := hooks_start s.commit
  refine ⟨?_, ?_, fun n hn hl => ?_, fun n hn => ?_⟩
  · rw [Event.filterMap_snoc, h.accepted, hh]
    exact List.append_nil _
  · rw [Event.filterMap_snoc, Event.filterMap_snoc]
    simp only [Event.begun?, Event.done?, Option.toList_none, List.append_nil]
    cases hc : s.calls with
    | nil =>
      rw [hc] at hf
      obtain ⟨ht, hp⟩ := hf.start
      rw [ht]
      exact hp
    | cons first rest =>
      rw [hc] at hf
      rw [hf.start_eq]
      exact hf
  · cases hc : s.calls with
    | nil =>
      rw [hc] at hl
      exact absurd hl (Nat.not_lt_of_le hn)
    | cons first rest =>
      rw [hc] at hf
      rw [hf.start_eq, ← hc]
      rcases Nat.lt_or_ge n s.calls.length with hlt | hge
      · rw [List.getElem?_append_left hlt]
        exact h.others n hn hlt
      · rw [List.length_append, List.length_singleton] at hl
        have hn : n = s.calls.length := by omega
        simp [hn]
  · rw [Event.filterMap_snoc, Event.filterMap_snoc]
    simpa only [Event.begun?, Event.done?, Option.toList_none, List.append_nil] using h.idle n hn

theorem Faithful.step (h : Faithful es s) (hs : Step s e s') : Faithful (es ++ [e]) s' := by
  cases hs with
  | offer hook => exact h.offer hook
  | call => exact h.call
  | enter hc hr =>
    obtain rfl := h.eq_zero hc nofun
    refine h.own hc rfl rfl (fun n hn => ⟨if_neg (Nat.ne_of_lt hn), rfl⟩) ?_
    simpa [Event.begun?, Event.done?] using (hc ▸ h.first).enter hr
  | leave hc hr =>
    obtain rfl := h.eq_zero hc nofun
    refine h.own hc (by rw [passed_eq]) rfl (fun n hn => ⟨rfl, if_neg (Nat.ne_of_lt hn)⟩) ?_
    simpa [Event.begun?, Event.done?] using (hc ▸ h.first).leave hr
  | finish hc hr =>
    obtain rfl := h.eq_zero hc nofun
    refine h.own hc rfl rfl (fun n hn => ⟨rfl, rfl⟩) ?_
    simpa [Event.begun?, Event.done?] using (hc ▸ h.first).finish hr

theorem Runs.faithful (h : Runs es s) : Faithful es s := by
  induction h with
  | none => exact .empty
  | snoc _ hs ih => exact ih.step hs

/-- The state stays, or goes on to the next. -/
theorem Runs.state (h : Runs es s) (hs : Step s e s') :
    s'.commit.state = s.commit.state ∨
      s.commit.state = .new ∧ s'.commit.state = .committing ∨
        s.commit.state = .committing ∧ s'.commit.state = .committed := by
  have hf := h.faithful
  cases hs with
  | offer hook =>
    refine .inl ?_
    unfold add
    split <;> rfl
  | call =>
    unfold start
    split
    · next hn => exact .inr (.inl ⟨hn, rfl⟩)
    · exact .inl rfl
  | enter => exact .inl rfl
  | leave hc hr =>
    obtain rfl := hf.eq_zero hc nofun
    rw [passed_eq]
    dsimp only
    split
    · exact .inr (.inr ⟨(hc ▸ hf.first).committing nofun, rfl⟩)
    · exact .inl rfl
  | finish hc hr =>
    obtain rfl := hf.eq_zero hc nofun
    exact .inr (.inr ⟨(hc ▸ hf.first).committing nofun, rfl⟩)

theorem Faithful.progress {call : Call ε} (h : Faithful es s) (hc : s.calls[0]? = some call)
    (hb : ∀ result, call ≠ .returned result) :
    ∃ e s', Step s e s' ∧ s'.calls[0]? ≠ s.calls[0]? := by
  have hl : 0 < s.calls.length := (List.getElem?_eq_some_iff.1 hc).1
  cases call with
  | between =>
    cases hr : s.commit.remaining with
    | nil =>
      refine ⟨_, _, .finish hc hr, ?_⟩
      rw [List.getElem?_set_self hl, hc]
      nofun
    | cons hook rest =>
      refine ⟨_, _, .enter hc hr, ?_⟩
      rw [List.getElem?_set_self hl, hc]
      nofun
  | inside =>
    have hn := (hc ▸ h.first).of_inside
    refine ⟨.left 0 _ (.ok ()), _, .leave hc (List.drop_eq_getElem_cons hn), ?_⟩
    rw [List.getElem?_set_self hl, hc]
    unfold Call.onward
    split <;> nofun
  | returned result => exact absurd rfl (hb result)

/-- In every run of calls on one commit, the state only goes on, and a hook is accepted as long as
it is new. Only the first call to commit runs hooks: those that were accepted, in their order and
none twice, all of them if none fails, and otherwise up to the first that does, whose failure is
what the call returns. Every other call is back with nothing run. -/
theorem hooks_run_once (h : Runs es s) :
    (∀ e s', Step s e s' → s'.commit.state = s.commit.state ∨
      s.commit.state = .new ∧ s'.commit.state = .committing ∨
        s.commit.state = .committing ∧ s'.commit.state = .committed) ∧
    (∀ hook b s', Step s (.offered hook b) s' → (b = true ↔ s.commit.state = .new)) ∧
    (∀ n, 0 < n → es.filterMap (Event.begun? n) = [] ∧
      (n < s.calls.length → s.calls[n]? = some (.returned (.ok ())))) ∧
    es.filterMap (Event.begun? 0) <+: es.filterMap Event.accepted? ∧
    (s.calls[0]? = some (.returned (.ok ())) →
      es.filterMap (Event.begun? 0) = es.filterMap Event.accepted? ∧
        es.filterMap (Event.done? 0) = (es.filterMap Event.accepted?).map (·, .ok ())) ∧
    (∀ fault, s.calls[0]? = some (.returned (.error fault)) → ∃ before hook,
      es.filterMap (Event.begun? 0) = before ++ [hook] ∧
        es.filterMap (Event.done? 0) = before.map (·, .ok ()) ++ [(hook, .error fault)]) ∧
    (∀ call, s.calls[0]? = some call → (∀ result, call ≠ .returned result) →
      (∀ d ∈ es.filterMap (Event.done? 0), d.2 = .ok ()) ∧
        ∃ e s', Step s e s' ∧ s'.calls[0]? ≠ s.calls[0]?) := by
  have hf := h.faithful
  have hp := hf.first
  rw [hf.accepted]
  refine ⟨fun e s' => h.state, ?_, fun n hn => ⟨(hf.idle n hn).1, hf.others n hn⟩, hp.begun_prefix,
    fun hc => (hc ▸ hp).of_ok, fun fault hc => (hc ▸ hp).of_error,
    fun call hc hb => ⟨(hc ▸ hp).of_under_way hb, hf.progress hc hb⟩⟩
  rintro hook b s' ⟨⟩
  unfold add
  split <;> simp_all

/-- While the first hook is being run, another is offered and another call is made. The second hook
fails, and so the third is not run. -/
theorem hooks_run_once_of_reentrant :
    ∃ (es : List (Event String String)) (s : Scene String String), Runs es s ∧
      s.calls[1]? = some (.returned (.ok ())) ∧
      s.calls[0]? = some (.returned (.error "down")) ∧
      es.filterMap Event.accepted? = ["load", "save", "log"] ∧
      ∃ before hook, es.filterMap (Event.begun? 0) = before ++ [hook] ∧
        es.filterMap (Event.done? 0) = before.map (·, .ok ()) ++ [(hook, .error "down")] := by
  have h : Runs ([] : List (Event String String)) {} := .none
  have h := ((h.snoc (.offer "load")).snoc (.offer "save")).snoc (.offer "log")
  have h : Runs (_ ++ [.entered 0 "load"]) _ := (h.snoc .call).snoc (.enter rfl rfl)
  have h := (h.snoc (.offer "late")).snoc .call
  have h : Runs (_ ++ [.left 0 "load" (.ok ())]) _ := h.snoc (.leave rfl rfl)
  have h : Runs (_ ++ [.entered 0 "save"]) _ := h.snoc (.enter rfl rfl)
  have h : Runs (_ ++ [.left 0 "save" (.error "down")]) _ := h.snoc (.leave rfl rfl)
  obtain ⟨-, -, hothers, -, -, hfault, -⟩ := hooks_run_once h
  exact ⟨_, _, h, (hothers 1 (by decide)).2 (by decide), rfl, rfl, hfault "down" rfl⟩

end Scene

end Parley.Flow.Commit
