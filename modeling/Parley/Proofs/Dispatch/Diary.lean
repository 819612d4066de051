import Parley.Proofs.Dispatch.Chronicle
import Parley.Proofs.Dispatch.Errand

namespace Parley.Dispatch

structure Chronicle where
  ledger : Ledger := {}
  /-- What has been written down, each entry with the number of its call. -/
  entries : List (Nat × Entry) := []
  /-- The responses that have been queued, each with the one who has queued it. -/
  posts : List (Actor × Response) := []

def noted {α : Type} (es : List (Nat × α)) (s : Nat) : List α :=
  es.filterMap fun e => if e.1 = s then some e.2 else none

def Chronicle.diary (x : Chronicle) : Nat → List Entry := noted x.entries

theorem noted_append {α : Type} (es es' : List (Nat × α)) (s : Nat) :
    noted (es ++ es') s = noted es s ++ noted es' s := List.filterMap_append

theorem noted_map {α : Type} (es : List α) (n s : Nat) :
    noted (es.map (n, ·)) s = if s = n then es else [] := by
  rw [noted, List.filterMap_map]
  by_cases h : s = n
  · subst h
    simp
  · simp [Ne.symm h, h]

def Bare (es : List Entry) : Prop := ∀ e ∈ es, ∃ a, e = .resolved a

theorem Told.bare {k : Call} {es : List Entry} (h : Told (some k) es)
    (hk : k.phase.stage = .executing) : Bare es := by
  cases h with
  | fresh => exact fun e he => absurd he List.not_mem_nil
  | executing => exact fun e he => ⟨_, List.mem_singleton.1 he⟩
  | concluded hp | replying hp => rw [hp] at hk; cases hk

theorem not_queued_record (r : Option Session.Handle) (outcome : Except HandlerError Json)
    (vs : List Visit) (y : Response) : .queued y ∉ record r outcome vs := by
  simp [record]

theorem not_queued_dropped (r : Option Session.Handle) (y : Response) :
    Entry.queued y ∉ r.toList.map .resolved := by
  simp

/-- An answer is queued after the hook of the exchange has been run. -/
theorem Told.queued {o : Option Call} {es : List Entry} {y : Response} (h : Told o es)
    (hy : .queued y ∈ es) : ∃ r outcome vs, es = record r outcome vs ++ [.queued y] ∧
      Saved r outcome vs y.outcome := by
  cases h with
  | fresh | executing => simp at hy
  | concluded | replying | unsent => exact absurd hy (not_queued_record _ _ _ _)
  | dropped r => exact absurd hy (not_queued_dropped _ _)
  | @answered outcome r vs x hs =>
      obtain rfl : y = x := by
        rcases List.mem_append.1 hy with hy | hy
        · exact absurd hy (not_queued_record _ _ _ _)
        · exact Entry.queued.inj (List.mem_singleton.1 hy)
      exact ⟨r, outcome, vs, rfl, hs⟩

theorem Change.numbered {c : ConnectionId} {v w : View} {e : Deed} (hc : Change c v e w) :
    v.numbered ≤ w.numbered := by
  cases hc with
  | idle hn => exact hn
  | handled _ hw => cases hw <;> simp
  | _ => exact Nat.le_refl _

namespace Link

variable {sv : Service} {h h' : Hub} {l l' : Link} {who : Actor} {s : Nat} {x : Chronicle}

def entries (h : Hub) (l l' : Link) : Actor → List (Nat × Entry)
  | .call s =>
    match l.call? s with
    | some k => (k.entries h (l'.call? s) ++
        (l'.responses.drop l.responses.length).map Entry.queued).map (s, ·)
    | none => []
  | _ => []

end Link

def Chronicle.observe (x : Chronicle) (h : Hub) (l l' : Link) (who : Actor) : Chronicle where
  ledger := x.ledger.observe h l l' who
  entries := x.entries ++ l.entries h l' who
  posts := x.posts ++ (l'.responses.drop l.responses.length).map (who, ·)

namespace Link

variable {sv : Service} {h h' : Hub} {l l' : Link} {who : Actor} {s : Nat} {x : Chronicle}

theorem diary_observe (x : Chronicle) (h : Hub) (l l' : Link) (who : Actor) (s : Nat) :
    (x.observe h l l' who).diary s = x.diary s ++ noted (l.entries h l' who) s :=
  noted_append _ _ _

theorem noted_aside (hw : who ≠ .call s) : noted (l.entries h l' who) s = [] := by
  cases who with
  | call n =>
      have hn : s ≠ n := fun hn => hw (hn ▸ rfl)
      simp only [entries]
      split
      · rw [noted_map, if_neg hn]
      · rfl
  | _ => rfl

theorem stepCall_eq_some {n : Nat} (ht : l.Tidy) (hs : stepCall sv h l n = some (h', l')) :
    ∃ k p' k', l.call? n = some k ∧ k.Tidy ∧ k.serial = n ∧
      k.step sv h l.desk.peer l.id = some (h', p', k') ∧ l'.numbered = l.numbered ∧
      l'.responses = p'.responses ∧ ∀ i, l'.call? i = if i = n then k' else l.call? i := by
  obtain ⟨k, q, k', hk, hn, hc, rfl⟩ := stepCall_course hs
  have hkt := (ht.call hk).1
  obtain ⟨-, -, -, -, hkept⟩ := Call.step_turn hkt hc
  exact ⟨k, q, k', hk, hkt, hn, hc, rfl, rfl, fun i =>
    find?_replaced (Option.isSome_iff_exists.2 ⟨k, hk⟩) fun j hj => (hkept j hj).1.trans hn⟩

/-- Nobody but the pump and the calls changes what calls there are. -/
theorem calls_aside (hr : who ≠ .requests) (hw : ∀ n, who ≠ .call n)
    (hs : l.step sv h who = some (h', l')) : l'.calls = l.calls := by
  cases who with
  | requests => exact absurd rfl hr
  | call n => exact absurd rfl (hw n)
  | writer =>
      obtain ⟨_, _, _, rfl, -⟩ := stepWriter_footprint hs
      rfl
  | reader =>
      obtain ⟨-, _, _, _, rfl⟩ := stepReader_footprint hs
      rfl
  | responses =>
      obtain ⟨-, _, _, _, rfl⟩ := stepResponses_footprint hs
      rfl
  | supervisor =>
      obtain ⟨_, _, rfl⟩ := stepSupervisor_footprint hs
      rfl
  | caller n =>
      simp only [step, stepCaller, Option.map_eq_some_iff, Prod.mk.injEq] at hs
      obtain ⟨d, -, -, rfl⟩ := hs
      rfl

theorem calls_step (hw : ∀ n, who ≠ .call n) (hs : l.step sv h who = some (h', l')) :
    l'.calls = l.calls ∨ ∃ k : Call, k.phase = .fresh ∧ k.commit = {} ∧ k.serial = l.numbered ∧
      l'.calls = l.calls ++ [k] := by
  by_cases hr : who = .requests
  · subst hr
    exact calls_stepRequests hs
  · exact .inl (calls_aside hr hw hs)

/-- What is written down of the calls of a connection tells how far they have come. -/
structure Recorded (l : Link) (diary : Nat → List Entry) : Prop where
  told : ∀ s, Told (l.call? s) (diary s)
  blank : ∀ s, l.numbered ≤ s → diary s = []

theorem Recorded.congr {diary : Nat → List Entry} (hr : l.Recorded diary)
    (hk : l'.calls = l.calls) (hn : l.numbered ≤ l'.numbered) : l'.Recorded diary where
  told s := by
    rw [call?, hk]
    exact hr.told s
  blank s hs := hr.blank s (Nat.le_trans hn hs)

theorem Recorded.stepCall {n : Nat} (ht : l.Tidy) (hr : l.Recorded x.diary)
    (hs : l.step sv h (.call n) = some (h', l')) :
    l'.Recorded (x.observe h l l' (.call n)).diary := by
  obtain ⟨k, p', k', hk, hkt, -, hc, hn, hres, hcall⟩ := stepCall_eq_some ht hs
  have hk' : l'.call? n = k' := (hcall n).trans (if_pos rfl)
  have htold := Call.step_told hkt (hk ▸ hr.told n) hc
  have he : l.entries h l' (.call n) = (k.entries h k' ++
      (p'.responses.drop l.desk.peer.responses.length).map Entry.queued).map (n, ·) := by
    simp only [entries, hk, hk', hres]
    rfl
  constructor
  case told =>
    intro s
    rw [diary_observe, he, noted_map, hcall s]
    by_cases hsn : s = n
    · subst hsn
      rw [if_pos rfl, if_pos rfl, ← List.append_assoc]
      exact htold
    · rw [if_neg hsn, if_neg hsn, List.append_nil]
      exact hr.told s
  case blank =>
    intro s hs'
    have hlt : n < l.numbered := serial_of_call? hk ▸ (ht.call hk).2
    rw [diary_observe, he, noted_map, if_neg (by omega), List.append_nil]
    exact hr.blank s (by omega)

theorem numbered_step (ht : l.Tidy) (hs : l.step sv h who = some (h', l')) :
    l.numbered ≤ l'.numbered := (step_steps ht hs).change.numbered

theorem Recorded.stepOther (ht : l.Tidy) (hr : l.Recorded x.diary) (hw : ∀ n, who ≠ .call n)
    (hs : l.step sv h who = some (h', l')) : l'.Recorded (x.observe h l l' who).diary := by
  have hn := numbered_step ht hs
  have hd : (x.observe h l l' who).diary = x.diary := by
    funext s
    rw [diary_observe, noted_aside (hw s), List.append_nil]
  rw [hd]
  rcases calls_step hw hs with hc | ⟨k, hp, hc, hk, hcalls⟩
  · exact hr.congr hc hn
  · refine ⟨fun s => ?_, fun s hs' => hr.blank s (Nat.le_trans hn hs')⟩
    rw [call?, hcalls, List.find?_append]
    change Told ((l.call? s).or _) _
    have htold := hr.told s
    rcases hf : l.call? s with _ | i <;> rw [hf] at htold
    -- The number of a call that is new has not been given out before, so its diary is blank.
    · by_cases hks : k.serial = s
      · rw [hr.blank s (by omega)]
        simpa [hks] using Told.fresh hp hc
      · simpa [hks] using htold
    · exact htold

theorem Recorded.step (ht : l.Tidy) (hr : l.Recorded x.diary)
    (hs : l.step sv h who = some (h', l')) : l'.Recorded (x.observe h l l' who).diary := by
  by_cases hw : ∃ n, who = .call n
  · obtain ⟨n, rfl⟩ := hw
    exact hr.stepCall ht hs
  · exact hr.stepOther ht (fun n hn => hw ⟨n, hn⟩) hs

end Link

end Parley.Dispatch
