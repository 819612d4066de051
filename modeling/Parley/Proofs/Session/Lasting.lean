import Parley.Proofs.Session.Refine

namespace Parley.Session.Floor

variable {κ : Type} [DecidableEq κ] {s : Floor κ} {b : Board κ} {id : SessionId} {n : String}
  {w : Option Json} {e e' : Event κ} {es es' : List (Event κ)} {maxIdle : Nat}
  {p : Floor κ → Event κ → Prop}

def change? (s : Floor κ) : Event κ → Option (SessionId × String × Option Json)
  | .act user act => do
    let a ← s.held? user
    let (n, w) ← act.change?
    some (a.id, n, w)
  | _ => none

def Spares (id : SessionId) (n : String) (s : Floor κ) (e : Event κ) : Prop :=
  ∀ c ∈ s.change? e, (c.1, c.2.1) ≠ (id, n)

instance : Decidable (Spares id n s e) :=
  inferInstanceAs (Decidable (∀ c ∈ s.change? e, (c.1, c.2.1) ≠ (id, n)))

def saves (s : Floor κ) : Event κ → List SessionId
  | .commit call _ =>
    if (s.commits call).state = .new then
      ((s.commits call).hooks.filter s.manager.store.isFilled).map Handle.id
    else []
  | _ => []

theorem throughout_append :
    Throughout p s (es ++ es') ↔ Throughout p s es ∧ Throughout p (s.run es) es' := by
  induction es generalizing s with
  | nil => exact ⟨fun h => ⟨trivial, h⟩, fun h => h.2⟩
  | cons e es ih =>
      rw [List.cons_append, Throughout, Throughout, ih, run_cons, and_assoc]

theorem Follows.saves (h : Follows s b) (hi : id ∈ s.saves e) : id ∈ (b.next e).saved := by
  cases e with
  | commit call now =>
      simp only [Floor.saves] at hi
      split at hi
      · next hn =>
        have hb : b.closed call = false := by simpa [hn] using h.closed call
        obtain ⟨t, -, hk⟩ := Manager.keeps (s.commits call).hooks h.sound.able h.quiet now
        have hs := (h.keeps hn hk).saved.2 (hk.saved.2 (.inr hi))
        simp only [Board.next, hb]
        exact hs
      · cases hi
  | _ => cases hi

theorem Follows.lookup_change (h : Follows s b) (hc : s.change? e = some (id, n, w)) :
    ((b.next e).attributes id).lookup n = w := by
  cases e with
  | act user act =>
      obtain ⟨a, ha, hc⟩ := Option.bind_eq_some_iff.1 hc
      obtain ⟨⟨k, v⟩, hk, hc⟩ := Option.bind_eq_some_iff.1 hc
      cases hc
      simp only [Board.next, lookup_holds h.toTraces, ha]
      change ((b.act a.id act).attributes a.id).lookup n = w
      rw [Board.attributes_act, if_pos rfl]
      exact Act.lookup_edit hk _
  | _ => cases hc

theorem Follows.lookup_next (h : Follows s b) (hs : Spares id n s e) (hl : (b.next e).Live id) :
    ((b.next e).attributes id).lookup n = (b.attributes id).lookup n := by
  rcases b.attributes_next e id with ⟨user, act, rfl, hu, hb⟩ | hb | ⟨-, hn⟩
  · rw [hb]
    refine Act.lookup_edit_of_ne (fun v hv => ?_) _
    rw [lookup_holds h.toTraces] at hu
    obtain ⟨a, ha, rfl⟩ := Option.map_eq_some_iff.1 hu
    have hc : s.change? (.act user act) = some (a.id, n, v) := by simp [change?, ha, hv]
    exact hs _ hc rfl
  · rw [hb]
  · exact absurd hl hn

theorem Follows.lookup_run (h : Follows s b) (hc : Throughout Calm s es)
    (hs : Throughout (fun s e => Spares id n s e ∧ (s.next e).Live id) s es) :
    ((b.run es).attributes id).lookup n = (b.attributes id).lookup n := by
  induction es generalizing s b with
  | nil => rfl
  | cons e es ih =>
      have hf := h.next hc.1
      exact (ih hf hc.2 hs.2).trans (h.lookup_next hs.1.1 (hf.live.2 hs.1.2))

theorem Follows.throughout_live (h : Follows s b) (hc : Throughout Calm s es) (hi : id ∈ b.saved)
    (hs : Throughout p s es) : Throughout (fun s e => p s e ∧ (s.next e).Live id) s es := by
  induction es generalizing s b with
  | nil => trivial
  | cons e es ih =>
      have hf := h.next hc.1
      have hi' : id ∈ (b.next e).saved := Board.saved_next hi e
      exact ⟨⟨hs.1, hf.live.1 (.inl hi')⟩, ih hf hc.2 hi' hs.2⟩

theorem Follows.reset (h : Follows s b) (hc : s.Calm e)
    (hne : (b.next e).attributes id ≠ b.attributes id) :
    (∃ user act a, e = .act user act ∧ s.held? user = some a ∧ a.id = id ∧
      (b.next e).attributes id = act.edit (b.attributes id)) ∨
    (b.next e).attributes id = [] ∧ s.Live id ∧ ¬(s.next e).Live id := by
  rcases b.attributes_next e id with ⟨user, act, he, hu, hb⟩ | hb | ⟨hb, hn⟩
  · rw [lookup_holds h.toTraces] at hu
    obtain ⟨a, ha, hi⟩ := Option.map_eq_some_iff.1 hu
    exact .inl ⟨user, act, a, he, ha, hi, hb⟩
  · exact absurd hb hne
  · have hl : b.Live id := by
      by_contra hl
      exact hne (hb.trans (h.blank hl).symm)
    exact .inr ⟨hb, h.live.1 hl, fun hl' => hn ((h.next hc).live.2 hl')⟩

theorem Follows.saved_run (h : Follows s b) (hc : Throughout Calm s (es ++ e :: es'))
    (hi : id ∈ (s.run es).saves e) : id ∈ (b.run (es ++ e :: es')).saved := by
  have hf := (h.run (throughout_append.1 hc).1).1
  rw [Board.run_append, Board.run_cons]
  exact Board.saved_run (hf.saves hi)

theorem Follows.lookup_lasting (h : Follows s b) (hc : Throughout Calm s (e :: (es ++ e' :: es')))
    (hch : s.change? e = some (id, n, w))
    (hs : Throughout (fun s e => Spares id n s e ∧ (s.next e).Live id) (s.next e) es)
    (hi : id ∈ ((s.next e).run es).saves e')
    (hs' : Throughout (Spares id n) (((s.next e).run es).next e') es') :
    ((b.run (e :: (es ++ e' :: es'))).attributes id).lookup n = w := by
  have hf := h.next hc.1
  have hc' := throughout_append.1 hc.2
  have hfe := (hf.run hc'.1).1
  have hsaved := hfe.saves hi
  -- A commit changes no attribute, and what it saves stays.
  have hsp : Spares id n ((s.next e).run es) e' := by
    cases e' with
    | commit call now => exact fun c hc => by cases hc
    | _ => cases hi
  have hl : (((s.next e).run es).next e').Live id := (hfe.next hc'.2.1).live.1 (.inl hsaved)
  have ht := (hfe.next hc'.2.1).throughout_live hc'.2.2 hsaved hs'
  rw [Board.run_cons, hf.lookup_run hc.2 (throughout_append.2 ⟨hs, ⟨hsp, hl⟩, ht⟩)]
  exact h.lookup_change hch

theorem Follows.reply_resolve {call user : κ} {ids : List SessionId} {spare : SessionId} {now : Nat}
    (h : Follows s b) (hc : s.Calm (.resolve call user ids spare now)) :
    s.reply (.resolve call user ids spare now) =
      .session (b.chosen ids spare) (b.attributes (b.chosen ids spare)) :=
  (h.resolve hc).2.2

/-- Calls over a manager are one map of attributes for each id. -/
structure OneMap (maxIdle : Nat) (es : List (Event κ)) : Prop where
  /-- Everybody gets the answers that he would get from the board. -/
  replies : (opened maxIdle).replies es = Board.replies {} es
  /-- All sessions of an id that are held or stored have the attributes of its map. -/
  shared : ∀ {a}, ((opened maxIdle).run es).manager.Has a →
    (((opened maxIdle).run es).manager.store.get? a).map (·.attributes) =
      some ((Board.run {} es).attributes a.id)
  /-- A map changes by an act of a holder, or is emptied when the last holder is gone and no commit
  has ever saved it. -/
  reset : ∀ {es₁ e es₂ id}, es = es₁ ++ e :: es₂ →
    (Board.run {} (es₁ ++ [e])).attributes id ≠ (Board.run {} es₁).attributes id →
    (∃ user act a, e = .act user act ∧ ((opened maxIdle).run es₁).held? user = some a ∧ a.id = id ∧
      (Board.run {} (es₁ ++ [e])).attributes id = act.edit ((Board.run {} es₁).attributes id)) ∨
    (Board.run {} (es₁ ++ [e])).attributes id = [] ∧ ((opened maxIdle).run es₁).Live id ∧
      ¬((opened maxIdle).run (es₁ ++ [e])).Live id ∧
      ∀ es₀ e₀ es', es₁ ++ [e] = es₀ ++ e₀ :: es' → id ∉ ((opened maxIdle).run es₀).saves e₀
  /-- What has been changed before a commit, and was not emptied until then, is seen by all who come
  later, unless it has been changed again. -/
  lasting : ∀ {es₁ e es₂ e' es₃ id n w}, es = es₁ ++ e :: es₂ ++ e' :: es₃ →
    ((opened maxIdle).run es₁).change? e = some (id, n, w) →
    Throughout (fun s e => Spares id n s e ∧ (s.next e).Live id)
      ((opened maxIdle).run (es₁ ++ [e])) es₂ →
    id ∈ ((opened maxIdle).run (es₁ ++ e :: es₂)).saves e' →
    Throughout (Spares id n) ((opened maxIdle).run (es₁ ++ e :: es₂ ++ [e'])) es₃ →
    ∀ call user ids spare now,
      ((opened maxIdle).run es).Calm (.resolve call user ids spare now) →
      ∃ i ms, ((opened maxIdle).run es).reply (.resolve call user ids spare now) = .session i ms ∧
        (ids.head? = some id → i = id) ∧ (i = id → ms.lookup n = w)

/-- As long as no session is invalidated, thrown away or idle for too long, each id has one map of
attributes, and what a commit has saved of it lasts. -/
theorem one_map_per_id (h : Throughout Calm (opened maxIdle) es) : OneMap maxIdle es where
  replies := ((follows_opened maxIdle).run h).2
  shared := fun ha => get?_attributes ((follows_opened maxIdle).run h).1.toTraces ha
  reset := by
    rintro es₁ e es₂ id rfl hne
    obtain ⟨h₁, he, -⟩ := throughout_append.1 h
    have hf := ((follows_opened maxIdle).run h₁).1
    simp only [Board.run_append, Board.run_cons, Board.run_nil] at hne ⊢
    rcases hf.reset he hne with hr | ⟨hb, hl, hn⟩
    · exact .inl hr
    · refine .inr ⟨hb, hl, by simpa using hn, fun es₀ e₀ es' hes hi => ?_⟩
      have hc : Throughout Calm (opened maxIdle) (es₁ ++ [e]) := throughout_append.2 ⟨h₁, he, trivial⟩
      have hs : id ∈ (Board.run {} (es₁ ++ [e])).saved := by
        rw [hes] at hc ⊢
        exact (follows_opened maxIdle).saved_run hc hi
      rw [Board.run_append] at hs
      exact hn ((hf.next he).live.1 (.inl hs))
  lasting := by
    rintro es₁ e es₂ e' es₃ id n w rfl hch hs hi hs' call user ids spare now hc
    have hes : es₁ ++ e :: es₂ ++ e' :: es₃ = es₁ ++ e :: (es₂ ++ e' :: es₃) := by simp
    have hf := ((follows_opened maxIdle).run h).1
    have hsaved := (follows_opened maxIdle).saved_run h hi
    rw [hes] at h
    obtain ⟨h₁, h₂⟩ := throughout_append.1 h
    have hf₁ := ((follows_opened maxIdle).run h₁).1
    simp only [run_append, run_cons, run_nil] at hs hi hs'
    have hlast := hf₁.lookup_lasting h₂ hch hs hi hs'
    rw [← Board.run_append, ← hes] at hlast
    refine ⟨_, _, hf.reply_resolve hc, fun hid => Manager.chosen_of_head? hid hsaved, fun hi' => ?_⟩
    rw [hi']
    exact hlast

def met : List (Event Nat) := [.resolve 0 0 [⟨"c"⟩] ⟨""⟩ 1, .resolve 1 1 [⟨"c"⟩] ⟨""⟩ 2]

def overlapping : List (Event Nat) :=
  met ++ .act 0 (.set "k" (.bool true)) :: [.act 1 (.set "j" (.bool false))] ++
    .commit 1 3 :: [.drop 1, .letGo 1, .drop 0, .letGo 0]

theorem one_map_per_id_of_overlapping : Throughout Calm (opened 5) overlapping ∧
    ∃ ms, ((opened 5).run overlapping).reply (.resolve 2 2 [⟨"c"⟩] ⟨""⟩ 4) = .session ⟨"c"⟩ ms ∧
      ms.lookup "k" = some (.bool true) := by
  have hc : Throughout Calm (opened 5) overlapping := by decide +kernel
  have hch : ((opened 5).run met).change? (.act 0 (.set "k" (.bool true))) =
      some (⟨"c"⟩, "k", some (.bool true)) := by decide +kernel
  have hs : Throughout (fun s e => Spares ⟨"c"⟩ "k" s e ∧ (s.next e).Live ⟨"c"⟩)
      ((opened 5).run (met ++ [.act 0 (.set "k" (.bool true))])) [.act 1 (.set "j" (.bool false))] := by
    decide +kernel
  have hi : ⟨"c"⟩ ∈ ((opened 5).run
      (met ++ .act 0 (.set "k" (.bool true)) :: [.act 1 (.set "j" (.bool false))])).saves (.commit 1 3) := by
    decide +kernel
  obtain ⟨i, ms, hr, hid, hk⟩ := (one_map_per_id hc).lasting rfl hch hs hi (by decide +kernel)
    2 2 [⟨"c"⟩] ⟨""⟩ 4 (by decide +kernel)
  obtain rfl := hid rfl
  exact ⟨hc, ms, hr, hk rfl⟩

def alone : List (Event Nat) := [.resolve 0 0 [⟨"c"⟩] ⟨""⟩ 1]

def forsaken : List (Event Nat) :=
  [.letGo 0, .drop 0, .resolve 1 1 [⟨"c"⟩] ⟨""⟩ 2, .act 1 (.set "j" (.bool false))]

/-- What was set before the map was emptied is not seen after the commit of another call, although
nobody has set or removed it since. -/
theorem lost_when_emptied :
    let e : Event Nat := .act 0 (.set "k" (.bool true))
    let s₁ := (opened 5).run alone
    let s₂ := (s₁.next e).run forsaken
    let s₃ := s₂.next (.commit 1 3)
    Throughout Calm (opened 5)
      (alone ++ e :: forsaken ++ [.commit 1 3, .resolve 2 2 [⟨"c"⟩] ⟨""⟩ 4]) ∧
    s₁.change? e = some (⟨"c"⟩, "k", some (.bool true)) ∧
    Throughout (Spares ⟨"c"⟩ "k") (s₁.next e) forsaken ∧
    ⟨"c"⟩ ∈ s₂.saves (.commit 1 3) ∧
    s₃.reply (.resolve 2 2 [⟨"c"⟩] ⟨""⟩ 4) = .session ⟨"c"⟩ [("j", .bool false)] := by
  decide +kernel

end Parley.Session.Floor
