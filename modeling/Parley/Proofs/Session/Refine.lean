import Parley.Proofs.Session.Board

namespace Parley.Session.Floor

open Manager (Gets Keeps)

variable {κ : Type} {s : Floor κ} {b : Board κ} {m : Manager (Holder κ)} {a : Handle} {call user : κ}
  {id : SessionId} {e : Event κ} {es : List (Event κ)}

def Live (s : Floor κ) (id : SessionId) : Prop := ∃ a, s.manager.Has a ∧ a.id = id

theorem live_iff :
    s.Live id ↔ id ∈ s.manager.savedIds ∨ id ∈ s.manager.holds.map fun h => h.2.id := by
  simp only [Live, Manager.Has, Manager.savedIds, List.mem_map]
  constructor
  · rintro ⟨a, ha | ⟨who, ha⟩, hi⟩
    · exact .inl ⟨a, ha, hi⟩
    · exact .inr ⟨_, ha, hi⟩
  · rintro (⟨a, ha, hi⟩ | ⟨⟨who, a⟩, ha, hi⟩)
    · exact ⟨a, .inl ha, hi⟩
    · exact ⟨a, .inr ⟨who, ha⟩, hi⟩

instance (s : Floor κ) (id : SessionId) : Decidable (s.Live id) := decidable_of_iff _ live_iff.symm

structure Traces (s : Floor κ) (b : Board κ) : Prop where
  holds : b.holds = s.manager.holds.map fun h => (h.1, h.2.id)
  saved : ∀ {id}, id ∈ b.saved ↔ id ∈ s.manager.savedIds
  closed : ∀ k, b.closed k = true ↔ (s.commits k).state ≠ .new
  attributes : ∀ {a}, s.manager.Has a →
    (s.manager.store.content? a).map (·.attributes) = some (b.attributes a.id)

structure Depicts (s : Floor κ) (b : Board κ) : Prop extends Traces s b where
  blank : ∀ {id}, ¬b.Live id → b.attributes id = []

structure Follows (s : Floor κ) (b : Board κ) : Prop extends Depicts s b where
  sound : s.Sound
  quiet : s.manager.store.Quiet

theorem Traces.live (h : Traces s b) : b.Live id ↔ s.Live id := by
  rw [Board.Live, h.saved, h.holds, live_iff, List.map_map]
  rfl

theorem Traces.settle (h : Traces s b) : Depicts s b.settle where
  holds := h.holds
  saved := h.saved
  closed := h.closed
  attributes := fun {a} ha => by
    rw [h.attributes ha]
    exact congrArg some (if_pos (h.live.2 ⟨a, ha, rfl⟩)).symm
  blank := fun hl => if_neg hl

theorem depicts_opened (maxIdle : Nat) : Depicts (opened maxIdle : Floor κ) {} where
  holds := rfl
  saved := by simp [opened, Manager.savedIds]
  closed := by simp [opened]
  attributes := by rintro a (ha | ⟨who, ha⟩) <;> simp [opened] at ha
  blank := fun _ => rfl

theorem Traces.hold (h : Traces s b) (who : Holder κ)
    (ha : (s.manager.store.content? a).map (·.attributes) = some (b.attributes a.id)) :
    Traces { s with manager := s.manager.hold who a } (b.hold who a.id) where
  holds := by simp [Board.hold, Manager.hold, h.holds]
  saved := h.saved
  closed := h.closed
  attributes := by
    rintro c (hc | ⟨w, hw⟩)
    · exact h.attributes (.inl hc)
    · rcases Manager.mem_holds_hold.1 hw with hw | hw
      · exact h.attributes (.inr ⟨w, hw⟩)
      · cases hw
        exact ha

theorem Depicts.gets (h : Depicts s b) (hg : s.manager.Gets m a) :
    Traces { s with manager := m } b ∧
      (m.store.content? a).map (·.attributes) = some (b.attributes a.id) := by
  have has {c} (hc : m.Has c) : s.manager.Has c := by
    rw [Manager.Has, hg.stored, hg.holds] at hc
    exact hc
  refine ⟨⟨hg.holds ▸ h.holds, ?_, h.closed, fun hc => ?_⟩, ?_⟩
  · intro id
    rw [h.saved, Manager.savedIds, Manager.savedIds, hg.stored]
  · rw [hg.content (has hc)]
    exact h.attributes (has hc)
  · rcases hg.session with ha | ⟨hn, hc⟩
    · rw [hg.content ha]
      exact h.attributes ha
    · -- A new session starts with the empty map that its id has been left with.
      have hl : ¬b.Live a.id := fun hl => by
        obtain ⟨c, hc, hi⟩ := h.live.1 hl
        exact hn c hc hi
      rw [hc, h.blank hl]
      rfl

theorem get?_attributes (h : Traces s b) (ha : s.manager.Has a) :
    (s.manager.store.get? a).map (·.attributes) = some (b.attributes a.id) := by
  rw [← Store.attributes_content?]
  exact h.attributes ha

theorem Follows.edit (h : Follows s b) (ha : s.manager.Has a) (act : Act) :
    Depicts { s with manager := s.manager.edit a act.run } (b.act a.id act) where
  holds := h.holds
  saved := h.saved
  closed := h.closed
  attributes := by
    intro c (hc : s.manager.Has c)
    change ((s.manager.store.modify a act.run).content? c).map _ = _
    rw [Store.content?_act, Board.attributes_act]
    by_cases hca : c = a
    · subst hca
      rw [if_pos rfl, if_pos rfl, Option.map_map]
      have hr : (fun x : Session => (act.run x).attributes) = act.edit ∘ (·.attributes) :=
        funext (Act.attributes_run act)
      rw [Function.comp_def, hr, ← Option.map_map, h.attributes hc]
      rfl
    · -- Each id has one session, so no other shares the map.
      have hu {d} (hd : s.manager.Has d) := h.quiet.isExpired (h.sound.manager.known hd)
      have hi : c.id ≠ a.id := fun hi => hca (h.sound.manager.unique hc ha hi (hu hc) (hu ha))
      rw [if_neg hca, if_neg hi]
      exact h.attributes hc
  blank := by
    intro id hl
    have hi : id ≠ a.id := fun hi => hl (h.live.2 ⟨a, ha, hi.symm⟩)
    rw [Board.attributes_act, if_neg hi]
    exact h.blank hl

theorem isFilled_eq (h : Traces s b) (ha : s.manager.Has a) :
    s.manager.store.isFilled a = !(b.attributes a.id).isEmpty := by
  have hx := get?_attributes h ha
  obtain ⟨x, hx, hxa⟩ := Option.map_eq_some_iff.1 hx
  rw [Store.isFilled, hx, ← hxa]
  rfl

theorem follows_opened (maxIdle : Nat) : Follows (opened maxIdle : Floor κ) {} :=
  ⟨depicts_opened maxIdle, sound_opened maxIdle,
    fun _ _ h => by simp [opened, Store.content?, Store.get?] at h⟩

variable [DecidableEq κ]

def reply (s : Floor κ) : Event κ → Reply
  | .resolve call user ids spare now =>
    match s.resolve call user ids spare now with
    | (s, .ok a) => .session a.id (((s.manager.store.get? a).map (·.attributes)).getD [])
    | (_, .error e) => .refused e
  | .act user a => ((s.act user a).map fun r => Reply.result r.2).getD .nothing
  | .commit call now =>
    match (s.commit call now).2 with
    | .ok () => .nothing
    | .error e => .refused e
  | _ => .nothing

def replies (s : Floor κ) : List (Event κ) → List Reply
  | [] => []
  | e :: es => s.reply e :: (s.next e).replies es

/-- The event takes no session away, and comes before one is idle for too long. -/
def Calm (s : Floor κ) : Event κ → Prop
  | .resolve _ _ _ _ now => s.manager.store.Timely now
  | .act _ a => a ≠ .start ∧ a ≠ .invalidate
  | .commit .. | .drop _ | .letGo _ => True
  | .evict _ | .remove _ => False

instance (s : Floor κ) : (e : Event κ) → Decidable (s.Calm e)
  | .resolve _ _ _ _ now => inferInstanceAs (Decidable (s.manager.store.Timely now))
  | .act _ a => inferInstanceAs (Decidable (a ≠ .start ∧ a ≠ .invalidate))
  | .commit .. | .drop _ | .letGo _ => .isTrue trivial
  | .evict _ | .remove _ => .isFalse not_false

def Throughout (p : Floor κ → Event κ → Prop) (s : Floor κ) : List (Event κ) → Prop
  | [] => True
  | e :: es => p s e ∧ Throughout p (s.next e) es

instance Throughout.decidable {p : Floor κ → Event κ → Prop} [∀ s e, Decidable (p s e)] :
    (s : Floor κ) → (es : List (Event κ)) → Decidable (Throughout p s es)
  | _, [] => .isTrue trivial
  | s, e :: es =>
    have : Decidable (Throughout p (s.next e) es) := Throughout.decidable (s.next e) es
    inferInstanceAs (Decidable (p s e ∧ Throughout p (s.next e) es))

def Answers (s : Floor κ) (b : Board κ) (e : Event κ) : Prop :=
  Depicts (s.next e) (b.next e) ∧ (s.next e).manager.store.Quiet ∧ s.reply e = b.reply e

theorem Traces.release (h : Traces s b) (who : Holder κ) :
    Traces { s with manager := s.manager.release who } (b.release who) where
  holds := by
    simp only [Board.release, Manager.release, h.holds, List.filter_map]
    rfl
  saved := h.saved
  closed := h.closed
  attributes := fun ha =>
    h.attributes (ha.imp_right fun ⟨w, hw⟩ => ⟨w, (Manager.mem_holds_release.1 hw).1⟩)

theorem Traces.setCommit {f : Flow.Commit Handle} {closed : Bool} (h : Traces s b) (call : κ)
    (hf : closed = true ↔ f.state ≠ .new) : Traces (s.setCommit call f) (b.setClosed call closed) where
  holds := h.holds
  saved := h.saved
  closed := fun k => by
    by_cases hk : k = call
    · subst hk
      simpa [Board.setClosed, Floor.setCommit] using hf
    · simpa [Board.setClosed, Floor.setCommit, hk] using h.closed k
  attributes := h.attributes

theorem Depicts.granted (h : Depicts s b) (hg : s.manager.Gets m a) (call user : κ) :
    Traces (s.granted m call user a) (b.resolve call user a.id) := by
  obtain ⟨ht, ha⟩ := h.gets hg
  have hu := (ht.release (.user user)).hold (.user user) ha
  have hc := h.closed call
  rw [Floor.granted, Board.resolve]
  split
  · next hn =>
    have hb : b.closed call = false := by simpa [hn] using hc
    have hf : b.closed call = true ↔
        { s.commits call with hooks := (s.commits call).hooks ++ [a] }.state ≠ .new := hc
    have hs := (hu.hold (.call call) ha).setCommit call (hb ▸ hf)
    rw [Board.setClosed_self (b := ((b.release _).hold _ _).hold _ _) hb] at hs
    rwa [if_neg (by simpa [Board.hold, Board.release] using hb)]
  · next hn =>
    have hb : b.closed call = true := hc.2 hn
    rwa [if_pos (by simpa [Board.hold, Board.release] using hb)]

theorem Follows.resolve {ids : List SessionId} {spare : SessionId} {now : Nat} (h : Follows s b)
    (ht : s.manager.store.Timely now) : Answers s b (.resolve call user ids spare now) := by
  obtain ⟨m, a, hr, hi, hg⟩ := h.sound.manager.gets h.sound.able h.quiet ht ids spare
  have hb : b.chosen ids spare = a.id := by
    rw [hi, Board.chosen, Manager.chosen, Manager.chosen]
    simp only [h.saved]
  have hst : (s.granted m call user a).manager.store = m.store := by
    rw [Floor.granted]
    split <;> rfl
  have ha : (m.store.get? a).map (·.attributes) = some (b.attributes a.id) := by
    rw [← Store.attributes_content?]
    exact (h.gets hg).2
  simp only [Answers, Floor.next, Floor.reply, Board.next, Board.reply, resolve_eq hr, hb, hst, ha]
  exact ⟨(h.granted hg call user).settle, hg.quiet, rfl⟩

theorem lookup_holds (h : Traces s b) (user : κ) :
    b.holds.lookup (.user user) = (s.held? user).map Handle.id := by
  rw [h.holds, held?]
  induction s.manager.holds with
  | nil => rfl
  | cons e es ih =>
      obtain ⟨who, a⟩ := e
      by_cases hw : Holder.user user = who
      · simp [hw]
      · simp only [List.map_cons, List.lookup_cons, beq_eq_false_iff_ne.2 hw, ih]

theorem Follows.act {act : Act} (h : Follows s b) (hc : act ≠ .start ∧ act ≠ .invalidate) :
    Answers s b (.act user act) := by
  have hl := lookup_holds h.toTraces user
  cases hu : s.held? user with
  | none =>
      rw [hu] at hl
      simp only [Answers, Floor.next, Floor.reply, Board.next, Board.reply, act_of_none hu, hl]
      exact ⟨h.toDepicts, h.quiet, rfl⟩
  | some a =>
      have ha : s.manager.Has a := .inr ⟨_, mem_of_held? hu⟩
      obtain ⟨x, hx⟩ := Store.mem_handles.1 (h.sound.manager.known ha)
      have hxa : x.attributes = b.attributes a.id := by
        have := get?_attributes h.toTraces ha
        rw [hx] at this
        exact Option.some.inj this
      rw [hu] at hl
      simp only [Answers, Floor.next, Floor.reply, Board.next, Board.reply, act_eq hu hx, hl]
      exact ⟨h.edit ha act, h.quiet.act hc.1 hc.2,
        congrArg Reply.result (Act.result_congr hxa act)⟩

theorem Follows.mem_heldBy (h : Follows s b) (hn : (s.commits call).state = .new) :
    id ∈ b.heldBy (.call call) ↔ ∃ a ∈ (s.commits call).hooks, a.id = id := by
  have hk (a : Handle) : a ∈ (s.commits call).hooks ↔ (.call call, a) ∈ s.manager.holds := by
    rw [h.sound.hooked]
    simp [hn]
  simp only [Board.heldBy, h.holds, hk]
  simp only [List.mem_map, List.mem_filter]
  constructor
  · rintro ⟨_, ⟨⟨⟨who, a⟩, ha, rfl⟩, hw⟩, rfl⟩
    obtain rfl : who = .call call := by simpa using hw
    exact ⟨a, ha, rfl⟩
  · rintro ⟨a, ha, rfl⟩
    exact ⟨_, ⟨⟨_, ha, rfl⟩, by simp⟩, rfl⟩

theorem Follows.keeps {t : Store} (h : Follows s b) (hn : (s.commits call).state = .new)
    (hk : s.manager.Keeps (s.commits call).hooks t) :
    Traces (s.setStore t) (b.save call) where
  holds := h.holds
  saved := by
    intro id
    change id ∈ _ ↔ id ∈ t.stored.map Handle.id
    rw [hk.saved, Board.save, List.mem_append, h.saved]
    refine or_congr_right ?_
    have hf {a} (ha : a ∈ (s.commits call).hooks) :=
      isFilled_eq h.toTraces (h.sound.has_of_hook hn ha)
    rw [List.mem_filter, h.mem_heldBy hn]
    simp only [List.mem_map, List.mem_filter]
    constructor
    · rintro ⟨⟨a, ha, rfl⟩, hne⟩
      exact ⟨a, ⟨ha, (hf ha).trans hne⟩, rfl⟩
    · rintro ⟨a, ⟨ha, hfa⟩, rfl⟩
      exact ⟨⟨a, ha, rfl⟩, (hf ha).symm.trans hfa⟩
  closed := h.closed
  attributes := by
    intro a ha
    have has : s.manager.Has a := by
      rcases ha with ha | ha
      · rcases hk.stored ha with ha | ha
        · exact .inl ha
        · exact h.sound.has_of_hook hn ha
      · exact .inr ha
    change (t.content? a).map _ = _
    rw [hk.content]
    exact h.attributes has

theorem Follows.commit {now : Nat} (h : Follows s b) : Answers s b (.commit call now) := by
  have hc := h.closed call
  by_cases hn : (s.commits call).state = .new
  · obtain ⟨t, ht, hk⟩ := Manager.keeps (s.commits call).hooks h.sound.able h.quiet now
    have hb : b.closed call = false := by simpa [hn] using hc
    simp only [Answers, Floor.next, Floor.reply, Board.next, Board.reply, commit_of_new hn ht, hb]
    refine ⟨?_, h.quiet.of_content? hk.content, trivial⟩
    exact (((h.keeps hn hk).release _).setCommit call (by simp)).settle
  · simp only [Answers, Floor.next, Floor.reply, Board.next, Board.reply, commit_of_begun hn, hc.2 hn,
      if_true]
    exact ⟨h.toDepicts, h.quiet, trivial⟩

theorem Follows.answers (h : Follows s b) (hc : s.Calm e) : Answers s b e := by
  cases e with
  | resolve call user ids spare now => exact h.resolve hc
  | act user act => exact h.act hc
  | commit call now => exact h.commit
  | drop call => exact ⟨((h.release _).setCommit call (by simp)).settle, h.quiet, rfl⟩
  | letGo user => exact ⟨(h.release _).settle, h.quiet, rfl⟩
  | evict now => exact hc.elim
  | remove id => exact hc.elim

theorem Follows.next (h : Follows s b) (hc : s.Calm e) : Follows (s.next e) (b.next e) := by
  obtain ⟨hd, hq, -⟩ := h.answers hc
  exact ⟨hd, h.sound.next e, hq⟩

theorem Follows.run (h : Follows s b) (hc : Throughout Calm s es) :
    Follows (s.run es) (b.run es) ∧ s.replies es = b.replies es := by
  induction es generalizing s b with
  | nil => exact ⟨h, rfl⟩
  | cons e es ih =>
      obtain ⟨hf, hr⟩ := ih (h.next hc.1) hc.2
      exact ⟨hf, congrArg₂ List.cons (h.answers hc.1).2.2 hr⟩

end Parley.Session.Floor
