import Parley.Proofs.Session.Manager
import Parley.Session.Manager

namespace Parley.Session

/-- What may happen to calls over one manager, or to its store. -/
inductive Event (κ : Type)
  | resolve (call user : κ) (ids : List SessionId) (spare : SessionId) (now : Nat)
  | act (user : κ) (a : Act)
  | commit (call : κ) (now : Nat)
  | drop (call : κ)
  | letGo (user : κ)
  | evict (now : Nat)
  | remove (id : SessionId)

namespace Manager

variable {χ : Type} {m : Manager χ} {a b : Handle} {who : χ} {e : χ × Handle}

@[simp] theorem mem_holds_hold : e ∈ (m.hold who a).holds ↔ e ∈ m.holds ∨ e = (who, a) := by
  simp [hold]

@[simp] theorem mem_holds_release [DecidableEq χ] :
    e ∈ (m.release who).holds ↔ e ∈ m.holds ∧ e.1 ≠ who := by
  simp [release]

end Manager

namespace Floor

variable {κ : Type} {s : Floor κ} {m : Manager (Holder κ)} {a : Handle} {x : Session} {call user : κ}
  {ids : List SessionId} {spare : SessionId} {now : Nat}

def opened (maxIdle : Nat) : Floor κ := { manager := { store := { maxIdle } } }

def setStore (s : Floor κ) (store : Store) : Floor κ := { s with manager := { s.manager with store } }

structure Sound (s : Floor κ) : Prop where
  manager : s.manager.Sound
  able : s.manager.failing = []
  hooked : ∀ {k a}, (.call k, a) ∈ s.manager.holds ↔
    (s.commits k).state = .new ∧ a ∈ (s.commits k).hooks

theorem Sound.has_of_hook (h : s.Sound) (hn : (s.commits call).state = .new)
    (ha : a ∈ (s.commits call).hooks) : s.manager.Has a :=
  .inr ⟨.call call, h.hooked.2 ⟨hn, ha⟩⟩

theorem sound_opened (maxIdle : Nat) : (opened maxIdle : Floor κ).Sound where
  manager := Manager.sound_empty _ rfl rfl
  able := rfl
  hooked := by simp [opened]

theorem Sound.setStore {t : Store} (h : s.Sound) (hf : s.manager.store.Fades t) :
    (s.setStore t).Sound :=
  ⟨h.manager.fades hf, h.able, h.hooked⟩

variable [DecidableEq κ]

def next (s : Floor κ) : Event κ → Floor κ
  | .resolve call user ids spare now => (s.resolve call user ids spare now).1
  | .act user a => ((s.act user a).map Prod.fst).getD s
  | .commit call now => (s.commit call now).1
  | .drop call => s.drop call
  | .letGo user => s.letGo user
  | .evict now => s.setStore (s.manager.store.evict now).1
  | .remove id => s.setStore (s.manager.store.remove id)

def run (s : Floor κ) (es : List (Event κ)) : Floor κ := es.foldl next s

@[simp] theorem run_nil : s.run [] = s := rfl

@[simp] theorem run_cons (e : Event κ) (es : List (Event κ)) :
    s.run (e :: es) = (s.next e).run es := rfl

@[simp] theorem run_append (es es' : List (Event κ)) : s.run (es ++ es') = (s.run es).run es' :=
  List.foldl_append

theorem setCommit_self : s.setCommit call (s.commits call) = s := by
  simp only [setCommit]
  congr
  funext k
  split
  · next h => rw [h]
  · rfl

theorem mem_of_held? (h : s.held? user = some a) : (.user user, a) ∈ s.manager.holds := by
  obtain ⟨l, r, he, -⟩ := List.lookup_eq_some_iff.1 h
  simp [he]

def granted (s : Floor κ) (m : Manager (Holder κ)) (call user : κ) (a : Handle) : Floor κ :=
  let manager := (m.release (.user user)).hold (.user user) a
  if (s.commits call).state = .new then
    setCommit { s with manager := manager.hold (.call call) a } call
      { s.commits call with hooks := (s.commits call).hooks ++ [a] }
  else { s with manager }

theorem resolve_eq (hm : s.manager.resolve ids spare now = (m, .ok a)) :
    s.resolve call user ids spare now = (s.granted m call user a, .ok a) := by
  simp only [resolve, hm, Flow.Commit.add, granted]
  split
  · rfl
  · exact congrArg (·, _) (setCommit_self (s := { s with manager := _ }))

theorem act_eq (h : s.held? user = some a) (hx : s.manager.store.get? a = some x) (act : Act) :
    s.act user act = some ({ s with manager := s.manager.edit a act.run }, act.result x) := by
  simp only [Floor.act, h, hx, Option.bind_eq_bind, Option.bind_some]

theorem act_of_none (h : s.held? user = none) (act : Act) : s.act user act = none := by
  simp only [Floor.act, h]
  rfl

def settled (s : Floor κ) (call : κ) (store : Store) : Floor κ :=
  setCommit { s with manager := { s.manager with store }.release (.call call) } call
    { s.commits call with state := .committed }

theorem commit_of_new {store : Store} (hn : (s.commits call).state = .new)
    (hm : s.manager.saveAll now (s.commits call).hooks = ({ s.manager with store }, .ok ())) :
    s.commit call now = (s.settled call store, .ok ()) := by
  simp only [commit, Flow.Commit.start, if_pos hn, hm]
  rfl

theorem commit_of_begun (hn : (s.commits call).state ≠ .new) : s.commit call now = (s, .ok ()) := by
  simp only [commit, Flow.Commit.start, if_neg hn]

theorem Sound.granted (h : s.Sound) (hm : m.Offers a) (hf : m.failing = [])
    (hh : m.holds = s.manager.holds) (call user : κ) : (s.granted m call user a).Sound := by
  have hu := (hm.release (.user user)).hold (.user user)
  rw [Floor.granted]
  split
  · next hn =>
    refine ⟨(hu.hold (.call call)).sound, hf, fun {k b} => ?_⟩
    simp only [setCommit, Manager.mem_holds_hold, Manager.mem_holds_release, hh, h.hooked]
    by_cases hk : k = call
    · subst hk
      simp [hn]
    · simp [hk]
  · next hn =>
    -- A call that has begun to commit is to save nothing more, and holds nothing for it.
    refine ⟨hu.sound, hf, fun {k b} => ?_⟩
    simp [hh, h.hooked]

theorem Sound.resolve (h : s.Sound) (call user : κ) (ids : List SessionId) (spare : SessionId)
    (now : Nat) : ∃ s' a, s.resolve call user ids spare now = (s', .ok a) ∧ s'.Sound ∧
      s'.manager.store.isExpired a = false := by
  obtain ⟨m, a, he, ho, hf, hh⟩ := h.manager.resolve h.able ids spare now
  refine ⟨_, a, resolve_eq he, h.granted ho hf hh call user, ?_⟩
  rw [Floor.granted]
  split <;> exact ho.usable

theorem Sound.act (h : s.Sound) (user : κ) (act : Act) :
    (((s.act user act).map Prod.fst).getD s).Sound := by
  cases hu : s.held? user with
  | none =>
      rw [act_of_none hu]
      exact h
  | some a =>
      obtain ⟨x, hx⟩ := Store.mem_handles.1 (h.manager.known (.inr ⟨_, mem_of_held? hu⟩))
      rw [act_eq hu hx]
      exact h.setStore (.act a act)

theorem Sound.commit (h : s.Sound) (call : κ) (now : Nat) : (s.commit call now).1.Sound := by
  by_cases hn : (s.commits call).state = .new
  · obtain ⟨t, ht, hs⟩ := h.manager.saveAll h.able
      (fun a ha => ⟨.call call, h.hooked.2 ⟨hn, ha⟩⟩) now
    rw [commit_of_new hn ht]
    refine ⟨hs.release _, h.able, fun {k a} => ?_⟩
    simp only [settled, setCommit, Manager.mem_holds_release, h.hooked]
    by_cases hk : k = call <;> simp [hk]
  · rw [commit_of_begun hn]
    exact h

theorem Sound.drop (h : s.Sound) (call : κ) : (s.drop call).Sound := by
  refine ⟨h.manager.release _, h.able, fun {k a} => ?_⟩
  simp only [Floor.drop, setCommit, Manager.mem_holds_release, h.hooked]
  by_cases hk : k = call <;> simp [hk]

theorem Sound.letGo (h : s.Sound) (user : κ) : (s.letGo user).Sound :=
  ⟨h.manager.release _, h.able, by simp [Floor.letGo, h.hooked]⟩

theorem Sound.next (h : s.Sound) (e : Event κ) : (s.next e).Sound := by
  cases e with
  | resolve call user ids spare now =>
      obtain ⟨s', a, he, hs, -⟩ := h.resolve call user ids spare now
      rw [Floor.next, he]
      exact hs
  | act user act => exact h.act user act
  | commit call now => exact h.commit call now
  | drop call => exact h.drop call
  | letGo user => exact h.letGo user
  | evict now => exact h.setStore (.evict now)
  | remove id => exact h.setStore (.remove id)

theorem Sound.run (h : s.Sound) (es : List (Event κ)) : (s.run es).Sound := by
  induction es generalizing s with
  | nil => exact h
  | cons e es ih => exact ih (h.next e)

/-- Whatever happens, each session that somebody holds or that is stored exists, and of each id at
most one of them has not expired: the one that is shared for the id. Whoever asks for a session next
gets one that has not expired. -/
theorem one_session_per_id (maxIdle : Nat) (es : List (Event κ)) :
    let s : Floor κ := (opened maxIdle).run es
    (∀ a, s.manager.Has a → ∃ x, s.manager.store.get? a = some x) ∧
    (∀ a b, s.manager.Has a → s.manager.Has b → a.id = b.id → s.manager.store.isExpired a = false →
      s.manager.store.isExpired b = false → a = b) ∧
    (∀ a, s.manager.Has a → s.manager.store.isExpired a = false →
      (s.manager.shared.find? fun b => b.id = a.id) = some a) ∧
    ∀ call user ids spare now, ∃ s' a, s.resolve call user ids spare now = (s', .ok a) ∧
      s'.manager.store.isExpired a = false := by
  intro s
  have h : s.Sound := (sound_opened maxIdle).run es
  refine ⟨fun a ha => ?_, fun a b ha hb hi hea heb => ?_, fun a ha he => ?_,
    fun call user ids spare now => ?_⟩
  · exact Store.mem_handles.1 (h.manager.known ha)
  · exact h.manager.unique ha hb hi hea heb
  · exact h.manager.find? (h.manager.usable ha he)
  · obtain ⟨s', a, he, -, hu⟩ := h.resolve call user ids spare now
    exact ⟨s', a, he, hu⟩

def replaced : List (Event Nat) :=
  [.resolve 0 0 [⟨"c"⟩] ⟨""⟩ 1, .resolve 1 1 [⟨"c"⟩] ⟨""⟩ 2, .act 1 .invalidate,
    .resolve 2 2 [⟨"c"⟩] ⟨""⟩ 3]

theorem one_session_per_id_of_replaced :
    let s : Floor Nat := (opened 5).run replaced
    s.manager.Has ⟨⟨"c"⟩, 0⟩ ∧ s.manager.Has ⟨⟨"c"⟩, 2⟩ ∧
      s.manager.store.isExpired ⟨⟨"c"⟩, 2⟩ = false ∧
      (s.manager.shared.find? fun b => b.id = ⟨"c"⟩) = some ⟨⟨"c"⟩, 2⟩ := by
  have ho : ((opened 5).run replaced : Floor Nat).manager.Has ⟨⟨"c"⟩, 0⟩ :=
    Manager.isHeld_iff.1 (by decide +kernel)
  have hn : ((opened 5).run replaced : Floor Nat).manager.Has ⟨⟨"c"⟩, 2⟩ :=
    Manager.isHeld_iff.1 (by decide +kernel)
  have he : ((opened 5).run replaced : Floor Nat).manager.store.isExpired ⟨⟨"c"⟩, 2⟩ = false := by
    decide +kernel
  exact ⟨ho, hn, he, (one_session_per_id 5 replaced).2.2.1 _ hn he⟩

end Floor

end Parley.Session
