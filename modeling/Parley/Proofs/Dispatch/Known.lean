import Parley.Proofs.Dispatch.Registry
import Mathlib.Data.List.Forall2

namespace Parley.Dispatch

/-- The ledger after a change of the view. -/
def Ledger.after (a : Ledger) (c : ConnectionId) (v w : View) : Deed → Ledger
  | .nothing => a
  | .take m =>
    a.take v.registry c m (if v.numbered < w.numbered then some v.numbered else none)
      w.pump.isReplying
  | .post who => a.post who

theorem getElem?_concat_eq_some {α β : Type} {l : List (α × β)} {a a' : α} {b b' : β} {n : Nat} :
    (l ++ [(a, b)])[n]? = some (a', b') ↔ l[n]? = some (a', b') ∨ n = l.length ∧ a = a' ∧ b = b' := by
  grind

namespace View

def Settled (v : View) (a : Ledger) (n : Nat) : Prop :=
  n ∈ a.answers ∨ (∃ m, v.pump = .replying m) ∧ a.due = some n

structure Known (v : View) (a : Ledger) : Prop where
  numbered : ∀ {n : Nat} {m : Message} {s : Nat}, a.taken[n]? = some (m, some s) → s < v.numbered
  unique : ∀ {n n' : Nat} {m m' : Message} {s : Nat}, a.taken[n]? = some (m, some s) →
    a.taken[n']? = some (m', some s) → n = n'
  job : ∀ {s : Nat} {j : Job} {t : Ticket TokenName}, v.job s = some j → j.ticket = some t →
    ∃ (n : Nat) (q : Request), a.taken[n]? = some (.request q, some s) ∧ q.id = t.id

structure Balanced (c : ConnectionId) (v : View) (a : Ledger) : Prop where
  known : v.Known a
  due : ∀ {m : Message}, v.pump = .replying m → ∃ (n : Nat) (q : Request) (o : Option Nat)
    (x : Response), a.due = some n ∧ a.taken[n]? = some (.request q, o) ∧ m = .response x ∧
      x.id = q.id ∧ n ∉ a.answers
  answers : List.Forall₂ (fun (x : Response) (n : Nat) => ∃ (q : Request) (o : Option Nat),
    a.taken[n]? = some (.request q, o) ∧ x.id = q.id) v.responses a.answers
  nodup : a.answers.Nodup
  settled : ∀ {n : Nat} {q : Request} {s : Nat} {j : Job}, a.taken[n]? = some (.request q, some s) →
    v.Settled a n → v.job s = some j →
      j.stage = .executing ∧ ∃ t, j.ticket = some t ∧ (c, t.serial) ∈ v.registry.claimed
  unsettled : ∀ {n : Nat} {q : Request} {o : Option Nat}, a.taken[n]? = some (.request q, o) →
    ¬v.Settled a n → ∃ s j t, o = some s ∧ v.job s = some j ∧ j.ticket = some t ∧
      (j.stage = .executing → (c, t.serial) ∉ v.registry.claimed)

variable {c : ConnectionId} {v w : View} {a : Ledger}

theorem Known.numberOf_eq {n s : Nat} {m : Message} (hk : v.Known a)
    (hn : a.taken[n]? = some (m, some s)) : a.numberOf s = some n := by
  rw [Ledger.numberOf, List.findIdx?_eq_some_iff_getElem]
  obtain ⟨hlt, he⟩ := List.getElem?_eq_some_iff.1 hn
  refine ⟨hlt, by simp [he], fun i hi hd => ?_⟩
  have hl : i < a.taken.length := Nat.lt_trans hi hlt
  have hs : a.taken[i].2 = some s := by simpa using hd
  have hm : a.taken[i]? = some (a.taken[i].1, some s) := by rw [← hs]; simp [hl]
  exact Nat.ne_of_lt hi (hk.unique hm hn)

theorem Known.congr {b : Ledger} (hk : v.Known a) (hn : v.numbered ≤ w.numbered)
    (hj : w.job = v.job)
    (hb : b.taken = a.taken) : w.Known b := by
  constructor
  case numbered =>
    intro n m s h
    rw [hb] at h
    exact Nat.lt_of_lt_of_le (hk.numbered h) hn
  case unique =>
    intro n n' m m' s h h'
    rw [hb] at h h'
    exact hk.unique h h'
  case job =>
    intro s j t h ht
    rw [hj] at h
    rw [hb]
    exact hk.job h ht

theorem Known.take {m : Message} {o k : Option Nat} (hk : v.Known a) (hn : v.numbered ≤ w.numbered)
    (ho : ∀ s, o = some s → s = v.numbered ∧ v.numbered < w.numbered)
    (hj : ∀ s j t, w.job s = some j → j.ticket = some t →
      (∃ i, v.job s = some i ∧ i.ticket = some t) ∨
        o = some s ∧ ∃ q, m = .request q ∧ q.id = t.id) :
    w.Known { a with taken := a.taken ++ [(m, o)], due := k } where
  numbered h := by
    rcases getElem?_concat_eq_some.1 h with h | ⟨-, -, h⟩
    · exact Nat.lt_of_lt_of_le (hk.numbered h) hn
    · obtain ⟨rfl, hs⟩ := ho _ h
      exact hs
  unique h h' := by
    rcases getElem?_concat_eq_some.1 h with h | ⟨rfl, -, h⟩ <;>
      rcases getElem?_concat_eq_some.1 h' with h' | ⟨rfl, -, h'⟩
    · exact hk.unique h h'
    · exact absurd (ho _ h').1 (Nat.ne_of_lt (hk.numbered h))
    · exact absurd (ho _ h).1 (Nat.ne_of_lt (hk.numbered h'))
    · rfl
  job hs ht := by
    rcases hj _ _ _ hs ht with ⟨i, hi, hti⟩ | ⟨rfl, q, rfl, hq⟩
    · obtain ⟨n, q, hn, hq⟩ := hk.job hi hti
      exact ⟨n, q, getElem?_concat_eq_some.2 (.inl hn), hq⟩
    · exact ⟨_, q, getElem?_concat_eq_some.2 (.inr ⟨rfl, rfl, rfl⟩), hq⟩

theorem Known.turn {s : Nat} {j : Job} {o : Option Job} (hk : v.Known a) (hj : v.job s = some j)
    (ho : ∀ i, o = some i → i.ticket = j.ticket) (hw : w.job = Function.update v.job s o)
    (hn : w.numbered = v.numbered) : w.Known a where
  numbered h := hn ▸ hk.numbered h
  unique := hk.unique
  job {s' i t} hi ht := by
    rw [hw] at hi
    rcases update_eq_some.1 hi with ⟨rfl, ho'⟩ | ⟨-, hi'⟩
    · exact hk.job hj ((ho i ho').symm.trans ht)
    · exact hk.job hi' ht

theorem Settled.of_not_replying {n : Nat} (h : v.Settled a n) (hp : ∀ m, v.pump ≠ .replying m) :
    n ∈ a.answers :=
  h.resolve_right fun ⟨⟨m, hm⟩, _⟩ => hp m hm

theorem Sound.unclaimed {s : Nat} {j : Job} {t : Ticket TokenName} (hv : v.Sound c)
    (hj : v.job s = some j) (ht : j.ticket = some t) (hc : v.registry.isClaimed t = false) :
    (c, t.serial) ∉ v.registry.claimed ∧ j.stage = .executing := by
  have hnc : (c, t.serial) ∉ v.registry.claimed := by
    rwa [Bool.eq_false_iff, Ne, InFlight.isClaimed_iff, (hv.ticket hj ht).1] at hc
  exact ⟨hnc, Classical.not_not.1 fun h => hnc (hv.concluded hj ht h)⟩

theorem Sound.mem_entries {s : Nat} {j : Job} {t : Ticket TokenName} (hv : v.Sound c)
    (ho : v.IsOpen c) (hj : v.job s = some j) (ht : j.ticket = some t) (hs : j.stage = .executing)
    (hc : (c, t.serial) ∉ v.registry.claimed) : t ∈ v.registry.entries := by
  refine (hv.unresolved hj ht hs hc).resolve_right fun h => ?_
  rw [ho.2] at h
  cases h

theorem Sound.of_cancel {id : RequestId} {r : InFlight TokenName} (hv : v.Sound c)
    (hr : v.registry.cancel c id = (r, true)) : ∃ s j t, v.registry.lookup c id = some t ∧
      v.job s = some j ∧ j.ticket = some t ∧ v.registry.isClaimed t = false ∧
      t.connection = c ∧ t.id = id ∧
      r = ({ v.registry.erase c id with
        claimed := v.registry.claimed ++ [(t.connection, t.serial)] } :
          InFlight TokenName).fire t.token.name := by
  obtain ⟨t, hl, hc, hr⟩ := InFlight.cancel_eq_true hr
  obtain ⟨hm, htc, hid⟩ := InFlight.lookup_some hl
  obtain ⟨s, j, hj, ht, -⟩ := hv.entry hm htc
  exact ⟨s, j, t, hl, hj, ht, hc, htc, hid, hr⟩

namespace Balanced

theorem answered {n : Nat} (hb : v.Balanced c a) (hn : n ∈ a.answers) :
    ∃ q o, a.taken[n]? = some (.request q, o) := by
  have h := hb.answers
  generalize a.answers = l at h hn
  generalize v.responses = rs at h
  induction h with
  | nil => cases hn
  | cons hx _ ih =>
      rcases List.mem_cons.1 hn with rfl | hn
      · obtain ⟨q, o, hq, -⟩ := hx
        exact ⟨q, o, hq⟩
      · exact ih hn

theorem answered_lt {n : Nat} (hb : v.Balanced c a) (hn : n ∈ a.answers) : n < a.taken.length := by
  obtain ⟨q, o, hq⟩ := hb.answered hn
  exact (List.getElem?_eq_some_iff.1 hq).1

theorem answers_concat {e : Message × Option Nat} (hb : v.Balanced c a) :
    List.Forall₂ (fun (x : Response) (n : Nat) => ∃ (q : Request) (o : Option Nat),
      (a.taken ++ [e])[n]? = some (.request q, o) ∧ x.id = q.id) v.responses a.answers :=
  hb.answers.imp fun _ _ ⟨q, o, hn, hx⟩ => ⟨q, o, getElem?_concat_eq_some.2 (.inl hn), hx⟩

end Balanced

end View

end Parley.Dispatch
