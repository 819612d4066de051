import Parley.Proofs.Dispatch.Tally

namespace Parley.Dispatch.View

variable {c : ConnectionId} {v w : View} {a : Ledger} {e : Deed}

/-- The call of a request that is settled has nothing to say, and its outcome has been claimed. -/
theorem Tallied.not_settled {n s : Nat} {q : Request} {j : Job} (ht : v.Tallied c a)
    (hn : a.taken[n]? = some (.request q, some s)) (hj : v.job s = some j)
    (hu : j.stage ≠ .executing ∨ ∀ t, j.ticket = some t → (c, t.serial) ∉ v.registry.claimed) :
    ¬v.Settled a n := by
  intro hs
  obtain ⟨he, t, hjt, hc⟩ := (ht.settled hn hs).2 j hj
  exact hu.elim (fun h => h he) fun h => h t hjt hc

structure Paired (v : View) (a : Ledger) : Prop where
  due : ∀ {m}, v.pump = .replying m → ∃ (n : Nat) (q : Request) (o : Option Nat) (x : Response),
    a.due = some n ∧ a.taken[n]? = some (.request q, o) ∧ m = .response x ∧ x.id = q.id ∧
      n ∉ a.answers
  answers : List.Forall₂ (fun (x : Response) (n : Nat) => ∃ (q : Request) (o : Option Nat),
    a.taken[n]? = some (.request q, o) ∧ x.id = q.id) v.responses a.answers
  nodup : a.answers.Nodup

namespace Paired

theorem same (h : v.Paired a) (hp : ∀ m, w.pump = .replying m → v.pump = .replying m)
    (hr : w.responses = v.responses) : w.Paired a :=
  ⟨fun hm => h.due (hp _ hm), hr ▸ h.answers, h.nodup⟩

theorem like (h : v.Paired a) (hl : Like c v w) (read : List Message) :
    w.Paired { a with read } :=
  ⟨fun hm => h.due (hl.pump ▸ hm), hl.responses ▸ h.answers, h.nodup⟩

theorem take {m : Message} {o due : Option Nat} (h : v.Paired a) (hr : w.responses = v.responses)
    (hd : ∀ {m'}, w.pump = .replying m' → ∃ (n : Nat) (q : Request) (o' : Option Nat) (x : Response),
      due = some n ∧ (a.taken ++ [(m, o)])[n]? = some (.request q, o') ∧ m' = .response x ∧
        x.id = q.id ∧ n ∉ a.answers) :
    w.Paired { a with taken := a.taken ++ [(m, o)], due } where
  due := hd
  answers := hr ▸ h.answers.imp fun _ _ ⟨q, o, hn, hx⟩ =>
    ⟨q, o, getElem?_concat_eq_some.2 (.inl hn), hx⟩
  nodup := h.nodup

theorem queue {x : Response} {n : Nat} {q : Request} {o : Option Nat} (h : v.Paired a)
    (hn : a.taken[n]? = some (.request q, o)) (hx : x.id = q.id) (hno : n ∉ a.answers)
    (hr : w.responses = v.responses ++ [x])
    (hd : ∀ {m}, w.pump = .replying m → v.pump = .replying m ∧ a.due ≠ some n) :
    w.Paired { a with answers := a.answers ++ [n] } where
  due hm := by
    obtain ⟨hv, hne⟩ := hd hm
    obtain ⟨k, p, o', y, hk, hp, hy, hid, hnk⟩ := h.due hv
    refine ⟨k, p, o', y, hk, hp, hy, hid, fun hmem => ?_⟩
    rcases List.mem_append.1 hmem with hmem | hmem
    · exact hnk hmem
    · rw [List.mem_singleton.1 hmem] at hk
      exact hne hk
  answers := hr ▸ List.rel_append h.answers (.cons ⟨q, o, hn, hx⟩ .nil)
  nodup := List.nodup_append.2 ⟨h.nodup, by simp, by grind⟩

theorem intake {m : Message} (h : v.Paired a) (ht : v.Tallied c a) (hv : v.Sound c)
    (hp : v.pump = .handling m) (hw : Intake c { v with pump := .taking } m w) :
    w.Paired (a.after c v w (.take m)) := by
  have hquiet (hr : w.responses = v.responses) (hpw : w.pump = .taking) :
      w.Paired (a.after c v w (.take m)) :=
    h.take hr fun {m'} hm => by rw [hpw] at hm; cases hm
  cases hw with
  | passed | notified | begun | missed => exact hquiet rfl rfl
  | @refused q b =>
      refine h.take rfl fun {m'} hm => ?_
      refine ⟨a.taken.length, q, none, ⟨q.id, .error b⟩, ?_, ?_, (Pump.replying.inj hm).symm, rfl,
        fun hn => Nat.lt_irrefl _ (ht.settled_lt (.inl hn))⟩
      · simp [Ledger.subject, Pump.isReplying]
      · exact getElem?_concat_eq_some.2 (.inr ⟨rfl, rfl, by simp⟩)
  | @cancelled n id r hm hid hr =>
      obtain ⟨s, j, t, hl, hj, hjt, hc, htc, rfl, -⟩ := hv.of_cancel hr
      obtain ⟨hnc, -⟩ := hv.unclaimed hj hjt hc
      obtain ⟨k, q, hk, hq⟩ := ht.known.job hj hjt
      have hfree : ¬v.Settled a k := ht.not_settled hk hj <| .inr fun u hu => by
        cases hjt.symm.trans hu
        exact hnc
      refine h.take rfl fun {m'} hm' => ?_
      refine ⟨k, q, some s, ⟨t.id, .error .cancelled⟩, ?_, getElem?_concat_eq_some.2 (.inl hk),
        (Pump.replying.inj hm').symm, hq.symm, fun hn => hfree (.inl hn)⟩
      simp [Ledger.subject, Pump.isReplying, hid, hl, (hv.ticket hj hjt).2.1, Hub.callToken,
        Flow.Token.child, ht.known.numberOf_eq hk]

theorem change (h : v.Paired a) (ht : v.Tallied c a) (hv : v.Sound c) (hc : Change c v e w) :
    w.Paired (a.after c v w e) := by
  cases hc with
  | ended | received | unsent => exact h.same (fun _ hm => by cases hm) rfl
  | handled hp hw => exact h.intake ht hv hp hw
  | @posted x hp =>
      obtain ⟨n, q, o, y, hd, hn, hm, hx, hno⟩ := h.due hp
      cases hm
      have hl : a.due.toList = [n] := by rw [hd]; rfl
      simp only [Ledger.after, Ledger.post, hl]
      exact h.queue (w := { v with pump := .taking, responses := v.responses ++ [x] }) hn hx hno rfl
        (by simp)
  | @turned s j r o x hj hturn =>
      cases hturn with
      | moved | abandoned | discarded | concluded | settled | finished | lost =>
          exact h.same (fun _ hm => hm) (List.append_nil _)
      | @answered x hst =>
          obtain ⟨t, y, hjt, hm, hy⟩ := hv.replying hj hst
          cases hm
          obtain ⟨n, q, hn, hq⟩ := ht.known.job hj hjt
          have hfree : ¬v.Settled a n := ht.not_settled hn hj (.inl (by rw [hst]; simp))
          simp only [Option.isSome_some, if_true, Ledger.after, Ledger.post,
            ht.known.numberOf_eq hn, Option.toList_some]
          exact h.queue hn (hy.trans hq.symm) (fun hm => hfree (.inl hm)) rfl fun hm =>
            ⟨hm, fun hd => hfree (.inr ⟨⟨_, hm⟩, hd⟩)⟩
  | _ => exact h.same (fun _ hm => hm) rfl

end Paired

end Parley.Dispatch.View

namespace Parley.Dispatcher

open Dispatch

variable {c : ConnectionId} {l : Link} {x : Dispatcher × Ledger}

theorem Reachable.paired (h : Reachable c x) (hl : x.1.link? c = some l) :
    (l.view x.1.hub).Paired x.2 := by
  -- The invariant carries the tally, which says that nothing is answered twice.
  refine (h.of_change (I := fun v a => v.Tallied c a ∧ v.Paired a) hl (fun r => ?_)
    (fun hv hc ⟨ht, ha⟩ => ⟨ht.change hv hc, ha.change ht hv hc⟩)
    fun hlike ⟨ht, ha⟩ read => ⟨ht.like hlike read, ha.like hlike read⟩).2
  refine ⟨⟨⟨?_, ?_, ?_⟩, ?_, ?_⟩, ⟨?_, .nil, .nil⟩⟩ <;> simp [View.Settled]

end Parley.Dispatcher
