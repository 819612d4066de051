import Parley.Proofs.Dispatch.Cancel

namespace Parley.Dispatch

variable {c : ConnectionId} {v w : View} {a : Ledger} {e : Deed} {n s : Nat} {q : Request}

theorem Ledger.numberOf_some (h : a.numberOf s = some n) : ∃ m, a.taken[n]? = some (m, some s) := by
  obtain ⟨hn, hs, -⟩ := List.findIdx?_eq_some_iff_getElem.1 h
  have hs : a.taken[n].2 = some s := by simpa using hs
  exact ⟨a.taken[n].1, by rw [← hs]; simp [hn]⟩

namespace View

theorem Known.intake {m : Message} (hk : v.Known a) (hw : Intake c v m w) :
    w.Known (a.after c v w (.take m)) := by
  have hlater (s : Nat) (h : (if v.numbered < w.numbered then some v.numbered else none) = some s) :
      s = v.numbered ∧ v.numbered < w.numbered := by
    split at h
    · next hn => exact ⟨(Option.some.inj h).symm, hn⟩
    · cases h
  have hsame (hn : w.numbered = v.numbered) (hj : w.job = v.job) :
      w.Known (a.after c v w (.take m)) := by
    refine hk.take (Nat.le_of_eq hn.symm) hlater fun s j t h ht => .inl ⟨j, ?_, ht⟩
    rwa [hj] at h
  cases hw with
  | passed | refused | cancelled | missed => exact hsame rfl rfl
  | notified =>
      refine hk.take (Nat.le_succ _) hlater fun s j t h ht => .inl ⟨j, ?_, ht⟩
      rcases update_eq_some.1 h with ⟨-, h⟩ | ⟨-, h⟩
      · cases h
        cases ht
      · exact h
  | @begun q r t hb =>
      obtain ⟨-, ht, -⟩ := InFlight.begin?_eq_some.1 hb
      refine hk.take (Nat.le_succ _) hlater fun s j u h hu => ?_
      rcases update_eq_some.1 h with ⟨rfl, hj⟩ | ⟨-, hj⟩
      · cases hj
        cases hu
        exact .inr ⟨by simp, q, rfl, by rw [ht]⟩
      · exact .inl ⟨j, hj, hu⟩

theorem Known.change (hk : v.Known a) (hc : Change c v e w) : w.Known (a.after c v w e) := by
  cases hc with
  | idle hn => exact hk.congr hn rfl rfl
  | @handled m _ hp hw =>
      have hkt : View.Known { v with pump := .taking } a := hk.congr (Nat.le_refl _) rfl rfl
      have h := hkt.intake hw
      exact h
  | @turned s j r o x hj ht =>
      have h := hk.turn (w := { v with
        registry := r
        job := Function.update v.job s o
        responses := v.responses ++ x.toList }) hj (fun i hi => ht.ticket hi) rfl rfl
      cases x with
      | none => exact h
      | some x => exact h.congr (Nat.le_refl _) rfl rfl
  | _ => exact hk.congr (Nat.le_refl _) rfl rfl

structure Tallied (c : ConnectionId) (v : View) (a : Ledger) : Prop where
  known : v.Known a
  settled_lt : ∀ {n}, v.Settled a n → n < a.taken.length
  settled : ∀ {n q s}, a.taken[n]? = some (.request q, some s) → v.Settled a n → v.GivenUp c s

theorem Tallied.like (h : v.Tallied c a) (hl : Like c v w) (read : List Message) :
    w.Tallied c { a with read } := by
  have hset {n : Nat} (hs : w.Settled { a with read } n) : v.Settled a n := by
    rw [Settled, hl.pump] at hs
    exact hs
  refine ⟨h.known.congr (Nat.le_of_eq hl.numbered.symm) hl.job rfl, ?_, ?_⟩
  · intro n hs
    exact h.settled_lt (hset hs)
  · intro n q s hn hs
    exact (h.settled hn (hset hs)).like hl

theorem GivenUp.cancelled {id : RequestId} {r : InFlight TokenName} (hv : v.Sound c)
    (hr : v.registry.cancel c id = (r, true)) : ∃ s t, v.registry.lookup c id = some t ∧
      t.token = Hub.callToken c s ∧ ∀ pump, ({ v with registry := r, pump } : View).GivenUp c s := by
  obtain ⟨s, j, t, hl, hj, ht, hc, htc, -, rfl⟩ := hv.of_cancel hr
  obtain ⟨-, hst⟩ := hv.unclaimed hj ht hc
  refine ⟨s, t, hl, (hv.ticket hj ht).2.1, fun pump => ⟨hv.numbered hj, ?_⟩⟩
  intro i hi
  obtain rfl : j = i := Option.some.inj (hj.symm.trans hi)
  exact ⟨hst, t, ht, by simp [htc]⟩

namespace Tallied

/-- What is settled was so before, and the new messages of the ledger are not. -/
theorem earlier {b : Ledger} (h : v.Tallied c a) (hv : v.Sound c) (hc : Change c v e w)
    (hk : w.Known b) (hle : a.taken.length ≤ b.taken.length)
    (hset : ∀ {n}, w.Settled b n → v.Settled a n)
    (ht : ∀ {n m o}, b.taken[n]? = some (m, o) → n < a.taken.length → a.taken[n]? = some (m, o)) :
    w.Tallied c b := by
  refine ⟨hk, ?_, ?_⟩
  · intro n hs
    exact Nat.lt_of_lt_of_le (h.settled_lt (hset hs)) hle
  · intro n q s hn hs
    exact (h.settled (ht hn (h.settled_lt (hset hs))) (hset hs)).change hv hc

theorem intake {m : Message} (h : v.Tallied c a) (hv : v.Sound c) (hp : v.pump = .handling m)
    (hw : Intake c { v with pump := .taking } m w) : w.Tallied c (a.after c v w (.take m)) := by
  have hc : Change c v (.take m) w := .handled hp hw
  have hk : w.Known (a.after c v w (.take m)) := h.known.change hc
  have hold {o : Option Nat} {n : Nat} {m' : Message} {o' : Option Nat}
      (hn : (a.taken ++ [(m, o)])[n]? = some (m', o')) (hlt : n < a.taken.length) :
      a.taken[n]? = some (m', o') := by
    rwa [List.getElem?_append_left hlt] at hn
  have hle (o : Option Nat) : a.taken.length ≤ (a.taken ++ [(m, o)]).length := by simp
  have hquiet (hpw : w.pump = .taking) : w.Tallied c (a.after c v w (.take m)) :=
    h.earlier hv hc hk (hle _) (fun hs => .inl (hs.of_not_replying (by simp [hpw]))) hold
  -- Only a pump that holds an answer settles something by taking a message.
  have hnew {n : Nat} (hs : w.Settled (a.after c v w (.take m)) n) :
      v.Settled a n ∨ a.subject v.registry c m = some n := by
    rcases hs with hs | ⟨-, hd⟩
    · exact .inl (.inl hs)
    · simp only [Ledger.after, Ledger.take] at hd
      split at hd
      · exact .inr hd
      · cases hd
  cases hw with
  | passed | notified | begun | missed => exact hquiet rfl
  | @refused q b =>
      refine ⟨hk, fun {n} hs => ?_, fun {n p s} hn hs => ?_⟩
      · rcases hnew hs with hs | hs
        · exact Nat.lt_of_lt_of_le (h.settled_lt hs) (hle _)
        · cases hs
          simp [Ledger.after, Ledger.take]
      · rcases hnew hs with hs | hs
        · exact (h.settled (hold hn (h.settled_lt hs)) hs).change hv hc
        · cases hs
          simp [Ledger.after, Ledger.take] at hn
  | @cancelled m id r hm ht hr =>
      obtain ⟨s, t, hl, htok, hg⟩ := GivenUp.cancelled hv hr
      have hsub : a.subject v.registry c (.notification m) = a.numberOf s := by
        simp [Ledger.subject, ht, hl, htok, Hub.callToken, Flow.Token.child]
      rw [hsub] at hnew
      have hlt {n : Nat} (hn : a.numberOf s = some n) : n < a.taken.length := by
        obtain ⟨m, hn⟩ := Ledger.numberOf_some hn
        exact (List.getElem?_eq_some_iff.1 hn).1
      refine ⟨hk, fun {n} hs => ?_, fun {n p s'} hn hs => ?_⟩
      · rcases hnew hs with hs | hs
        · exact Nat.lt_of_lt_of_le (h.settled_lt hs) (hle _)
        · exact Nat.lt_of_lt_of_le (hlt hs) (hle _)
      · rcases hnew hs with hs | hs
        · exact (h.settled (hold hn (h.settled_lt hs)) hs).change hv hc
        · obtain ⟨m', hn'⟩ := Ledger.numberOf_some hs
          cases hn'.symm.trans (hold hn (hlt hs))
          exact hg _

theorem change (h : v.Tallied c a) (hv : v.Sound c) (hc : Change c v e w) :
    w.Tallied c (a.after c v w e) := by
  have hk := h.known.change hc
  have hup {n : Nat} {q : Request} {s : Nat} (hn : a.taken[n]? = some (.request q, some s))
      (hs : v.Settled a n) : w.GivenUp c s := (h.settled hn hs).change hv hc
  have hsame {b : Ledger} (hk : w.Known b) (hb : b.taken = a.taken)
      (hset : ∀ {n}, w.Settled b n → v.Settled a n) : w.Tallied c b :=
    h.earlier hv hc hk (Nat.le_of_eq (congrArg List.length hb.symm)) hset fun hn _ => hb ▸ hn
  cases hc with
  | ended | received | unsent => exact hsame hk rfl fun hs => .inl (hs.of_not_replying (by simp))
  | handled hp hw => exact h.intake hv hp hw
  | posted hp =>
      refine hsame hk rfl fun {n} hs => ?_
      rcases List.mem_append.1 (hs.of_not_replying (by simp)) with hs | hs
      · exact .inl hs
      · exact .inr ⟨⟨_, hp⟩, by simpa using hs⟩
  | @turned s j r o x hj ht =>
      cases ht with
      | moved | abandoned | discarded | concluded | settled | finished | lost =>
          exact hsame hk rfl fun hs => hs
      | @answered x hst =>
          have hnew {n : Nat} {w : View} (hp : w.pump = v.pump)
              (hs : w.Settled (a.post (.call s)) n) : v.Settled a n ∨ a.numberOf s = some n := by
            rcases hs with hs | hs
            · rcases List.mem_append.1 hs with hs | hs
              · exact .inl (.inl hs)
              · exact .inr (by simpa using hs)
            · exact .inl (.inr (hp ▸ hs))
          refine ⟨hk, fun {n} hs => ?_, fun {n q s'} hn hs => ?_⟩
          · rcases hnew rfl hs with hs | hs
            · exact h.settled_lt hs
            · obtain ⟨m, hn⟩ := Ledger.numberOf_some hs
              exact (List.getElem?_eq_some_iff.1 hn).1
          · rcases hnew rfl hs with hs | hs
            · exact hup hn hs
            · obtain ⟨m, hn'⟩ := Ledger.numberOf_some hs
              cases hn'.symm.trans hn
              exact ⟨hv.numbered hj, by simp⟩
  | _ => exact hsame hk rfl fun hs => hs

theorem no_entry {t : Ticket TokenName} (h : v.Tallied c a) (hv : v.Sound c)
    (hn : a.taken[n]? = some (.request q, some s)) (hs : v.Settled a n)
    (ht : t ∈ v.registry.entries) (htc : t.connection = c) : t.token ≠ Hub.callToken c s := by
  intro he
  obtain ⟨s', j, hj, hjt, -⟩ := hv.entry ht htc
  obtain rfl : s' = s := Hub.callToken_inj ((hv.ticket hj hjt).2.1.symm.trans he)
  obtain ⟨hst, u, hu, hc⟩ := (h.settled hn hs).2 j hj
  obtain rfl : t = u := Option.some.inj (hjt.symm.trans hu)
  exact hv.entered hj hjt hst ht hc

end Tallied

end View

end Parley.Dispatch

namespace Parley.Dispatcher

open Dispatch

variable {c : ConnectionId} {l : Link} {x : Dispatcher × Ledger}

theorem Reachable.tallied (h : Reachable c x) (hl : x.1.link? c = some l) :
    (l.view x.1.hub).Tallied c x.2 := by
  refine h.of_change (I := fun v a => v.Tallied c a) hl (fun r => ?_)
    (fun hv hc ha => ha.change hv hc) fun hlike ha => ha.like hlike
  refine ⟨⟨?_, ?_, ?_⟩, ?_, ?_⟩ <;> simp [View.Settled]

end Parley.Dispatcher
