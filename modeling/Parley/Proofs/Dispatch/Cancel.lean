import Parley.Proofs.Dispatch.Answer

namespace Parley.Dispatch

namespace View

variable {c : ConnectionId} {v w : View} {a : Ledger} {e : Deed} {n s : Nat} {x : Response}

def Given (v : View) (a : Ledger) (n : Nat) (x : Response) : Prop :=
  (∃ i : Nat, a.answers[i]? = some n ∧ v.responses[i]? = some x) ∨
    v.pump = .replying (.response x) ∧ a.due = some n

theorem Given.like (hg : v.Given a n x) (h : Like c v w) : w.Given a n x := by
  rw [Given, h.responses, h.pump]
  exact hg

theorem Given.change (hg : v.Given a n x) (hv : v.Sound c) (hb : v.Balanced c a)
    (hc : Change c v e w) (ho : w.IsOpen c) : w.Given (a.after c v w e) n x := by
  cases hc with
  | idle => exact hg
  | told | broken => exact absurd (InFlight.mem_fired_fire.2 (.inr rfl)) ho.1
  | shut hs => exact absurd hs ho.1
  | withdrawn | seized | struck | emptied | dismissed => cases ho.2
  | ended hp | received hp =>
      refine .inl (hg.resolve_right fun h => ?_)
      rw [hp] at h
      cases h.1
  | handled hp hw =>
      rcases hg with hg | ⟨hr, -⟩
      · cases hw <;> exact .inl hg
      · rw [hp] at hr
        cases hr
  | @posted y hp =>
      obtain ⟨k, q, o, z, hd, -, -, -, -⟩ := hb.due hp
      have hlen := hb.answers.length_eq
      simp only [Ledger.after, Ledger.post, hd, Option.toList_some]
      rcases hg with ⟨i, hi, hx⟩ | ⟨hr, hn⟩
      · exact .inl ⟨i, by rw [List.getElem?_append_left (List.getElem?_eq_some_iff.1 hi).1, hi],
          by rw [List.getElem?_append_left (List.getElem?_eq_some_iff.1 hx).1, hx]⟩
      · rw [hp] at hr
        cases hr
        obtain rfl : k = n := Option.some.inj (hd.symm.trans hn)
        exact .inl ⟨a.answers.length, by simp, by simp [← hlen]⟩
  | unsent hp hs => exact absurd (hv.shut hs) ho.1
  | @turned s j r o y hj ht =>
      rcases hg with ⟨i, hi, hx⟩ | h
      · refine .inl ⟨i, ?_, by rw [List.getElem?_append_left (List.getElem?_eq_some_iff.1 hx).1, hx]⟩
        cases y with
        | none => exact hi
        | some y =>
            change (a.answers ++ (a.numberOf s).toList)[i]? = some n
            rw [List.getElem?_append_left (List.getElem?_eq_some_iff.1 hi).1, hi]
      · cases y <;> exact .inr h

def GivenUp (v : View) (c : ConnectionId) (s : Nat) : Prop :=
  s < v.numbered ∧ ∀ j, v.job s = some j →
    j.stage = .executing ∧ ∃ t, j.ticket = some t ∧ (c, t.serial) ∈ v.registry.claimed

theorem GivenUp.like (hg : v.GivenUp c s) (h : Like c v w) : w.GivenUp c s := by
  obtain ⟨hn, hg⟩ := hg
  refine ⟨h.numbered ▸ hn, fun j hj => ?_⟩
  obtain ⟨he, t, ht, hc⟩ := hg j (h.job ▸ hj)
  exact ⟨he, t, ht, (h.registry.claimed _).2 hc⟩

theorem GivenUp.turn {j : Job} {r : InFlight TokenName} {o : Option Job} {y : Option Response}
    (hg : v.GivenUp c s) (hv : v.Sound c) (hj : v.job s = some j)
    (ht : Turn v.registry v.shut j r o y) :
    y = none ∧ r = v.registry ∧ (o = none ∨ o = some j) := by
  obtain ⟨he, t, hjt, hc⟩ := hg.2 j hj
  have hrel : j.release v.registry = v.registry := by
    simp only [Job.release, hjt]
    rcases InFlight.release_eq (r := v.registry) (t := t) with h | ⟨-, u, hu, hs⟩
    · exact h
    · obtain ⟨hmem, huc, -⟩ := InFlight.lookup_some hu
      obtain ⟨i, k, hk, hku, -⟩ := hv.entry hmem (huc.trans (hv.ticket hj hjt).1)
      obtain ⟨-, rfl, rfl⟩ := hv.job_unique hj hk hjt hku hs.symm
      exact absurd hc (hv.entered hj hjt he hmem)
  cases ht with
  | moved => exact ⟨rfl, rfl, .inr rfl⟩
  | abandoned | discarded => exact ⟨rfl, hrel, .inl rfl⟩
  | concluded _ hn =>
      have h := hn t hjt
      rw [Bool.eq_false_iff, Ne, InFlight.isClaimed_iff, (hv.ticket hj hjt).1] at h
      exact absurd hc h
  | settled h | finished h | answered h | lost h => rw [h] at he; cases he

theorem GivenUp.change (hg : v.GivenUp c s) (hv : v.Sound c) (hc : Change c v e w) :
    w.GivenUp c s := by
  have hcl {k : Nat} (h : (c, k) ∈ v.registry.claimed) := hc.claimed h
  have hsame (hn : v.numbered ≤ w.numbered) (hj : ∀ j, w.job s = some j → v.job s = some j) :
      w.GivenUp c s := by
    refine ⟨Nat.lt_of_lt_of_le hg.1 hn, fun j h => ?_⟩
    obtain ⟨he, t, ht, hct⟩ := hg.2 j (hj j h)
    exact ⟨he, t, ht, hcl hct⟩
  have hold (o : Option Job) : Function.update v.job v.numbered o s = v.job s :=
    Function.update_of_ne (Nat.ne_of_lt hg.1) _ _
  cases hc with
  | idle hn => exact hsame hn fun _ h => h
  | handled hp hw =>
      cases hw with
      | passed | refused | cancelled | missed => exact hsame (Nat.le_refl _) fun _ h => h
      | notified | begun => exact hsame (Nat.le_succ _) fun j h => (hold _).symm.trans h
  | @turned s' j r o y hj ht =>
      refine hsame (Nat.le_refl _) fun i h => ?_
      rcases update_eq_some.1 h with ⟨rfl, ho⟩ | ⟨-, h⟩
      · obtain ⟨-, -, rfl | rfl⟩ := hg.turn hv hj ht
        · cases ho
        · exact hj.trans ho
      · exact h
  | _ => exact hsame (Nat.le_refl _) fun _ h => h

end View

end Parley.Dispatch

namespace Parley.Dispatch

def Link.AnsweredWith (l : Link) (a : Ledger) (n : Nat) (x : Response) : Prop :=
  ∃ i : Nat, a.answers[i]? = some n ∧ l.responses[i]? = some x ∧
    ∀ j : Nat, a.answers[j]? = some n → j = i

theorem Link.answeredWith {l : Link} {a : Ledger} {n i : Nat} {x : Response}
    (hnd : a.answers.Nodup) (hi : a.answers[i]? = some n) (hx : l.responses[i]? = some x) :
    l.AnsweredWith a n x :=
  ⟨i, hi, hx, fun _ hj =>
    (List.getElem?_inj (List.getElem?_eq_some_iff.1 hj).1 hnd).1 (hj.trans hi.symm)⟩

theorem Link.step_handling (sv : Service) (h : Hub) {l : Link} {m : Message}
    (hm : l.inHand? = some m) :
    l.step sv h .requests = some (handle sv h { l with requests := .taking } m) := by
  simp only [step, stepRequests, inHand?_eq_some.1 hm]

theorem Link.step_replying (sv : Service) (h : Hub) {l : Link} {m : Message}
    (hp : l.requests = .replying m) (hs : l.desk.peer.outbound.shut = false)
    (hr : l.desk.peer.outbound.place .requests < l.desk.peer.outbound.room) :
    ∃ l', l.step sv h .requests = some (h, l') ∧ l'.requests = .taking ∧ l'.id = l.id ∧
      l'.supervisor = l.supervisor := by
  have ha := Flow.Channel.offer_accepted m hs hr
  rcases hq : l.desk.peer.outbound.offer .requests m with ⟨outbound, answer⟩
  rw [hq] at ha
  obtain rfl : answer = .accepted := ha
  exact ⟨{ l.setOutbound outbound with requests := .taking },
    by simp [step, stepRequests, hp, hq], rfl, rfl, rfl⟩

end Parley.Dispatch

namespace Parley.Dispatcher

open Dispatch

variable {d d' : Dispatcher} {c : ConnectionId} {l l' : Link} {a : Ledger} {n s : Nat}
  {x : Response} {y z : Dispatcher × Ledger}

theorem step_of_inHand {m : Message} (hl : d.link? c = some l) (hm : l.inHand? = some m) :
    ∃ d', d.step (c, .requests) = some d' :=
  ⟨_, step_of_link hl (Link.step_handling _ _ hm)⟩

structure GivenUp (c : ConnectionId) (n s : Nat) (x : Response) (y : Dispatcher × Ledger) :
    Prop where
  accounted : Accounted c y
  linked : ∃ l, y.1.link? c = some l
  call : ∀ {l}, y.1.link? c = some l → (l.view y.1.hub).GivenUp c s
  given : ∀ {l}, y.1.link? c = some l → (l.view y.1.hub).IsOpen c →
    (l.view y.1.hub).Given y.2 n x

theorem GivenUp.next (hg : GivenUp c n s x y) (h : Audited c y z) : GivenUp c n s x z := by
  obtain ⟨l, hl⟩ := hg.linked
  have hacc := hg.accounted
  obtain ⟨t, hn, ha⟩ := id h
  obtain ⟨l', e, w, hp⟩ := hn.passes hacc.sound hl
  have hv := (hacc.sound.linked hl).2
  refine ⟨hacc.next h, ⟨l', hp.link⟩, fun {m} hm => ?_, fun {m} hm ho => ?_⟩
  · obtain rfl : l' = m := Option.some.inj (hp.link.symm.trans hm)
    exact ((hg.call hl).change hv hp.change).like hp.like
  · obtain rfl : l' = m := Option.some.inj (hp.link.symm.trans hm)
    obtain ⟨read, hread⟩ := hp.ledger y.2
    have how : w.IsOpen c := hp.like.isOpen.1 ho
    have hov := hp.change.isOpen how
    have hgw := (hg.given hl hov).change hv (hacc.balanced hl hov) hp.change how
    rw [ha, hread]
    exact hgw.like hp.like

theorem GivenUp.step {t : Task} (hg : GivenUp c n s x y) (h : y.1.step t = some d') :
    GivenUp c n s x (d', account c y.2 y.1 d' (some t)) :=
  hg.next ⟨some t, .step h, rfl⟩

theorem GivenUp.runs (hg : GivenUp c n s x y) (h : Runs c y z) : GivenUp c n s x z := by
  induction h with
  | refl => exact hg
  | tail _ h ih => exact ih.next h

/-- The answer is queued, or the pump holds it and will queue it once there is room for it. -/
theorem GivenUp.answered (hg : GivenUp c n s x y) (hl : y.1.link? c = some l)
    (ho : l.IsOpen y.1.hub) : l.AnsweredWith y.2 n x ∨
      n ∉ y.2.answers ∧ l.requests = .replying (.response x) ∧
        (l.desk.peer.outbound.place .requests < l.desk.peer.outbound.room →
          ∃ d' l', y.1.step (c, .requests) = some d' ∧ d'.link? c = some l' ∧
            l'.AnsweredWith (account c y.2 y.1 d' (some (c, .requests))) n x) := by
  have hacc := hg.accounted
  have hop := id_of_link? hl ▸ Link.isOpen_iff.1 ho
  have hb := hacc.balanced hl hop
  have hans {z : Dispatcher × Ledger} {m : Link} (hz : GivenUp c n s x z)
      (hm : z.1.link? c = some m) (ho : (m.view z.1.hub).IsOpen c)
      (h : m.requests ≠ .replying (.response x)) :
      m.AnsweredWith z.2 n x := by
    obtain ⟨i, hi, hx⟩ := (hz.given hm ho).resolve_right fun h' => h h'.1
    exact Link.answeredWith (hz.accounted.balanced hm ho).nodup hi hx
  by_cases hp : l.requests = .replying (.response x)
  · rcases hg.given hl hop with ⟨i, hi, hx⟩ | ⟨-, hdue⟩
    · exact .inl (Link.answeredWith hb.nodup hi hx)
    · refine .inr ⟨?_, hp, fun hroom => ?_⟩
      · obtain ⟨k, -, -, -, hk, -, -, -, hnk⟩ := hb.due hp
        obtain rfl : n = k := Option.some.inj (hdue.symm.trans hk)
        exact hnk
      · have hshut : l.desk.peer.outbound.shut = false :=
          Bool.eq_false_iff.2 fun h => hop.1 ((hacc.sound.linked hl).2.shut h)
        obtain ⟨m, hm, htaking, hid, hsup⟩ :=
          Link.step_replying y.1.service y.1.hub hp hshut hroom
        have hstep := step_of_link hl hm
        have hm' : ({ y.1.put m with hub := y.1.hub } : Dispatcher).link? c = some m :=
          link?_put_self hl (hid.trans (id_of_link? hl))
        have hom : (m.view y.1.hub).IsOpen c := ⟨hop.1, (congrArg Supervisor.purge hsup).trans hop.2⟩
        exact ⟨_, m, hstep, hm', hans (hg.step hstep) hm' hom (by simp [htaking])⟩
  · exact .inl (hans hg hl hop hp)

end Parley.Dispatcher
