import Parley.Proofs.Dispatch.Diary
import Parley.Proofs.Dispatch.Pairing

namespace Parley.Dispatch

namespace View

variable {c : ConnectionId} {v w : View} {a : Ledger} {e : Deed} {diary diary' : Nat → List Entry}
  {o : Option Nat} {posts : List (Actor × Response)}

def Spared (c : ConnectionId) (v : View) (diary : Nat → List Entry) (o : Option Nat) : Prop :=
  ∀ s, o = some s → v.GivenUp c s ∧ Bare (diary s)

def Source (c : ConnectionId) (v : View) (diary : Nat → List Entry) (o : Option Nat) :
    Actor × Response → Prop
  | (.call s, y) => o = some s ∧ .queued y ∈ diary s
  | (.requests, _) => v.Spared c diary o
  | _ => False

/-- It is known of each response how it came to be queued, and of what the pump holds too. -/
structure Sourced (c : ConnectionId) (v : View) (a : Ledger) (diary : Nat → List Entry)
    (posts : List (Actor × Response)) : Prop where
  posts : List.Forall₂ (fun p (n : Nat) => ∃ (q : Request) (o : Option Nat),
    a.taken[n]? = some (.request q, o) ∧ p.2.id = q.id ∧ v.Source c diary o p) posts a.answers
  due : ∀ {n : Nat} {q : Request} {o : Option Nat}, (∃ m, v.pump = .replying m) → a.due = some n →
    a.taken[n]? = some (.request q, o) → v.Spared c diary o

structure Goes (c : ConnectionId) (v w : View) (e : Deed) (diary diary' : Nat → List Entry) :
    Prop where
  kept : ∀ {s x}, x ∈ diary s → x ∈ diary' s
  bare : ∀ {s}, v.GivenUp c s → Bare (diary s) → Bare (diary' s)
  taking : ∀ {m}, e = .take m → diary' = diary
  queued : ∀ {s y}, e = .post (.call s) → w.responses = v.responses ++ [y] → .queued y ∈ diary' s

theorem Spared.change (h : v.Spared c diary o) (hv : v.Sound c) (hc : Change c v e w)
    (hg : Goes c v w e diary diary') : w.Spared c diary' o := by
  intro s hs
  obtain ⟨hgu, hb⟩ := h s hs
  exact ⟨hgu.change hv hc, hg.bare hgu hb⟩

theorem Source.change {p : Actor × Response} (h : v.Source c diary o p) (hv : v.Sound c)
    (hc : Change c v e w) (hg : Goes c v w e diary diary') : w.Source c diary' o p := by
  obtain ⟨who, y⟩ := p
  cases who with
  | call s => exact ⟨h.1, hg.kept h.2⟩
  | requests => exact Spared.change h hv hc hg
  | _ => exact h.elim

theorem Sourced.kept {b : Ledger} (h : v.Sourced c a diary posts) (hv : v.Sound c)
    (hc : Change c v e w) (hg : Goes c v w e diary diary')
    (hb : ∀ {n : Nat} {m o}, a.taken[n]? = some (m, o) → b.taken[n]? = some (m, o)) :
    List.Forall₂ (fun p (n : Nat) => ∃ (q : Request) (o : Option Nat),
      b.taken[n]? = some (.request q, o) ∧ p.2.id = q.id ∧ w.Source c diary' o p) posts a.answers :=
  h.posts.imp fun _ _ ⟨q, o, hn, hid, hs⟩ => ⟨q, o, hb hn, hid, hs.change hv hc hg⟩

theorem Sourced.intake {m : Message} (h : v.Sourced c a diary posts) (hp : v.pump = .handling m)
    (hv : v.Sound c) (hw : Intake c { v with pump := .taking } m w)
    (hg : Goes c v w (.take m) diary diary')
    (hbare : ∀ s j, v.job s = some j → j.stage = .executing → Bare (diary s)) :
    w.Sourced c (a.after c v w (.take m)) diary' posts := by
  have hposts := h.kept (b := a.after c v w (.take m)) hv (.handled hp hw) hg
    fun hn => getElem?_concat_eq_some.2 (.inl hn)
  have hquiet (hpw : w.pump = .taking) : w.Sourced c (a.after c v w (.take m)) diary' posts := by
    refine ⟨hposts, fun ⟨m, hm⟩ => ?_⟩
    rw [hpw] at hm
    cases hm
  cases hw with
  | passed | notified | begun | missed => exact hquiet rfl
  | @refused q b =>
      refine ⟨hposts, fun {n p o} _ hd hn s hs => ?_⟩
      obtain rfl : a.taken.length = n := Option.some.inj hd
      rcases getElem?_concat_eq_some.1 hn with hn | ⟨-, -, ho⟩
      · simp at hn
      · simp [hs] at ho
  | @cancelled n id r hm hid hr =>
      -- The pump owes the answer now, for a call that has been executing until it was cancelled.
      refine ⟨hposts, fun {k q o} _ hd hk s hs => ?_⟩
      obtain ⟨i, j, t, hl, hj, hjt, hu, -, -, -⟩ := hv.of_cancel hr
      obtain ⟨i', t', hl', htok, hgu⟩ := GivenUp.cancelled hv hr
      obtain ⟨-, hst⟩ := hv.unclaimed hj hjt hu
      obtain rfl : t = t' := Option.some.inj (hl.symm.trans hl')
      obtain rfl : i = i' := Hub.callToken_inj ((hv.ticket hj hjt).2.1.symm.trans htok)
      have hnum : a.numberOf i = some k := by
        simpa [Ledger.after, Ledger.take, Ledger.subject, Pump.isReplying, hid, hl, htok,
          Hub.callToken, Flow.Token.child] using hd
      obtain ⟨m', hm'⟩ := Ledger.numberOf_some hnum
      rcases getElem?_concat_eq_some.1 hk with hk | ⟨-, hq, -⟩
      · cases hm'.symm.trans hk
        cases hs
        rw [hg.taking rfl]
        exact ⟨hgu _, hbare _ _ hj hst⟩
      · cases hq

theorem Sourced.change (h : v.Sourced c a diary posts) (who : Actor) (ht : v.Tallied c a)
    (hpair : v.Paired a) (hv : v.Sound c) (hc : Change c v e w) (hg : Goes c v w e diary diary')
    (hbare : ∀ s j, v.job s = some j → j.stage = .executing → Bare (diary s))
    (hwho : ∀ u, e = .post u → who = u) : w.Sourced c (a.after c v w e) diary'
      (posts ++ (w.responses.drop v.responses.length).map (who, ·)) := by
  have hdue {b : Ledger} (hd : b.due = a.due) (hb : b.taken = a.taken)
      (hp : ∀ m, w.pump = .replying m → v.pump = .replying m) {n : Nat} {q : Request}
      {o : Option Nat} (hm : ∃ m, w.pump = .replying m) (hn : b.due = some n)
      (hq : b.taken[n]? = some (.request q, o)) : w.Spared c diary' o :=
    (h.due (hm.imp hp) (hd ▸ hn) (hb ▸ hq)).change hv hc hg
  have hstay (hr : w.responses = v.responses)
      (hp : ∀ m, w.pump = .replying m → v.pump = .replying m) :
      w.Sourced c a diary' (posts ++ (w.responses.drop v.responses.length).map (who, ·)) := by
    rw [hr, List.drop_length, List.map_nil, List.append_nil]
    exact ⟨h.kept hv hc hg fun hn => hn, hdue rfl rfl hp⟩
  have hpost {b : Ledger} {x : Response} {n : Nat} {q : Request} {o : Option Nat}
      (hr : w.responses = v.responses ++ [x]) (hb : b.taken = a.taken)
      (ha : b.answers = a.answers ++ [n]) (hd : b.due = a.due)
      (hp : ∀ m, w.pump = .replying m → v.pump = .replying m)
      (hn : a.taken[n]? = some (.request q, o)) (hx : x.id = q.id)
      (hs : w.Source c diary' o (who, x)) :
      w.Sourced c b diary' (posts ++ (w.responses.drop v.responses.length).map (who, ·)) := by
    rw [hr, List.drop_left, List.map_singleton]
    refine ⟨?_, hdue hd hb hp⟩
    rw [ha, hb]
    exact List.rel_append (h.kept (b := a) hv hc hg fun hn => hn) (.cons ⟨q, o, hn, hx, hs⟩ .nil)
  cases id hc with
  | idle | told | shut | broken | withdrawn | seized | struck | emptied | dismissed =>
      exact hstay rfl fun _ hm => hm
  | ended | received | unsent => exact hstay rfl fun _ hm => by cases hm
  | handled hp hw =>
      have hr : w.responses = v.responses := by cases hw <;> rfl
      rw [hr, List.drop_length, List.map_nil, List.append_nil]
      exact h.intake hp hv hw hg hbare
  | @posted x hp =>
      obtain ⟨n, q, o, y, hd, hn, hm, hx, -⟩ := hpair.due hp
      cases hm
      obtain rfl := hwho _ rfl
      refine hpost rfl rfl (by simp [Ledger.after, Ledger.post, hd]) rfl (fun _ hm => by cases hm)
        hn hx ?_
      exact Spared.change (h.due ⟨_, hp⟩ hd hn) hv hc hg
  | @turned s j r o x hj hturn =>
      cases hturn with
      | moved | abandoned | discarded | concluded | settled | finished | lost =>
          exact hstay (List.append_nil _) fun _ hm => hm
      | @answered x hst =>
          obtain ⟨t, y, hjt, hm, hy⟩ := hv.replying hj hst
          cases hm
          obtain ⟨n, q, hn, hq⟩ := ht.known.job hj hjt
          obtain rfl := hwho _ rfl
          refine hpost rfl rfl ?_ rfl (fun _ hm => hm) hn (hy.trans hq.symm) ⟨rfl, hg.queued rfl rfl⟩
          simp [Ledger.after, Ledger.post, ht.known.numberOf_eq hn]

theorem Sourced.read (h : v.Sourced c a diary posts) (read : List Message) :
    v.Sourced c { a with read } diary posts := ⟨h.posts, h.due⟩

theorem Source.like {p : Actor × Response} (h : v.Source c diary o p) (hl : Like c v w) :
    w.Source c diary o p := by
  obtain ⟨who, y⟩ := p
  cases who with
  | call s => exact h
  | requests => exact fun s hs => ⟨(h s hs).1.like hl, (h s hs).2⟩
  | _ => exact h.elim

theorem Sourced.like (h : v.Sourced c a diary posts) (hl : Like c v w) :
    w.Sourced c a diary posts where
  posts := h.posts.imp fun _ _ ⟨q, o, hn, hid, hs⟩ => ⟨q, o, hn, hid, hs.like hl⟩
  due hm hd hn s hs :=
    have h := h.due (hl.pump ▸ hm) hd hn s hs
    ⟨h.1.like hl, h.2⟩

end View

theorem Change.responses {c : ConnectionId} {v w : View} {e : Deed} (hc : Change c v e w) :
    ∃ xs, w.responses = v.responses ++ xs ∧ (e = .nothing → xs = []) := by
  cases hc with
  | posted => exact ⟨_, rfl, fun h => by cases h⟩
  | handled _ hw => exact ⟨[], by cases hw <;> simp, fun _ => rfl⟩
  | @turned s j r o x hj ht => exact ⟨_, rfl, by cases x <;> simp⟩
  | _ => exact ⟨[], (List.append_nil _).symm, fun _ => rfl⟩

end Parley.Dispatch
