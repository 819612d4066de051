import Parley.Proofs.Dispatch.Arrival

namespace Parley.Dispatch

theorem forall₂_getElem? {α β : Type} {R : α → β → Prop} {xs : List α} {ys : List β} {i : Nat}
    {x : α} (h : List.Forall₂ R xs ys) (hi : xs[i]? = some x) : ∃ y, ys[i]? = some y ∧ R x y := by
  induction h generalizing i with
  | nil => simp at hi
  | cons hr _ ih =>
      cases i with
      | zero =>
          obtain rfl : _ = x := by simpa using hi
          exact ⟨_, rfl, hr⟩
      | succ i => exact ih hi

/-- The one who holds the answer of a request and will queue it: the pump, or the call that the
request has started, once that has claimed the outcome. -/
def Link.Holds (l : Link) (a : Ledger) (n : Nat) (q : Request) (o : Option Nat) : Actor → Prop
  | .requests => a.due = some n ∧ ∃ x : Response, l.requests = .replying (.response x) ∧ x.id = q.id
  | .call s => o = some s ∧ ∃ k t, l.call? s = some k ∧ k.ticket = some t ∧ t.id = q.id ∧
      (k.phase.stage = .concluded ∨
        ∃ x : Response, k.phase.stage = .replying (.response x) ∧ x.id = q.id)
  | _ => False

def Hub.IsSilent (h : Hub) (c : ConnectionId) (m : Message) : Prop :=
  (∀ q, m ≠ .request q) ∧
    ∀ n id t, m = .notification n → n.method = Message.cancelMethod →
      Link.cancelTarget? n.params = some id → h.inflight.lookup c id = some t →
        h.inflight.isClaimed t = true

variable {c : ConnectionId} {v w : View} {m : Message} {e : Deed}

theorem Change.intake (hc : Change c v (.take m) w) : Intake c { v with pump := .taking } m w := by
  generalize he : Deed.take m = e at hc
  cases hc with
  | handled _ hw =>
      cases he
      exact hw
  | turned hj ht => split at he <;> cases he
  | _ => cases he

theorem Intake.silent {h : Hub} (hw : Intake c v m w) (hv : v.registry = h.inflight)
    (hm : h.IsSilent c m) : w.pump = v.pump ∧ w.responses = v.responses ∧
      w.registry.claimed = v.registry.claimed ∧ w.registry.fired = v.registry.fired := by
  cases hw with
  | passed | notified => exact ⟨rfl, rfl, rfl, rfl⟩
  | refused | begun => exact absurd rfl (hm.1 _)
  | cancelled hn ht hc =>
      obtain ⟨t, hl, hcl, -⟩ := InFlight.cancel_eq_true hc
      rw [hv] at hl hcl
      rw [hm.2 _ _ t rfl hn ht hl] at hcl
      cases hcl
  | missed _ _ hc =>
      rcases InFlight.cancel_eq_false hc with ⟨-, rfl⟩ | ⟨t, -, -, rfl⟩ <;>
        exact ⟨rfl, rfl, rfl, rfl⟩

/-- A response is queued by the one who holds the answer of a request. -/
theorem View.Balanced.posts {a : Ledger} (hv : v.Sound c) (hb : v.Balanced c a)
    (hc : Change c v e w) (hr : w.responses ≠ v.responses) :
    ∃ (x : Response) (n : Nat) (q : Request) (o : Option Nat),
      w.responses = v.responses ++ [x] ∧ x.id = q.id ∧ a.taken[n]? = some (.request q, o) ∧
      ((e = .post .requests ∧ v.pump = .replying (.response x) ∧ a.due = some n) ∨
        ∃ s j t, e = .post (.call s) ∧ o = some s ∧ v.job s = some j ∧ j.ticket = some t ∧
          t.id = q.id ∧ j.stage = .replying (.response x)) := by
  cases hc with
  | handled _ hw => cases hw <;> exact absurd rfl hr
  | posted hp =>
      obtain ⟨n, q, o, x, hd, hn, hm, hx, -⟩ := hb.due hp
      cases hm
      exact ⟨_, n, q, o, rfl, hx, hn, .inl ⟨rfl, hp, hd⟩⟩
  | @turned s j r o x hj ht =>
      cases ht with
      | @answered x hst =>
          obtain ⟨t, y, ht, hm, hy⟩ := hv.replying hj hst
          cases hm
          obtain ⟨n, q, hn, hq⟩ := hb.known.job hj ht
          exact ⟨x, n, q, some s, rfl, hy.trans hq.symm, hn,
            .inr ⟨s, j, t, rfl, rfl, hj, ht, hq.symm, hst⟩⟩
      | _ => simp at hr
  | _ => exact absurd rfl hr

theorem Link.deed_eq_take {l l' : Link} {who : Actor} (hd : l.deed l' who = .take m) :
    who = .requests ∧ l.inHand? = some m := by
  unfold deed at hd
  split at hd
  · next hm =>
    cases hd
    exact ⟨rfl, hm⟩
  · split at hd <;> cases hd

theorem Link.deed_eq_post {l l' : Link} {who k : Actor} (h : l.deed l' who = .post k) :
    who = k := by
  unfold deed at h
  split at h
  · cases h
  · split at h <;> cases h
    rfl

end Parley.Dispatch

namespace Parley.Dispatcher

open Dispatch

variable {d d' : Dispatcher} {c : ConnectionId} {l : Link} {a : Ledger} {n : Nat} {q : Request}
  {o : Option Nat}

theorem job_of_call {s : Nat} {k : Call} (hk : l.call? s = some k) :
    (l.view d.hub).job s = some k.job := by
  simp [Link.view, hk]

theorem call_of_job {s : Nat} {j : Job} (hj : (l.view d.hub).job s = some j) :
    ∃ k, l.call? s = some k ∧ k.job = j := by
  simpa [Link.view] using hj

def sample : Option (Dispatcher × Ledger) :=
  let request := Message.request ⟨.number 1, "work", none⟩
  let cancellation := Message.notification ⟨Message.cancelMethod, some (.obj [("id", .int 1)])⟩
  let service : Service := { routes := { entries := [(.any, fun _ _ => .done .null)] } }
  let reading : List Move := [.act .reader, .act .reader, .act .reader]
  follow ⟨"c"⟩ (.arrive (Frame.encode request.encode) :: reading ++
    [.act .requests, .act .requests] ++ reading ++
    .arrive (Frame.encode cancellation.encode) :: reading ++ [.act .requests])
    ((serving service { store := { maxIdle := 0 } }).attach ⟨"c"⟩, {})

end Parley.Dispatcher
