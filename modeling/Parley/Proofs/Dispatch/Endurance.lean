import Parley.Proofs.Dispatch.Alike

namespace Parley.Dispatcher

open Dispatch

variable {d g : Dispatcher} {c : ConnectionId} {l : Link}

def masked (d : Dispatcher) : Dispatcher where
  service := d.service.masked
  hub := d.hub.masked
  links := d.links.map Link.masked

theorem service_eq (hm : d.masked = g.masked) : d.service.masked = g.service.masked :=
  congrArg Dispatcher.service hm

theorem hub_eq (hm : d.masked = g.masked) : d.hub.masked = g.hub.masked :=
  congrArg Dispatcher.hub hm

theorem link?_masked (d : Dispatcher) (c : ConnectionId) :
    d.masked.link? c = (d.link? c).map Link.masked := List.find?_map

theorem link?_eq (hm : d.masked = g.masked) (c : ConnectionId) :
    (d.link? c).map Link.masked = (g.link? c).map Link.masked := by
  rw [← link?_masked, ← link?_masked, hm]

theorem masked_put (d : Dispatcher) (l : Link) : (d.put l).masked = d.masked.put l.masked := by
  have hid (m : Link) : m.masked.id = m.id := rfl
  simp only [masked, put, List.map_map]
  congr 1
  refine List.map_congr_left fun m _ => ?_
  simp only [Function.comp_apply, hid]
  split <;> rfl

theorem masked_edit (d : Dispatcher) (c : ConnectionId) {f : Link → Link}
    (hf : ∀ l : Link, (f l).masked = f l.masked) : (d.edit c f).masked = d.masked.edit c f := by
  rw [edit, edit, link?_masked]
  cases d.link? c with
  | none => rfl
  | some l =>
      change (d.put (f l)).masked = d.masked.put (f l.masked)
      rw [masked_put, hf]

/-- Dispatchers that are masked alike take the same steps, and are masked alike after them. -/
theorem step_masked (hm : d.masked = g.masked) (t : Task) :
    Option.Rel (fun x y => x.masked = y.masked) (d.step t) (g.step t) := by
  obtain ⟨c, who⟩ := t
  have hl := link?_eq hm c
  simp only [step, Option.bind_eq_bind]
  cases hd : d.link? c with
  | none =>
      rw [hd] at hl
      have hg : g.link? c = none := by simpa using hl.symm
      rw [hg]
      exact .none
  | some l =>
      rw [hd] at hl
      obtain ⟨m, hg, hml⟩ := Option.map_eq_some_iff.1 hl.symm
      -- The two links are not compared with each other, but both with what they are when masked.
      have hx := Link.step_masked d.service (rfl : d.hub.masked = d.hub.masked) l who
      have hy := Link.step_masked g.service (hub_eq hm) m who
      rw [hml, ← service_eq hm] at hy
      rw [hg]
      simp only [Option.bind_some]
      generalize l.masked.step d.service.masked d.hub who = z at hx hy
      generalize l.step d.service d.hub who = x at hx
      generalize m.step g.service g.hub who = y at hy
      cases hx with
      | none =>
          cases hy
          exact .none
      | @some z x hx =>
          cases hy with
          | @some _ y hy =>
              obtain ⟨hub, l'⟩ := x
              obtain ⟨hub', m'⟩ := y
              have hh : hub.masked = hub'.masked := hx.1.symm.trans hy.1
              have hl' : l'.masked = m'.masked := hx.2.symm.trans hy.2
              refine .some ?_
              change ({ (d.put l').masked with hub := hub.masked } : Dispatcher) =
                { (g.put m').masked with hub := hub'.masked }
              rw [masked_put, masked_put, hm, hh, hl']

theorem masked_attach (d : Dispatcher) (c : ConnectionId) : (d.attach c).masked =
    { d.masked with links := d.masked.links ++ [.attach d.masked.service c] } := by
  simp only [masked, attach, List.map_append]
  rfl

theorem happen_masked (hm : d.masked = g.masked) {e : Event} (he : e.IsBlind) :
    (d.happen e).masked = (g.happen e).masked := by
  have hedit {c : ConnectionId} {f : Link → Link} (hf : ∀ l : Link, (f l).masked = f l.masked) :
      (d.edit c f).masked = (g.edit c f).masked := by
    rw [masked_edit d c hf, masked_edit g c hf, hm]
  have hhub {h h' : Hub} (hh : h.masked = h'.masked) :
      ({ d with hub := h } : Dispatcher).masked = ({ g with hub := h' } : Dispatcher).masked := by
    change ({ d.masked with hub := h.masked } : Dispatcher) = { g.masked with hub := h'.masked }
    rw [hm, hh]
  have hb := hub_eq hm
  cases e with
  | step c who =>
      have hs := step_masked hm (c, who)
      simp only [happen]
      generalize d.step (c, who) = x at hs
      generalize g.step (c, who) = y at hs
      cases hs with
      | none => exact hm
      | some h => exact h
  | attach c =>
      have hl : (d.link? c).isNone = (g.link? c).isNone := by
        have hl := congrArg Option.isNone (link?_eq hm c)
        simpa using hl
      simp only [happen, hl]
      split
      · rw [masked_attach, masked_attach, hm]
      · exact hm
  | close c => exact hhub (Hub.masked_fire hb c .connection)
  | send c errand => exact hedit fun _ => rfl
  | abort c n => exact hedit fun _ => rfl
  | outside c f => exact hedit he.masked
  | openGate gate =>
      change d.masked.openGate gate = g.masked.openGate gate
      rw [hm]
  | advance ms =>
      change d.masked.advance ms = g.masked.advance ms
      rw [hm]
  | elapse n =>
      change d.masked.elapse n = g.masked.elapse n
      rw [hm]
  | fail operations =>
      change d.masked.fail operations = g.masked.fail operations
      rw [hm]

structure Recast where
  change : Dispatcher → Dispatcher
  masked : ∀ d, (change d).masked = d.masked

def endure (d : Dispatcher) (xs : List (Event × Recast)) : Dispatcher :=
  xs.foldl (fun d x => x.2.change (d.happen x.1)) d

theorem endure_masked (hm : d.masked = g.masked) {xs ys : List (Event × Recast)}
    (hxy : xs.map Prod.fst = ys.map Prod.fst) (hb : ∀ x ∈ xs, x.1.IsBlind) :
    (d.endure xs).masked = (g.endure ys).masked := by
  induction xs generalizing d g ys with
  | nil =>
      obtain rfl : ys = [] := by simpa using hxy.symm
      exact hm
  | cons x xs ih =>
      obtain ⟨y, ys, rfl, hy, hys⟩ := List.map_eq_cons_iff.1 hxy.symm
      change ((x.2.change (d.happen x.1)).endure xs).masked =
        ((y.2.change (g.happen y.1)).endure ys).masked
      -- What the two have in common is kept by the event, and then by each recast.
      refine ih ?_ hys.symm fun z hz => hb z (.tail _ hz)
      rw [x.2.masked, y.2.masked, hy, happen_masked hm (hb x List.mem_cons_self)]

end Parley.Dispatcher
