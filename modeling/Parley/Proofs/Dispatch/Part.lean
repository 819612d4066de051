import Parley.Proofs.Dispatch.Congruence

namespace Parley.Dispatch

open Session (Handle Use)

variable {c : ConnectionId} {h g : Hub} {r : InFlight TokenName} {m n : Session.Manager CallName}

namespace Link

variable {sv : Service} {l : Link}

theorem publish_congr (hh : h.only l.id = g.only l.id) (body : Bytes) :
    Seen l.id (publish sv h l body) (publish sv g l body) := by
  simp only [publish]
  split <;> split <;> exact ⟨hh, rfl⟩

theorem stepReader_congr (hh : h.only l.id = g.only l.id) :
    Option.Rel (Seen l.id) (stepReader sv h l) (stepReader sv g l) := by
  simp only [stepReader, Hub.isStopped_congr hh]
  split
  · exact .none
  · split
    · exact .some ⟨hh, rfl⟩
    · split
      · exact .none
      · exact .some ⟨hh, rfl⟩
      · exact .some ⟨hh, rfl⟩
  · split
    · exact .some ⟨hh, rfl⟩
    · split
      · exact .none
      · exact .some ⟨hh, rfl⟩
      · next inbound body _ => exact .some (publish_congr (l := { l with inbound }) hh body)
      · exact .some ⟨hh, rfl⟩
      · exact .some ⟨hh, rfl⟩

theorem stepWriter_congr (hh : h.only l.id = g.only l.id) :
    Option.Rel (Seen l.id) (stepWriter sv h l) (stepWriter sv g l) := by
  simp only [stepWriter, Hub.isStopped_congr hh]
  split
  · exact .none
  · split
    · exact .some ⟨hh, rfl⟩
    · split
      · exact .none
      · split
        · exact .some ⟨hh, rfl⟩
        · split
          · exact .some ⟨hh, rfl⟩
          · exact .some ⟨Hub.only_fire (h := h.log _) (g := g.log _) hh .connection, rfl⟩

theorem cancel_congr (hh : h.only l.id = g.only l.id) (params : Option Json) :
    Seen l.id (cancel h l params) (cancel g l params) := by
  simp only [cancel]
  split
  · exact ⟨hh, rfl⟩
  · next id _ =>
    obtain ⟨h1, h2⟩ := InFlight.cancel_congr (Hub.inflight_of_only hh) id
    rcases hx : h.inflight.cancel l.id id with ⟨x, _ | _⟩ <;>
      rcases hy : g.inflight.cancel l.id id with ⟨y, _ | _⟩ <;>
      simp only [hx, hy] at h1 h2 <;> cases h2
    · refine ⟨?_, rfl⟩
      simp only [Hub.only_log, Hub.only_logIf]
      exact Hub.only_setInflight hh h1
    · exact ⟨Hub.only_setInflight hh h1, rfl⟩

theorem handle_congr (hh : h.only l.id = g.only l.id) (m : Message) :
    Seen l.id (handle sv h l m) (handle sv g l m) := by
  cases m with
  | request r =>
      simp only [handle, handleRequest]
      split
      · exact ⟨hh, rfl⟩
      · exact ⟨hh, rfl⟩
      · have hb := InFlight.only_begin? (r := h.inflight) (c := l.id) r.id
          (Hub.callToken l.id l.numbered)
        rw [Hub.inflight_of_only hh, InFlight.only_begin?] at hb
        rcases hx : h.inflight.begin? l.id r.id (Hub.callToken l.id l.numbered) with _ | ⟨x, t⟩ <;>
          rcases hy : g.inflight.begin? l.id r.id (Hub.callToken l.id l.numbered) with _ | ⟨y, u⟩ <;>
          simp only [hx, hy, Option.map_none, Option.map_some] at hb
        · exact ⟨hh, rfl⟩
        · cases hb
        · cases hb
        · obtain ⟨h1, rfl⟩ := Prod.mk.inj (Option.some.inj hb)
          exact ⟨Hub.only_setInflight hh h1.symm, rfl⟩
  | notification n =>
      simp only [handle, handleNotification]
      split
      · exact cancel_congr hh n.params
      · split <;> exact ⟨hh, rfl⟩
  | response x => exact ⟨hh, rfl⟩

theorem stepRequests_congr (hh : h.only l.id = g.only l.id) :
    Option.Rel (Seen l.id) (stepRequests sv h l) (stepRequests sv g l) := by
  simp only [stepRequests]
  split
  · exact .none
  · split
    · exact .none
    · exact .some ⟨hh, rfl⟩
    · exact .some ⟨hh, rfl⟩
  · exact .some (handle_congr (l := { l with requests := .taking }) hh _)
  · split
    · split
      · exact .none
      · exact .some ⟨hh, rfl⟩
    · exact .some ⟨hh, rfl⟩
    · exact .some ⟨by simpa using hh, rfl⟩

theorem stepResponses_congr (hh : h.only l.id = g.only l.id) :
    Option.Rel (Seen l.id) (stepResponses h l) (stepResponses g l) := by
  simp only [stepResponses]
  split
  · exact .none
  · split
    · exact .none
    · exact .some ⟨hh, rfl⟩
    · exact .some ⟨by simpa using hh, rfl⟩
    · exact .some ⟨hh, rfl⟩

theorem stepSupervisor_congr (hh : h.only l.id = g.only l.id) :
    Option.Rel (Seen l.id) (stepSupervisor h l) (stepSupervisor g l) := by
  simp only [stepSupervisor]
  split
  · exact .none
  · split
    · exact .some ⟨hh, rfl⟩
    · exact .none
  · split
    · exact .some ⟨hh, rfl⟩
    · exact .none
  · split
    · exact .some ⟨hh, rfl⟩
    · exact .none
  · obtain ⟨hw, hts⟩ := InFlight.withdraw_congr (Hub.inflight_of_only hh)
    exact .some ⟨Hub.only_setInflight hh hw, by simp only [hts]⟩
  · exact .some ⟨hh, rfl⟩
  · next t _ _ =>
    exact .some ⟨Hub.only_setInflight hh (InFlight.seize_congr (Hub.inflight_of_only hh) t), rfl⟩
  · have hf (x : TokenName) : (h.inflight.fire x).only l.id = (g.inflight.fire x).only l.id := by
      rw [InFlight.only_fire, InFlight.only_fire, Hub.inflight_of_only hh]
    exact .some ⟨Hub.only_setInflight hh (hf _), rfl⟩
  · exact .some ⟨hh, rfl⟩
  · exact .some ⟨Hub.only_fire hh .handlers, rfl⟩
  · exact .some ⟨Hub.only_fire hh .connection, rfl⟩
  · split
    · exact .some ⟨hh, rfl⟩
    · exact .none

def Fit (h : Hub) (l : Link) : Prop := ∀ n k, l.call? n = some k → k.Fit l.id h

theorem stepCall_congr (hh : h.only l.id = g.only l.id) (hm : h.sessions.Owned CallName.session)
    (hn : g.sessions.Owned CallName.session) (hl : l.Fit h) (hl' : l.Fit g) (n : Nat) :
    Option.Rel (Seen l.id) (stepCall sv h l n) (stepCall sv g l n) := by
  simp only [stepCall, Option.bind_eq_bind]
  cases hk : l.calls.find? fun k => k.serial = n with
  | none => exact .none
  | some k =>
      have hs := Call.step_congr sv l.desk.peer hh hm hn (hl n k hk) (hl' n k hk)
      simp only [Option.bind_some]
      generalize k.step sv h l.desk.peer l.id = x at hs
      generalize k.step sv g l.desk.peer l.id = y at hs
      cases hs with
      | none => exact .none
      | some hs =>
          obtain ⟨h1, h2⟩ := hs
          exact .some ⟨h1, by simp only [h2]⟩

/-- A step of a connection depends on its own part alone. -/
theorem step_congr (sv : Service) (hh : h.only l.id = g.only l.id)
    (hm : h.sessions.Owned CallName.session)
    (hn : g.sessions.Owned CallName.session) (hl : l.Fit h) (hl' : l.Fit g) (who : Actor) :
    Option.Rel (Seen l.id) (l.step sv h who) (l.step sv g who) := by
  cases who with
  | writer => exact stepWriter_congr hh
  | reader => exact stepReader_congr hh
  | requests => exact stepRequests_congr hh
  | responses => exact stepResponses_congr hh
  | supervisor => exact stepSupervisor_congr hh
  | call n => exact stepCall_congr hh hm hn hl hl' n
  | caller n =>
      simp only [step, stepCaller, Hub.now_of_only hh]
      cases l.desk.step g.now (.caller n) with
      | none => exact .none
      | some desk => exact .some ⟨hh, rfl⟩

end Link

end Parley.Dispatch
