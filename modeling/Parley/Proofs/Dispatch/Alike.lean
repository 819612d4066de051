import Parley.Proofs.Dispatch.Isolation
import Parley.Proofs.Dispatch.Masked
import Parley.Proofs.Dispatch.Saving

namespace Parley.Dispatch

theorem Hub.isStopped_eq {g h : Hub} (hg : g.masked = h.masked) (c : ConnectionId) :
    g.isStopped c = h.isStopped c := by
  rw [isStopped, isStopped, inflight_eq hg]

namespace Link

variable {g h : Hub} {l l' : Link} {sv : Service}

def masked (l : Link) : Link := { l with calls := l.calls.map Call.masked }

@[simp] theorem masked_masked (l : Link) : l.masked.masked = l.masked := by
  simp only [masked, List.map_map, Function.comp_def, Call.masked_masked]

def Alike (x y : Hub × Link) : Prop := x.1.masked = y.1.masked ∧ x.2.masked = y.2.masked

theorem alike (hg : g.masked = h.masked) (hl : l' = l.masked) : Alike (g, l') (h, l) :=
  ⟨hg, hl ▸ l.masked_masked⟩

theorem publish_masked (hg : g.masked = h.masked) (l : Link) (body : Bytes) :
    Alike (publish sv.masked g l.masked body) (publish sv h l body) := by
  have hc : sv.masked.codec = sv.codec := rfl
  simp only [publish, hc]
  split <;> split <;> exact alike hg rfl

theorem stepReader_masked (hg : g.masked = h.masked) :
    Option.Rel Alike (stepReader sv.masked g l.masked) (stepReader sv h l) := by
  have hr : l.masked.reader = l.reader := rfl
  have hi : l.masked.id = l.id := rfl
  have hf : l.masked.fanout = l.fanout := rfl
  have hn : l.masked.inbound = l.inbound := rfl
  simp only [stepReader, hr, hi, hf, hn, Hub.isStopped_eq hg]
  split
  · exact .none
  · split
    · exact .some (alike hg rfl)
    · split
      · exact .none
      · exact .some (alike hg rfl)
      · exact .some (alike hg rfl)
  · split
    · exact .some (alike hg rfl)
    · split
      · exact .none
      · exact .some (alike hg rfl)
      · next inbound body _ => exact .some (publish_masked hg { l with inbound } body)
      · exact .some (alike hg rfl)
      · exact .some (alike hg rfl)

theorem stepWriter_masked (hg : g.masked = h.masked) :
    Option.Rel Alike (stepWriter sv.masked g l.masked) (stepWriter sv h l) := by
  have hw : l.masked.writerDone = l.writerDone := rfl
  have hi : l.masked.id = l.id := rfl
  have hd : l.masked.desk = l.desk := rfl
  have hc : sv.masked.codec = sv.codec := rfl
  simp only [stepWriter, hw, hi, hd, hc, Hub.isStopped_eq hg]
  split
  · exact .none
  · split
    · exact .some (alike hg rfl)
    · split
      · exact .none
      · split
        · exact .some (alike hg rfl)
        · have hf : (l.masked.setOutbound l.desk.peer.outbound.take).farOpen =
            (l.setOutbound l.desk.peer.outbound.take).farOpen := rfl
          rw [hf]
          split
          · exact .some (alike hg rfl)
          · exact .some (alike
              (Hub.masked_fire (g := g.log _) (h := h.log _) hg l.id .connection) rfl)

theorem masked_spawn {call call' : Nat → Call} (hc : ∀ n, (call n).masked = (call' n).masked)
    (l : Link) : (l.masked.spawn call).masked = (l.spawn call').masked := by
  have hn : l.masked.numbered = l.numbered := rfl
  have hcalls : l.masked.calls.map Call.masked = l.calls.map Call.masked :=
    congrArg Link.calls l.masked_masked
  simp only [masked, spawn, List.map_append, List.map_singleton] at hcalls ⊢
  rw [hcalls, hc]

theorem handle_masked (hg : g.masked = h.masked) (l : Link) (m : Message) :
    Alike (handle sv.masked g l.masked m) (handle sv h l m) := by
  have hi : l.masked.id = l.id := rfl
  have hn : l.masked.numbered = l.numbered := rfl
  have hroute (method : String) :
      sv.masked.routes.resolve method = (sv.routes.resolve method).map Handler.masked :=
    sv.routes.resolve_map Handler.masked method
  cases m with
  | request r =>
      simp only [handle, handleRequest, hroute, hi, hn, Hub.inflight_eq hg]
      rcases sv.routes.resolve r.method with (_ | _) | handler <;> simp only [Except.map]
      · exact alike hg rfl
      · exact alike hg rfl
      · split
        · exact alike hg rfl
        · refine ⟨Hub.masked_setInflight hg _, masked_spawn (fun n => ?_) l⟩
          simp only [Call.masked, Handler.masked_masked]
  | notification n =>
      simp only [handle, handleNotification, hroute, hi, hn]
      split
      · simp only [cancel, hi, Hub.inflight_eq hg]
        split
        · exact alike hg rfl
        · split
          · exact alike (Hub.masked_setInflight (g := g.log _) (h := h.log _) hg _) rfl
          · refine alike ?_ rfl
            simp only [Hub.masked_log, Hub.masked_logIf]
            exact Hub.masked_setInflight hg _
      · rcases sv.routes.resolve n.method with e | handler <;> simp only [Except.map]
        · exact alike hg rfl
        · refine ⟨hg, masked_spawn (fun n => ?_) l⟩
          simp only [Call.masked, Handler.masked_masked]
  | response x => exact alike hg rfl

theorem stepRequests_masked (hg : g.masked = h.masked) :
    Option.Rel Alike (stepRequests sv.masked g l.masked) (stepRequests sv h l) := by
  have hr : l.masked.requests = l.requests := rfl
  have hf : l.masked.fanout = l.fanout := rfl
  have hd : l.masked.desk = l.desk := rfl
  simp only [stepRequests, hr, hf, hd]
  split
  · exact .none
  · split
    · exact .none
    · exact .some (alike hg rfl)
    · exact .some (alike hg rfl)
  · next m _ => exact .some (handle_masked hg { l with requests := .taking } m)
  · split
    · split
      · exact .none
      · exact .some (alike hg rfl)
    · exact .some (alike hg rfl)
    · exact .some (alike (by simpa using hg) rfl)

theorem stepResponses_masked (hg : g.masked = h.masked) :
    Option.Rel Alike (stepResponses g l.masked) (stepResponses h l) := by
  have hr : l.masked.responsesDone = l.responsesDone := rfl
  have hf : l.masked.fanout = l.fanout := rfl
  have hd : l.masked.desk = l.desk := rfl
  simp only [stepResponses, hr, hf, hd]
  split
  · exact .none
  · split
    · exact .none
    · exact .some (alike hg rfl)
    · exact .some (alike (by simpa using hg) rfl)
    · exact .some (alike hg rfl)

theorem stepSupervisor_masked (hg : g.masked = h.masked) :
    Option.Rel Alike (stepSupervisor g l.masked) (stepSupervisor h l) := by
  have hs : l.masked.supervisor = l.supervisor := rfl
  have hr : l.masked.reader = l.reader := rfl
  have hq : l.masked.requests = l.requests := rfl
  have hd : l.masked.responsesDone = l.responsesDone := rfl
  have hw : l.masked.writerDone = l.writerDone := rfl
  simp only [stepSupervisor, hs, hr, hq, hd, hw]
  split
  · exact .none
  · split
    · exact .some (alike hg rfl)
    · exact .none
  · split
    · exact .some (alike hg rfl)
    · exact .none
  · split
    · exact .some (alike hg rfl)
    · exact .none
  · simp only [Hub.inflight_eq hg]
    exact .some (alike (Hub.masked_setInflight hg _) rfl)
  · exact .some (alike hg rfl)
  · simp only [Hub.inflight_eq hg]
    exact .some (alike (Hub.masked_setInflight hg _) rfl)
  · simp only [Hub.inflight_eq hg]
    exact .some (alike (Hub.masked_setInflight hg _) rfl)
  · exact .some (alike hg rfl)
  · exact .some (alike (Hub.masked_fire hg l.id .handlers) rfl)
  · exact .some (alike (Hub.masked_fire hg l.id .connection) rfl)
  · split
    · exact .some (alike hg rfl)
    · exact .none

theorem masked_replaced {i k : Option Call} (hk : i.map Call.masked = k.map Call.masked)
    (calls : List Call) (n : Nat) : (replaced (calls.map Call.masked) n i).map Call.masked =
      (replaced calls n k).map Call.masked := by
  have hserial (c : Call) : c.masked.serial = c.serial := rfl
  cases i with
  | none =>
      obtain rfl : k = none := by simpa using hk.symm
      simp only [replaced, List.filter_map, Function.comp_def, hserial, List.map_map,
        Call.masked_masked]
  | some i =>
      obtain ⟨k, rfl, he⟩ := Option.map_eq_some_iff.1 hk.symm
      simp only [replaced, List.map_map]
      refine List.map_congr_left fun c _ => ?_
      simp only [Function.comp_apply, hserial]
      split
      · exact he.symm
      · exact c.masked_masked

theorem call?_masked (l : Link) (n : Nat) : l.masked.call? n = (l.call? n).map Call.masked :=
  List.find?_map

theorem stepCall_masked (hg : g.masked = h.masked) (n : Nat) :
    Option.Rel Alike (stepCall sv.masked g l.masked n) (stepCall sv h l n) := by
  have hd : l.masked.desk = l.desk := rfl
  have hi : l.masked.id = l.id := rfl
  have hcall := call?_masked l n
  unfold call? at hcall
  simp only [stepCall, hcall, hd, hi, Option.bind_eq_bind]
  cases l.calls.find? fun k => k.serial = n with
  | none => exact .none
  | some k =>
      have hs := Call.step_masked (k := k) sv l.desk.peer l.id hg
      simp only [Option.map_some, Option.bind_some]
      generalize k.masked.step sv.masked g l.desk.peer l.id = x at hs
      generalize k.step sv h l.desk.peer l.id = y at hs
      cases hs with
      | none => exact .none
      | @some x y hs =>
          obtain ⟨x, p, i⟩ := x
          obtain ⟨y, q, j⟩ := y
          obtain ⟨⟨hh, hk⟩, rfl : p = q⟩ := hs
          refine .some ⟨hh, ?_⟩
          have hcalls := masked_replaced hk l.calls n
          exact congrArg (fun calls => ({ l.setPeer p with calls } : Link)) hcalls

/-- A step of a connection comes to the same, whatever is masked of it before. -/
theorem step_masked (sv : Service) (hg : g.masked = h.masked) (l : Link) (who : Actor) :
    Option.Rel Alike (l.masked.step sv.masked g who) (l.step sv h who) := by
  cases who with
  | writer => exact stepWriter_masked hg
  | reader => exact stepReader_masked hg
  | requests => exact stepRequests_masked hg
  | responses => exact stepResponses_masked hg
  | supervisor => exact stepSupervisor_masked hg
  | call n => exact stepCall_masked hg n
  | caller n =>
      have hd : l.masked.desk = l.desk := rfl
      simp only [step, stepCaller, hd, Hub.now_eq hg]
      cases l.desk.step h.now (.caller n) with
      | none => exact .none
      | some desk => exact .some (alike hg rfl)

end Link

def Outer.IsBlind (f : Outer) : Prop :=
  ∀ (l : Link) calls, f.change { l with calls } = { f.change l with calls }

theorem Outer.IsBlind.masked {f : Outer} (hf : f.IsBlind) (l : Link) :
    (f.change l).masked = f.change l.masked := by
  rw [Link.masked, f.calls]
  exact (hf l _).symm

def Event.IsBlind : Event → Prop
  | .outside _ f => f.IsBlind
  | _ => True

end Parley.Dispatch
