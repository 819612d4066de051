import Parley.Proofs.Dispatch.Busy

namespace Parley.Dispatch

open Errands (Event Change)

variable {sv : Service} {h h' : Hub} {p' : Peer Actor} {k : Call} {k' : Option Call}
  {outcome : Except HandlerError Json} {f : Actor → Option Exchange}

theorem lookup_cons_of_ne {callers : List (Actor × Exchange)} {u v : Actor} {y : Exchange}
    (h : u ≠ v) : ((v, y) :: callers).lookup u = callers.lookup u := by
  rw [List.lookup_cons, beq_eq_false_iff_ne.2 h]

theorem lookup_replace {callers : List (Actor × Exchange)} {who u : Actor} {x : Exchange} :
    (callers.map fun c => if c.1 = who then (who, x) else c).lookup u =
      if u = who then (callers.lookup who).map fun _ => x else callers.lookup u := by
  induction callers with
  | nil => simp
  | cons c cs ih =>
      obtain ⟨v, y⟩ := c
      by_cases hv : v = who
      · subst hv
        rw [List.map_cons, if_pos rfl]
        by_cases hu : u = v
        · subst hu
          rw [List.lookup_cons_self, if_pos rfl, List.lookup_cons_self]
          rfl
        · rw [lookup_cons_of_ne hu, ih, if_neg hu, if_neg hu, lookup_cons_of_ne hu]
      · rw [List.map_cons, if_neg hv]
        by_cases hu : u = v
        · subst hu
          rw [List.lookup_cons_self, if_neg hv, List.lookup_cons_self]
        · rw [lookup_cons_of_ne hu, ih, lookup_cons_of_ne hu, lookup_cons_of_ne (Ne.symm hv)]

theorem lookup_remove {callers : List (Actor × Exchange)} {who u : Actor} :
    (callers.filter fun c => c.1 ≠ who).lookup u =
      if u = who then none else callers.lookup u := by
  induction callers with
  | nil => simp
  | cons c cs ih =>
      obtain ⟨v, y⟩ := c
      by_cases hv : v = who
      · subst hv
        rw [List.filter_cons_of_neg (by simp), ih]
        by_cases hu : u = v
        · rw [if_pos hu, if_pos hu]
        · rw [if_neg hu, if_neg hu, lookup_cons_of_ne hu]
      · rw [List.filter_cons_of_pos (by simpa using hv)]
        by_cases hu : u = v
        · subst hu
          rw [List.lookup_cons_self, if_neg hv, List.lookup_cons_self]
        · rw [lookup_cons_of_ne hu, ih, lookup_cons_of_ne hu]

theorem lookup_send (desk : Desk Actor) (who : Actor) (errand : Errand) (u : Actor) :
    (desk.send who errand).callers.lookup u =
      if u = who then (desk.callers.lookup who).or (some (.fresh errand))
      else desk.callers.lookup u := by
  by_cases hu : u = who
  · subst hu
    simp [Desk.send, List.lookup_append]
  · have hb : (u == who) = false := beq_false_of_ne hu
    simp [Desk.send, List.lookup_append, List.lookup_cons, hb, hu]

namespace Link

variable {l l' : Link} {who : Actor} {n : Nat}

theorem errand?_eq (hc : l'.calls = l.calls) (hd : l'.desk.callers = l.desk.callers) :
    l'.errand? = l.errand? := by
  funext who
  cases who <;> simp only [errand?, call?, hc, hd]

theorem errand?_spawn {call : Nat → Call} (hp : (call l.numbered).phase.exchange? = none) :
    (l.spawn call).errand? = l.errand? := by
  funext who
  cases who with
  | call s =>
      simp only [errand?, call?, spawn, List.find?_append]
      cases l.calls.find? fun k => k.serial = s with
      | some k => rfl
      | none => by_cases hs : (call l.numbered).serial = s <;> simp [hs, hp]
  | _ => rfl

theorem errand?_replaced {k : Call} {k' : Option Call} (q : Peer Actor) (hk : l.call? n = some k)
    (hkept : ∀ i, k' = some i → i.serial = n) :
    errand? { l.setPeer q with calls := replaced l.calls n k' } =
      Function.update l.errand? (.call n) (k'.bind (·.phase.exchange?)) := by
  have hfind (s : Nat) := find?_replaced (s := s) (Option.isSome_iff_exists.2 ⟨k, hk⟩) hkept
  funext who
  by_cases hw : who = .call n
  · subst hw
    rw [Function.update_self]
    simp only [errand?, call?, hfind, if_true]
  · rw [Function.update_of_ne hw]
    cases who with
    | call s =>
        have hs : s ≠ n := fun he => hw (by rw [he])
        simp only [errand?, call?, hfind, if_neg hs]
    | _ => rfl

/-- A step of a call is a step of its errand, and of no other. -/
theorem stepCall_exchange (ht : l.Tidy) (hs : stepCall sv h l n = some (h', l')) :
    ∃ (k : Call) (k' : Option Call),
    k.Tidy ∧ k.serial = n ∧ k.step sv h l.desk.peer l.id = some (h', l'.desk.peer, k') ∧
      l.errand? (.call n) = k.phase.exchange? ∧ l.event h (.call n) = k.event h l.desk.peer ∧
        l'.errand? = Function.update l.errand? (.call n) (k'.bind (·.phase.exchange?)) := by
  obtain ⟨k, p', k', hk, hn, hc, rfl⟩ := stepCall_course hs
  have htk := (ht.call hk).1
  obtain ⟨-, -, -, -, hkept⟩ := Call.step_turn htk hc
  exact ⟨k, k', htk, hn, hc, by simp only [errand?, hk, Option.bind_some],
    by simp only [event, hk], errand?_replaced p' hk fun i hi => (hkept i hi).1.trans hn⟩

theorem stepCall_errands (ht : l.Tidy) (hs : stepCall sv h l n = some (h', l')) :
    l.errands.Change (l.event h (.call n)) l'.errands := by
  obtain ⟨k, k', htk, rfl, hc, hx, hev, hf⟩ := stepCall_exchange ht hs
  rw [hev, errands, errands, hf]
  exact Call.step_errands htk hx hc

theorem errand?_desk (desk : Desk Actor) {o : Option Exchange}
    (hd : ∀ u, desk.callers.lookup u = if u = .caller n then o else l.desk.callers.lookup u) :
    errand? { l with desk } = Function.update l.errand? (.caller n) o := by
  funext who
  by_cases hw : who = .caller n
  · subst hw
    rw [Function.update_self]
    simp only [errand?, hd, if_true]
  · rw [Function.update_of_ne hw]
    cases who <;> simp only [errand?, hd, if_neg hw, call?]

theorem errands_desk (desk : Desk Actor) {o : Option Exchange}
    (hd : ∀ u, desk.callers.lookup u = if u = .caller n then o else l.desk.callers.lookup u) :
    errands { l with desk } = desk.peer.errands (Function.update l.errand? (.caller n) o) := by
  rw [errands, errand?_desk desk hd]

theorem stepCaller_exchange (hs : stepCaller h l (.caller n) = some (h', l')) : ∃ x r,
    l.errand? (.caller n) = some x ∧
      l.desk.peer.step (.caller n) h.now x = (l'.desk.peer, r) ∧ r ≠ .waiting ∧
        l.event h (.caller n) = r.event x ∧
          l'.errand? = Function.update l.errand? (.caller n) r.exchange? := by
  simp only [stepCaller, Option.map_eq_some_iff, Prod.mk.injEq] at hs
  obtain ⟨d, hd, rfl, rfl⟩ := hs
  simp only [Desk.step, Option.bind_eq_bind, Option.bind_eq_some_iff] at hd
  obtain ⟨x, hx, hd⟩ := hd
  rcases hr : l.desk.peer.step (.caller n) h.now x with ⟨q, y | _ | outcome⟩ <;>
    simp only [hr] at hd
  · have he := Option.some.inj hd
    refine ⟨x, .moved y, hx, by rw [hr, ← he], by simp, by simp only [event, hx, hr],
      errand?_desk d fun u => ?_⟩
    rw [← he, lookup_replace, hx]
    rfl
  · cases hd
  · have he := Option.some.inj hd
    refine ⟨x, .done outcome, hx, by rw [hr, ← he], by simp, by simp only [event, hx, hr],
      errand?_desk d fun u => ?_⟩
    rw [← he]
    exact lookup_remove

theorem stepCaller_errands (hs : stepCaller h l (.caller n) = some (h', l')) :
    l.errands.Change (l.event h (.caller n)) l'.errands := by
  obtain ⟨x, r, hx, hr, hw, he, hf⟩ := stepCaller_exchange hs
  rw [he, errands, errands, hf]
  exact Peer.step_change hx hr hw

theorem shut_setOutbound {outbound : Flow.Channel Actor Message}
    (hs : l.desk.peer.outbound.shut = true → outbound.shut = true) :
    l.errands.Change .quiet (l.setOutbound outbound).errands := by
  rw [errands, errand?_eq (l := l) rfl rfl]
  exact .idle hs

theorem stepWriter_errands (hs : stepWriter sv h l = some (h', l')) :
    l.errands.Change .quiet l'.errands := by
  cases (stepWriter_course hs).2 with
  | left => exact shut_setOutbound fun _ => rfl
  | skipped | written => exact shut_setOutbound fun hs => by simpa using hs
  | failed =>
      change l.errands.Change .quiet (l.setOutbound l.desk.peer.outbound.take.close).errands
      exact shut_setOutbound fun _ => rfl

theorem HandleCourse.errands {m : Message} (hc : HandleCourse sv h l m h' l') :
    l'.errands = l.errands := by
  have hspawn {call : Nat → Call} (hp : (call l.numbered).phase.exchange? = none) :
      (l.spawn call).errands = l.errands := by
    rw [Link.errands, errand?_spawn hp]
    rfl
  cases hc with
  | begun | notified => exact hspawn rfl
  | _ => rfl

/-- The request pump queues a response at most, and no errand is concerned. -/
theorem stepRequests_leaves (ht : l.Tidy) (hs : stepRequests sv h l = some (h', l')) :
    Leaves l.desk.peer l'.desk.peer ∧ l'.errand? = l.errand? := by
  cases stepRequests_course hs with
  | ended | received => exact ⟨.refl _, rfl⟩
  | handled _ hh hk =>
      have hx : l'.errand? = errand? { l with requests := .taking } :=
        congrArg Errands.errand hh.errands
      exact ⟨hk.2.2 ▸ .refl _, hx⟩
  | posted hp ho | waiting hp ho | refused hp ho =>
      obtain ⟨x, rfl⟩ := ht.pump _ hp
      exact ⟨.offered ho, rfl⟩

theorem stepRequests_errands (ht : l.Tidy) (hs : stepRequests sv h l = some (h', l')) :
    l.errands.Change .quiet l'.errands := by
  obtain ⟨hl, hf⟩ := stepRequests_leaves ht hs
  have he : l'.errands = l.errands := (congrArg _ hf).trans (hl.errands _)
  rw [he]
  exact .idle fun hs => hs

theorem stepResponses_errands (hs : stepResponses h l = some (h', l')) :
    l.errands.Change (l.event h .responses) l'.errands := by
  obtain ⟨hd, hc⟩ := stepResponses_course hs
  cases hc with
  | ended hf =>
      have he : l.event h .responses = .quiet := by simp [event, arriving?, hf]
      rw [he]
      exact .idle fun hs => hs
  | @fulfilled f r hf =>
      have he : l.event h .responses = .processed r := by simp [event, arriving?, hf, hd]
      rw [he]
      exact .processed r
  | @skipped f m hm hf =>
      have he : l.event h .responses = .quiet := by
        cases m with
        | response r => exact absurd rfl (hm r)
        | _ => simp [event, arriving?, hf]
      rw [he]
      exact .idle fun hs => hs

theorem step_errands (ht : l.Tidy) (hs : l.step sv h who = some (h', l')) :
    l.errands.Change (l.event h who) l'.errands := by
  have hidle : l.errands.Change .quiet l.errands := .idle fun hs => hs
  cases who with
  | writer => exact stepWriter_errands hs
  | reader =>
      obtain ⟨-, _, _, _, rfl⟩ := stepReader_footprint hs
      exact hidle
  | requests => exact stepRequests_errands ht hs
  | responses => exact stepResponses_errands hs
  | supervisor =>
      cases stepSupervisor_course hs with
      | closed => exact .closed
      | _ => exact hidle
  | call n => exact stepCall_errands ht hs
  | caller n => exact stepCaller_errands hs

theorem aside_errands (h : l.Aside l') : l.errands.Change .quiet l'.errands := by
  cases h with
  | same => exact .idle fun hs => hs
  | send errand =>
      change l.errands.Change .quiet
        (Link.errands { l with desk := l.desk.send (.caller l.numbered) errand })
      rw [Link.errands_desk _ (lookup_send _ _ _)]
      have hsame {β : Type} (f : Exchange → Option β) (hf : f (.fresh errand) = none) :
          ((l.desk.callers.lookup (.caller l.numbered)).or (some (.fresh errand))).bind f =
            (l.errand? (.caller l.numbered)).bind f := by
        change _ = (l.desk.callers.lookup (.caller l.numbered)).bind f
        cases l.desk.callers.lookup (.caller l.numbered) <;> simp [hf]
      exact .kept (hsame _ rfl) (hsame _ rfl)
  | abort n =>
      rw [Link.errands_desk (l.desk.drop (.caller n)) fun u => lookup_remove]
      exact .dropped _
  | outside h =>
      obtain ⟨inbound, written, farOpen, outcomes, rfl⟩ := h
      exact .idle fun hs => hs

end Link

end Parley.Dispatch
