import Parley.Proofs.Peer.Docket

namespace Parley

namespace Message

def request? : Message → Option Request
  | .request q => some q
  | _ => none

end Message

/-- The message by which a request asks that is to be known as `a`. -/
structure RequestSpec.Asks (spec : RequestSpec) (a : Awaited) (q : Request) : Prop where
  id : q.id = a.id
  method : q.method = spec.method
  params : spec.params.encode = .ok q.params

def Exchange.asking (x : Exchange) (e : Errands.Event) : List (RequestSpec × Awaited) :=
  match x, e with
  | .fresh (.request spec), .registered a => [(spec, a)]
  | _, _ => []

theorem Exchange.asking_eq_nil {x : Exchange} {e : Errands.Event} (h : ∀ a, e ≠ .registered a) :
    x.asking e = [] := by
  unfold asking
  split
  · exact absurd rfl (h _)
  · rfl

namespace Peer

variable {κ : Type}

def requests (p : Peer κ) : List Request := p.outbound.items.filterMap Message.request?

def Queueing (p : Peer κ) (asked : List (RequestSpec × Awaited)) (m : Message) :
    Option Awaited → Prop
  | none => m.request? = none
  | some a => ∃ spec q, (spec, a) ∈ asked ∧ m = .request q ∧ spec.Asks a q ∧
      ∀ r ∈ p.requests, r.id ≠ q.id

structure Asking (p : Peer κ) (f : κ → Option Exchange) (asked : List (RequestSpec × Awaited)) :
    Prop where
  counted : asked.map (·.2.id) = (List.range asked.length).map fun n => .number (n + 1 : Nat)
  next : p.pending.closed = false → p.nextId = (asked.length + 1 : Nat)
  queueing : ∀ {who m o}, f who = some (.queueing m o) → p.Queueing asked m o
  sent : ∀ {q}, q ∈ p.requests → ∃ e ∈ asked, e.1.Asks e.2 q
  once : (p.requests.map (·.id)).Nodup

variable {p q : Peer κ} {f g : κ → Option Exchange} {asked : List (RequestSpec × Awaited)}
  {k : Docket}

theorem Queueing.mono (more : List (RequestSpec × Awaited)) {m : Message} {o : Option Awaited}
    (h : p.Queueing asked m o) (hr : q.requests = p.requests) : q.Queueing (asked ++ more) m o := by
  cases o with
  | none => exact h
  | some a =>
      obtain ⟨spec, r, he, hm, ha, hn⟩ := h
      exact ⟨spec, r, List.mem_append_left _ he, hm, ha, hr ▸ hn⟩

namespace Asking

theorem empty (hp : p.requests = []) (hn : p.nextId = 1)
    (hf : ∀ who m o, f who ≠ some (.queueing m o)) : p.Asking f [] where
  counted := rfl
  next _ := hn
  queueing h := absurd h (hf _ _ _)
  sent h := by rw [hp] at h; cases h
  once := by rw [hp]; exact .nil

theorem id_eq (h : p.Asking f asked) {e : RequestSpec × Awaited} (he : e ∈ asked) :
    ∃ n < asked.length, e.2.id = .number (n + 1 : Nat) := by
  have hm : e.2.id ∈ asked.map (·.2.id) := List.mem_map_of_mem he
  rw [h.counted] at hm
  obtain ⟨n, hn, he⟩ := List.mem_map.1 hm
  exact ⟨n, List.mem_range.1 hn, he.symm⟩

theorem eq (h : p.Asking f asked) {e e' : RequestSpec × Awaited} (he : e ∈ asked) (he' : e' ∈ asked)
    (hi : e.2.id = e'.2.id) : e = e' := by
  have hn : (asked.map (·.2.id)).Nodup := by
    rw [h.counted]
    refine List.Nodup.map (fun n m hnm => ?_) List.nodup_range
    have := RequestId.number.inj hnm
    omega
  exact List.inj_on_of_nodup_map hn he he' hi

theorem congr (h : p.Asking f asked) (hr : q.requests = p.requests) (hn : q.nextId = p.nextId)
    (hc : q.pending.closed = false → p.pending.closed = false)
    (hg : ∀ {who m o}, g who = some (.queueing m o) → f who = some (.queueing m o)) :
    q.Asking g asked where
  counted := h.counted
  next hq := hn.trans (h.next (hc hq))
  queueing hw := by
    simpa using (h.queueing (hg hw)).mono [] hr
  sent hq := h.sent (hr ▸ hq)
  once := hr ▸ h.once

/-- No request with this id has been made, so none waits for an answer. -/
theorem not_pending (h : p.Asking f asked) (hv : (p.errands f).Slotted k)
    (hk : k.registered = asked.map (·.2)) (s : Nat) :
    (RequestId.number (asked.length + 1 : Nat), s) ∉ p.pending.slots := by
  intro hs
  obtain ⟨a, ha, hid, -⟩ := hv.owner hs
  rw [hk] at ha
  obtain ⟨e, he, rfl⟩ := List.mem_map.1 ha
  obtain ⟨n, hn, hen⟩ := h.id_eq he
  have := RequestId.number.inj (hid.symm.trans hen)
  omega

variable [DecidableEq κ] {who : κ} {now : Nat} {r : Progress} {p' : Peer κ}

theorem goes (h : p.Asking f asked) {o : Option Exchange} (hr : q.requests = p.requests)
    (hn : q.pending.closed = false → p.pending.closed = false ∧ q.nextId = p.nextId)
    (ho : ∀ {m a}, o = some (.queueing m a) → p.Queueing asked m a) :
    q.Asking (Function.update f who o) asked where
  counted := h.counted
  next hq := (hn hq).2.trans (h.next (hn hq).1)
  queueing {u m a} hw := by
    have hu : p.Queueing asked m a := by
      by_cases hu : u = who
      · subst hu
        rw [Function.update_self] at hw
        exact ho hw
      · rw [Function.update_of_ne hu] at hw
        exact h.queueing hw
    simpa using hu.mono [] hr
  sent hq := h.sent (hr ▸ hq)
  once := hr ▸ h.once

/-- A request gets the next id and is about to be queued. -/
theorem registered (h : p.Asking f asked) {spec : RequestSpec} {a : Awaited} {params : Option Json}
    (hp : spec.params.encode = .ok params) (hi : a.id = .number p.nextId)
    (hm : a.method = spec.method) (hc : p.pending.closed = false) (hr : q.requests = p.requests)
    (hn : q.nextId = p.nextId + 1) :
    q.Asking (Function.update f who
      (some (.queueing (.request ⟨a.id, a.method, params⟩) (some a)))) (asked ++ [(spec, a)]) where
  counted := by
    have hid : a.id = .number (asked.length + 1 : Nat) := by rw [hi, h.next hc]
    rw [List.map_append, h.counted, List.length_append, List.length_singleton, List.range_succ,
      List.map_append, List.map_singleton, List.map_singleton, hid]
  next _ := by
    rw [hn, h.next hc, List.length_append, List.length_singleton]
    rfl
  queueing {u m o} hw := by
    by_cases hu : u = who
    · subst hu
      rw [Function.update_self] at hw
      cases hw
      refine ⟨spec, _, List.mem_append_right _ (List.mem_singleton.2 rfl), rfl, ⟨rfl, hm, hp⟩, ?_⟩
      intro r hr'
      obtain ⟨e, he, hre⟩ := h.sent (hr ▸ hr')
      obtain ⟨n, hn, hen⟩ := h.id_eq he
      have hne : (n + 1 : Nat) ≠ p.nextId := by rw [h.next hc]; omega
      change r.id ≠ a.id
      rw [hre.id, hen, hi]
      exact fun he => hne (RequestId.number.inj he)
    · rw [Function.update_of_ne hu] at hw
      exact (h.queueing hw).mono _ hr
  sent hq := by
    obtain ⟨e, he, ha⟩ := h.sent (hr ▸ hq)
    exact ⟨e, List.mem_append_left _ he, ha⟩
  once := hr ▸ h.once

theorem queued {spec : RequestSpec} {a : Awaited} {r : Request} {deadline : Option Nat}
    (h : p.Asking f asked) (hv : (p.errands f).Slotted k)
    (hx : f who = some (.queueing (.request r) (some a))) (he : (spec, a) ∈ asked)
    (ha : spec.Asks a r) (hn : ∀ r' ∈ p.requests, r'.id ≠ r.id)
    (hr : q.requests = p.requests ++ [r]) (hi : q.nextId = p.nextId) (hp : q.pending = p.pending) :
    q.Asking (Function.update f who (some (.awaiting a deadline))) asked where
  counted := h.counted
  next hq := hi.trans (h.next (hp ▸ hq))
  queueing {u m o} hw := by
    have hu : u ≠ who := by
      rintro rfl
      rw [Function.update_self] at hw
      cases hw
    rw [Function.update_of_ne hu] at hw
    cases o with
    | none => exact h.queueing hw
    | some b =>
        obtain ⟨spec', r', he', rfl, ha', hn'⟩ := h.queueing hw
        refine ⟨spec', r', he', rfl, ha', fun s hs hid => ?_⟩
        rw [hr] at hs
        rcases List.mem_append.1 hs with hs | hs
        · exact hn' s hs hid
        · obtain rfl := List.mem_singleton.1 hs
          -- Two who are about to queue requests have slots of their own, so their ids differ.
          have hab : (spec, a) = (spec', b) := h.eq he he' (ha.id.symm.trans (hid.trans ha'.id))
          obtain rfl : a = b := congrArg Prod.snd hab
          have hau : (p.errands f).Awaits u a := by simp only [Errands.Awaits, errands, hw]; rfl
          have haw : (p.errands f).Awaits who a := by simp only [Errands.Awaits, errands, hx]; rfl
          exact hu (hv.unique hau haw rfl)
  sent {s} hs := by
    rw [hr] at hs
    rcases List.mem_append.1 hs with hs | hs
    · exact h.sent hs
    · obtain rfl := List.mem_singleton.1 hs
      exact ⟨_, he, ha⟩
  once := by
    rw [hr, List.map_append, List.nodup_append]
    refine ⟨h.once, List.nodup_singleton _, fun i hi j hj => ?_⟩
    obtain ⟨s, hs, rfl⟩ := List.mem_map.1 hi
    obtain rfl := List.mem_singleton.1 hj
    exact hn s hs

theorem step {x : Exchange} (h : p.Asking f asked) (hv : (p.errands f).Slotted k)
    (hk : k.registered = asked.map (·.2)) (hx : f who = some x)
    (hs : p.step who now x = (p', r)) (hw : r ≠ .waiting)
    (hauto : ∀ e ∈ x.asking (r.event x), e.1.id = none) :
    p'.Asking (Function.update f who r.exchange?) (asked ++ x.asking (r.event x)) := by
  have hsame {m : Message} {outbound : Flow.Channel κ Message} {answer : Flow.Channel.Answer}
      {pending : Pending Nat} (ho : p.outbound.offer who m = (outbound, answer))
      (ha : answer ≠ .accepted ∨ m.request? = none) :
      ({ p with outbound, pending } : Peer κ).requests = p.requests := by
    rw [requests, (Flow.Channel.offered ho).2.2.1, requests]
    split
    · next hacc => simp [List.filterMap_append, ha.resolve_left fun h => h hacc]
    · rfl
  cases step_course hs with
  | @registered spec body he hc hi =>
      have hid : spec.id = none := hauto _ List.mem_cons_self
      exact h.registered (a := p.awaitedFor spec) he (by simp [awaitedFor, idFor, hid]) rfl hc rfl
        (by simp [idAfter, hid])
  | @unregistered spec e hr =>
      rw [Exchange.asking_eq_nil (by simp [Progress.event, Exchange.awaited?]), List.append_nil]
      refine h.goes rfl (fun hc => ⟨hc, ?_⟩) fun he => by cases he
      cases hid : spec.id with
      | some id => simp [idAfter, hid]
      | none =>
          -- The next id is free, so a request that gets it is refused by a closed peer only.
          have hfree (s : Nat) : (p.idFor spec, s) ∉ p.pending.slots := by
            rw [idFor, hid, Option.getD_none, h.next hc]
            exact h.not_pending hv hk s
          rw [Pending.register_eq_ok.2 ⟨hc, hfree, rfl⟩] at hr
          cases hr
  | queued ho =>
      obtain ⟨spec, q, he, rfl, ha, hn⟩ := h.queueing hx
      rw [Exchange.asking_eq_nil (by simp [Progress.event, Exchange.awaited?]), List.append_nil]
      refine h.queued hv hx he ha hn ?_ rfl rfl
      rw [requests, (Flow.Channel.offered ho).2.2.1, if_pos rfl, List.filterMap_append]
      rfl
  | unencodable =>
      rw [Exchange.asking_eq_nil (by simp [Progress.event, Exchange.awaited?]), List.append_nil]
      exact h.goes rfl (fun hc => ⟨hc, rfl⟩) fun he => by cases he
  | encoded =>
      rw [Exchange.asking_eq_nil (by simp [Progress.event, Exchange.awaited?]), List.append_nil]
      exact h.goes rfl (fun hc => ⟨hc, rfl⟩) fun he => by cases he; rfl
  | inLine | waiting => exact absurd rfl hw
  | lined ho =>
      rw [show (Exchange.queueing _ _).asking _ = [] from rfl, List.append_nil]
      exact h.goes (hsame ho (.inl (by simp))) (fun hc => ⟨hc, rfl⟩) fun he => by
        cases he
        exact h.queueing hx
  | sent ho =>
      rw [show (Exchange.queueing _ _).asking _ = [] from rfl, List.append_nil]
      exact h.goes (hsame ho (.inr (h.queueing hx))) (fun hc => ⟨hc, rfl⟩) fun he => by cases he
  | unsent ho | refused ho =>
      rw [show (Exchange.queueing _ _).asking _ = [] from rfl, List.append_nil]
      exact h.goes (hsame ho (.inl (by simp))) (fun hc => ⟨hc, rfl⟩) fun he => by cases he
  | answered | gone | timedOut =>
      rw [show (Exchange.awaiting _ _).asking _ = [] from rfl, List.append_nil]
      exact h.goes rfl (fun hc => ⟨hc, rfl⟩) fun he => by cases he
  | left =>
      rw [show (Exchange.leaving _ _).asking _ = [] from rfl, List.append_nil]
      exact h.goes rfl (fun hc => ⟨hc, rfl⟩) fun he => by cases he

end Asking

end Peer

end Parley
