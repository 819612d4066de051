import Parley.Proofs.Server.InTurn

namespace Parley

open Dispatch
open Server (Builtin.report Builtin.script)

namespace Dispatch

theorem Turn.answer {r r' : InFlight TokenName} {shut : Bool} {j : Job} {o : Option Job}
    {x : Response}
    (ht : Turn r shut j r' o (some x)) : j.stage = .replying (.response x) := by
  cases ht with
  | answered hj => exact hj

theorem Call.not_open_of_replying {k : Call} {m : Message} (h : k.phase.stage = .replying m) :
    k.isOpen = false := by
  unfold isOpen
  split
  · next hp =>
    rw [hp] at h
    cases h
  · next hp =>
    rw [hp] at h
    cases h
  · rfl

end Dispatch

namespace Dispatcher

variable {d g : Dispatcher} {c : ConnectionId} {n : Nat} {k : Call} {ts : Touches} {qs : Wishes}
  {y : Response}

def Queues (c : ConnectionId) (d : Dispatcher) (n : Nat) (y : Response) : Prop :=
  ∃ l l', d.link? c = some l ∧ (d.happen (.step c (.call n))).link? c = some l' ∧
    l'.responses = l.responses ++ [y]

structure KeepsMap (c : ConnectionId) (d : Dispatcher) (ts : Touches) : Prop where
  known : ∀ t ∈ ts, t.1 < d.numbered c
  /-- A call that has no answer yet can take a step, and goes on by it. That of a request stays. -/
  goes : ∀ n k, d.call? c n = some k → k.left ≠ 0 →
    (k.ticket.isSome = true → ((d.happen (.step c (.call n))).call? c n).isSome = true) ∧
    ∀ i, (d.happen (.step c (.call n))).call? c n = some i → i.left < k.left
  /-- A call that answers has changed what it has been asked to change and nothing else, and reports
  the attributes as they were then. If its parameters cannot be read, it answers with an error and
  has not touched the session. -/
  answers : ∀ n y, Queues c d n y → ∃ k t, d.call? c n = some k ∧ k.ticket = some t ∧ y.id = t.id ∧
    match k.set? with
    | some set => ∃ v, y.outcome = .ok v ∧ ts.Reports n set c.session v
    | none => y.outcome = .error ⟨-32603, "internal server error", none⟩ ∧ noted ts n = []

/-- What the calls make of it if the peer has asked for `qs`, in this order: each of them reports
what comes of what has been asked for up to then. -/
structure KeepsOrder (c : ConnectionId) (d : Dispatcher) (ts : Touches) (qs : Wishes) : Prop where
  touches : ts <+: Touches.inTurn qs
  answers : ∀ n y k set, Queues c d n y → d.call? c n = some k → k.set? = some set →
    ∃ earlier later, qs = earlier ++ (n, set) :: later ∧
      let ms := Wishes.value (earlier ++ [(n, set)])
      y.outcome = .ok (Builtin.report c.session ms !ms.isEmpty)

theorem Queues.replying (h : Queues c d n y) (hd : d.Orderly) :
    ∃ k, d.call? c n = some k ∧ k.phase.stage = .replying (.response y) := by
  obtain ⟨l, l', hl, hl', hy⟩ := h
  cases hstep : d.step (c, .call n) with
  | none =>
      rw [Dispatcher.happen, hstep, Option.getD_none, hl] at hl'
      cases hl'
      simp at hy
  | some d' =>
      rw [Dispatcher.happen, hstep, Option.getD_some] at hl'
      obtain ⟨m, hm, hstep, -⟩ := step_own hd.sound hl hstep
      obtain rfl : m = l' := Option.some.inj (hm.symm.trans hl')
      obtain ⟨k, k', x, hk, -, -, hturn, hx, -⟩ := Link.entries_stepCall (hd.sound.linked hl).1 hstep
      have hxy : x.toList = [y] := List.append_cancel_left (hx.symm.trans hy)
      obtain rfl : x = some y := by simpa [Option.toList_eq_singleton_iff] using hxy
      exact ⟨k, call?_eq_some.2 ⟨l, hl, hk⟩, hturn.answer⟩

namespace Serves

theorem reply (h : Serves c g ts) (hs : Same c d g) (hd : d.Orderly) (hy : Queues c d n y) :
    ∃ k t o, d.call? c n = some k ∧ k.isOpen = false ∧ k.ticket = some t ∧
      y = ⟨t.id, o.mapError HandlerError.body⟩ ∧ k.Comes c.session ts o := by
  obtain ⟨k, hk, hst⟩ := hy.replying hd
  obtain ⟨t, o, ht, hyo, ho⟩ := (h.stands (hs.call? ▸ hk)).reply hst
  exact ⟨k, t, o, hk, Call.not_open_of_replying hst, ht, hyo, ho⟩

theorem keepsMap (h : Serves c g ts) (hs : Same c d g) (hd : d.Orderly) (hc : Calm c d) :
    KeepsMap c d ts := by
  refine ⟨fun t ht => ?_, fun n k hk hl => ?_, fun n y hy => ?_⟩
  · rw [hs.numbered]
    exact h.known t ht
  · have hc := hs.calm hc
    have hnext : Same c (d.happen (.step c (.call n))) (g.happen (.step c (.call n))) :=
      hs.happen hd h.orderly (by simp [Event.of?])
    rw [hs.call?] at hk
    rw [hnext.call?]
    obtain ⟨g', hg'⟩ := h.goes hc hk hl
    obtain ⟨k', ht⟩ := h.turns hc hk hg'
    rw [Dispatcher.happen, hg', Option.getD_some, ht.calls, if_pos rfl]
    refine ⟨fun hticket => ht.advances.lasts hl fun _ => hticket, fun i hi => ?_⟩
    have := ht.advances.left i hi
    omega
  · obtain ⟨k, t, o, hk, -, ht, rfl, ho⟩ := h.reply hs hd hy
    refine ⟨k, t, hk, ht, rfl, ?_⟩
    have hn := serial_of_call? hk
    cases hset : k.set? with
    | none =>
        obtain ⟨rfl, hnone⟩ := (Call.comes_of_none hset).1 ho
        exact ⟨rfl, hn ▸ hnone⟩
    | some set =>
        obtain ⟨v, rfl, hv⟩ := (Call.comes_of_some hset).1 ho
        exact ⟨v, rfl, hn ▸ hv⟩

theorem keepsOrder (h : Serves c g ts) (hi : InTurn c g ts qs) (h1 : OneAtATime c g)
    (hs : Same c d g) (hd : d.Orderly) : KeepsOrder c d ts qs := by
  obtain ⟨past, now, rfl, hi⟩ := hi
  constructor
  case touches =>
    cases now with
    | nil =>
        have hts := hi.touched
        rw [List.flatMap_nil, List.append_nil] at hts
        exact ⟨[], by rw [hts, List.append_nil, List.append_nil]⟩
    | cons q now =>
        obtain ⟨k, hk, ho, hset⟩ := hi.going q List.mem_cons_self
        have hnow := hi.now_eq h1 hk ho hset
        obtain ⟨rest, hrest⟩ := (h.stands hk).follows hset
        rw [serial_of_call? hk] at hrest
        have hts := hi.touched
        rw [hnow, List.flatMap_singleton] at hts
        refine ⟨rest.map (q.1, ·), ?_⟩
        rw [hnow, Touches.inTurn_append, Touches.inTurn_singleton, ← hrest, List.map_append,
          ← List.append_assoc, ← hts]
  case answers =>
    intro n y k set hy hk hset
    obtain ⟨k', t, o, hk', ho, ht, rfl, hcomes⟩ := h.reply hs hd hy
    obtain rfl : k = k' := Option.some.inj (hk.symm.trans hk')
    obtain ⟨v, rfl, hv⟩ := (Call.comes_of_some hset).1 hcomes
    have hn := serial_of_call? hk
    have hmem : (n, set) ∈ past := by
      rcases List.mem_append.1 (hi.all (hs.call? ▸ hk) hset) with hm | hm
      · exact hm
      · obtain ⟨i, hi, hio, -⟩ := hi.going _ hm
        obtain rfl : k = i := Option.some.inj (hk.symm.trans (hs.call?.trans hi))
        cases ho.symm.trans hio
    obtain ⟨earlier, later, rfl⟩ := List.append_of_mem hmem
    have hearlier : ∀ q ∈ earlier, q.1 ≠ n := by
      have hnd := hi.once
      rw [List.append_assoc, List.map_append, List.nodup_append] at hnd
      exact fun q hq => hnd.2.2 _ (List.mem_map_of_mem hq) n (by simp)
    refine ⟨earlier, later ++ now, by simp, ?_⟩
    have hts := hi.touched
    rw [hts, hn] at hv
    exact congrArg Except.ok (hv.inTurn hearlier)

end Serves

/-- As long as the peer of a connection only uses the route for its session, cancels nothing and
does not wait for too long, each answer is that of a map that has been empty first, to which is done
what the calls ask for that can be read. If they are open one at a time, it is done in the order in
which they come. What happens on other connections makes no difference. -/
theorem session_is_map {service : Service} {maxIdle : Nat} {es : List Event}
    (hr : service.routes.resolve Server.Builtin.sessionMethod = .ok Server.Builtin.session)
    (hc : Throughout (Calm c) (ofService service maxIdle) es) :
    KeepsMap c ((ofService service maxIdle).run es) (touches c [] (ofService service maxIdle) es) ∧
      (Throughout (OneAtATime c) (ofService service maxIdle) es →
        KeepsOrder c ((ofService service maxIdle).run es) (touches c [] (ofService service maxIdle) es)
          (wishes c (ofService service maxIdle) es)) := by
  have hstart := serves_start (c := c) hr maxIdle
  have hsame : Same c (ofService service maxIdle) (ofService service maxIdle) := ⟨rfl, rfl, rfl⟩
  constructor
  · obtain ⟨g, hs, hg, hd, hcalm⟩ := run_of_happen (P := fun g ts _ => Serves c g ts)
      (fun _ _ _ h => h.orderly) (fun _ _ hs h => hs.calm h) (fun _ _ _ _ h hc he => h.happen hc he)
      [] hsame hstart.orderly hstart es hc
    exact hg.keepsMap hs hd hcalm
  · intro h1
    obtain ⟨g, hs, ⟨hg, hi⟩, hd, -, h1⟩ := run_of_happen
      (P := fun g ts qs => Serves c g ts ∧ InTurn c g ts qs)
      (Q := fun g => Calm c g ∧ OneAtATime c g)
      (fun _ _ _ h => h.1.orderly) (fun _ _ hs h => ⟨hs.calm h.1, hs.oneAtATime h.2⟩)
      (fun _ _ _ _ h hc he => ⟨h.1.happen hc.1 he, h.2.happen h.1 hc.1 hc.2 he⟩) [] hsame hstart.orderly
      ⟨hstart, inTurn_start⟩ es (throughout_and hc h1)
    exact hg.keepsOrder hi (hs.oneAtATime h1) hs hd

def clearing : List Event :=
  let ask (c : ConnectionId) (id : Nat) (params : Json) : Event :=
    let bytes :=
      Frame.encode (Message.request ⟨.number id, Server.Builtin.sessionMethod, some params⟩).encode
    .outside c ⟨(·.receive bytes), fun _ => ⟨_, _, _, _, rfl⟩⟩
  let turns (n : Nat) : List Actor :=
    List.replicate 7 .reader ++ List.replicate 2 .requests ++ List.replicate 7 (.call n)
  let serve (c : ConnectionId) (n : Nat) : List Event := (turns n).map (.step c)
  .attach ⟨"c"⟩ :: .attach ⟨"e"⟩ ::
    ask ⟨"c"⟩ 1 (.obj [("set", .obj [("a", .int 1)])]) :: serve ⟨"c"⟩ 0 ++
    ask ⟨"e"⟩ 1 (.obj [("set", .obj [("a", .int 2)])]) :: serve ⟨"e"⟩ 0 ++
    ask ⟨"c"⟩ 2 (.obj [("set", .obj [("a", .null)])]) :: serve ⟨"c"⟩ 1 ++
    ask ⟨"c"⟩ 3 (.int 7) :: serve ⟨"c"⟩ 2

theorem resolve_sessionMethod : (Server.registerBuiltin {}).resolve Server.Builtin.sessionMethod =
    .ok Server.Builtin.session := by
  have hping : (Route.Mapping.ofMethod Server.Builtin.pingMethod).admits
      Server.Builtin.sessionMethod = false := by
    decide
  have hmethods : (Route.Mapping.ofMethod Server.Builtin.methodsMethod).admits
      Server.Builtin.sessionMethod = false := by
    decide
  have hsession : (Route.Mapping.ofMethod Server.Builtin.sessionMethod).admits
      Server.Builtin.sessionMethod = true := by
    decide
  simp [Server.registerBuiltin, Route.Table.register, Route.Table.resolve, Route.Table.ranked, hping,
    hmethods, hsession]

theorem clearing_spec :
    let d := ofService { routes := Server.registerBuiltin {} } 9
    Throughout (Calm ⟨"c"⟩) d clearing ∧ Throughout (OneAtATime ⟨"c"⟩) d clearing ∧
      wishes ⟨"c"⟩ d clearing = [(0, [("a", .int 1)]), (1, [("a", .null)])] ∧
      touches ⟨"c"⟩ [] d clearing = Touches.inTurn (wishes ⟨"c"⟩ d clearing) ∧
      ((d.run clearing).link? ⟨"c"⟩).map Link.responses = some [
        ⟨.number 1, .ok (Builtin.report ⟨"c"⟩ [("a", .int 1)] true)⟩,
        ⟨.number 2, .ok (Builtin.report ⟨"c"⟩ [] false)⟩,
        ⟨.number 3, .error ⟨-32603, "internal server error", none⟩⟩] := by
  decide +kernel

theorem session_is_map_of_clearing :
    let d := ofService { routes := Server.registerBuiltin {} } 9
    let qs : Wishes := [(0, [("a", .int 1)]), (1, [("a", .null)])]
    Throughout (Calm ⟨"c"⟩) d clearing ∧ Throughout (OneAtATime ⟨"c"⟩) d clearing ∧
      KeepsMap ⟨"c"⟩ (d.run clearing) (Touches.inTurn qs) ∧
        KeepsOrder ⟨"c"⟩ (d.run clearing) (Touches.inTurn qs) qs := by
  intro d qs
  obtain ⟨hcalm, hone, hwishes, htouches, -⟩ := clearing_spec
  obtain ⟨hmap, horder⟩ := session_is_map resolve_sessionMethod hcalm
  rw [htouches, hwishes] at hmap horder
  exact ⟨hcalm, hone, hmap, horder hone⟩

end Dispatcher

end Parley
