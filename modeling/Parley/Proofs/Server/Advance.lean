import Parley.Proofs.Server.Attributes

namespace Parley.Dispatch.Call

open Session (Handle)
open Server (Builtin.script Builtin.changing Builtin.reporting Builtin.sessionReport Builtin.report)

variable {sv : Service} {h h' : Hub} {p p' : Peer Actor} {c : ConnectionId} {k : Call}
  {k' : Option Call} {m : Session.Manager CallName} {ts : Touches} {o : Except HandlerError Json}
  {set : Json.Members} {deadline : Option Nat} {a : Handle}

theorem conclude_of_unclaimed (h : Hub) (o : Except HandlerError Json)
    (hc : ∀ t, k.ticket = some t → h.inflight.isClaimed t = false) :
    ∃ g, h.Still g ∧ k.conclude h c o = (g, some { k with phase := .concluded o }) := by
  cases ht : k.ticket with
  | none =>
      simp only [conclude, ht, if_true]
      cases o <;> exact ⟨_, ⟨_, _, _, rfl⟩, rfl⟩
  | some t =>
      simp only [conclude, ht, InFlight.claim_eq, hc t ht, Bool.false_eq_true, if_false, if_true]
      cases o <;> exact ⟨_, ⟨_, _, _, rfl⟩, rfl⟩

/-- What a step makes of the sessions, of what has been done, and of the call. The call stays until
it has its answer to queue, or has none to queue. -/
structure Advances (c : ConnectionId) (k : Call) (ts : Touches) (h' : Hub) (k' : Option Call) :
    Prop where
  shows : h'.sessions.Shows c.session (ts ++ (k.touch? ts).toList).value
  stands : ∀ i, k' = some i → i.Stands c h'.sessions (ts ++ (k.touch? ts).toList)
  kept : ∀ i, k' = some i → ∃ phase commit, i = { k with phase, commit }
  left : ∀ i, k' = some i → i.left ≤ k.left - 1
  lasts : k.left ≠ 0 → (k.left = 1 → k.ticket.isSome = true) → k'.isSome = true

theorem Advances.on {i : Call} (hw : k.touch? ts = none) (hs : h'.sessions.Shows c.session ts.value)
    (hi : i.Stands c h'.sessions ts) (hk : ∃ phase commit, i = { k with phase, commit })
    (hl : i.left ≤ k.left - 1) : k.Advances c ts h' (some i) := by
  have he : ts ++ (k.touch? ts).toList = ts := by rw [hw, Option.toList_none, List.append_nil]
  refine ⟨he.symm ▸ hs, fun j h => ?_, fun j h => ?_, fun j h => ?_, fun _ _ => rfl⟩ <;> cases h
  · exact he.symm ▸ hi
  · exact hk
  · exact hl

theorem Advances.ended (hw : k.touch? ts = none) (hs : h'.sessions.Shows c.session ts.value)
    (hl : k.left = 0 ∨ k.left = 1 ∧ k.ticket = none) : k.Advances c ts h' none := by
  have he : ts ++ (k.touch? ts).toList = ts := by rw [hw, Option.toList_none, List.append_nil]
  refine ⟨he.symm ▸ hs, fun j h => ?_, fun j h => ?_, fun j h => ?_, fun h ht => ?_⟩
  · cases h
  · cases h
  · cases h
  · rcases hl with hl | ⟨hl, hn⟩
    · exact absurd hl h
    · simpa [hn] using ht hl

theorem Advances.touched {i : Call} {x : Option (String × Json)}
    (hw : k.touch? ts = some (k.serial, x))
    (hs : h'.sessions.Shows c.session (ts ++ [(k.serial, x)]).value)
    (hi : i.Stands c h'.sessions (ts ++ [(k.serial, x)]))
    (hk : ∃ phase commit, i = { k with phase, commit }) (hl : i.left ≤ k.left - 1) :
    k.Advances c ts h' (some i) := by
  refine ⟨by rwa [hw], fun j h => ?_, fun j h => ?_, fun j h => ?_, fun _ _ => rfl⟩ <;> cases h
  · rwa [hw]
  · exact hk
  · exact hl

theorem advances_concluded {g : Hub} (hw : k.touch? ts = none) (hleft : 2 ≤ k.left)
    (hs : h.sessions.Shows c.session ts.value) (hk : k.Keeps c h.sessions a)
    (ho : k.Comes c.session ts o) (hg : h.Still g) :
    k.Advances c ts g (some { k with phase := .concluded o }) := by
  obtain ⟨_, _, _, rfl⟩ := hg
  exact .on hw hs (.concluded rfl ⟨hk.hooks, hk.held⟩ ho) ⟨_, _, rfl⟩ (by change 1 ≤ _; omega)

theorem advances_start (hp : k.phase = .fresh) (hc : k.commit = {}) (hn : noted ts k.serial = [])
    (hr : k.handler = Server.Builtin.session) (hs : h.sessions.Shows c.session ts.value)
    (hf : h.sessions.failing = []) (ht : h.sessions.store.Timely h.moment) :
    k.Advances c ts (k.start sv h c).1 (k.start sv h c).2 := by
  obtain ⟨m, a, hm, hi, hh, hshows⟩ := hs.resolve hf ht
  have hw : k.touch? ts = none := by simp [touch?, hp]
  have hheld (xs : List (CallName × Handle)) : ((c, k.serial), a) ∈ xs ++ [((c, k.serial), a)] :=
    List.mem_append_right _ (List.mem_singleton_self _)
  have hkeeps {i : Call} (hi : i.commit = (k.commit.add a).1) : i.commit.hooks = [a] := by
    rw [hi, hc]
    rfl
  simp only [start, resolve, hm]
  cases hset : k.set? with
  | none =>
      have hprogram (x : Context) : k.handler x k.params = .finish (.error (.invalidParams none)) := by
        rw [hr, session_of_none hset]
        rfl
      simp only [hprogram]
      refine .on hw (hshows _) (.ending rfl ⟨hkeeps rfl, hheld _⟩
        ((comes_of_none hset).2 ⟨rfl, hn⟩)) ⟨_, _, rfl⟩ ?_
      simp [left, hp, hset, Program.length]
  | some set =>
      have hprogram (x : Context) : k.handler x k.params = Builtin.changing set Builtin.reporting := by
        rw [hr, session_of_some hset]
      have hset' : k.set? = some ([] ++ set) := hset
      simp only [hprogram]
      refine .on hw (hshows _) (.changing rfl ⟨hkeeps rfl, hheld _⟩ hset' hn) ⟨_, _, rfl⟩ ?_
      simp [left, hp, hset, Server.Builtin.length_changing, Builtin.reporting, Program.length,
        Program.done]

theorem advances_settle (hp : k.phase = .concluded o) (hk : k.Keeps c h.sessions a)
    (ho : k.Comes c.session ts o) (hs : h.sessions.Shows c.session ts.value)
    (hf : h.sessions.failing = []) : k.Advances c ts (k.settle h c o).1 (k.settle h c o).2 := by
  obtain ⟨m, hm, -, hshows⟩ := hs.settle hf hk.held h.moment
  have hw : k.touch? ts = none := by simp [touch?, hp]
  have hsave : saveAll h [a] = ({ h.tick with sessions := m }, .ok ()) := by
    simp only [saveAll, hm]
  have hsettle : k.settle h c o = (k.letGo { h.tick with sessions := m } c,
      k.ticket.map fun t => { k with phase := .replying (answer t.id o) }) := by
    rw [settle, Flow.Commit.hooks_start, hk.hooks, hsave]
    cases k.ticket <;> rfl
  have hgo : (k.letGo { h.tick with sessions := m } c).sessions = m.release (c, k.serial) := by
    unfold letGo
    cases k.ticket <;> rfl
  rw [hsettle]
  cases ht : k.ticket with
  | none => exact .ended hw (hgo ▸ hshows) (.inr ⟨by simp [left, hp], ht⟩)
  | some t =>
      rw [Option.map_some, ← ht]
      exact .on hw (hgo ▸ hshows) (.replying rfl ht ho) ⟨_, _, rfl⟩ (Nat.zero_le _)

theorem step_touch {edit : Session → Session} {next : Session → Program} {s : Session}
    (hp : k.phase = .executing (.running (.touch edit next)) deadline a)
    (hn : h.inflight.isCancelled k.token = false) (hs : h.sessions.store.get? a = some s)
    (hstep : k.step sv h p c = some (h', p', k')) :
    h' = { h with sessions := h.sessions.edit a edit } ∧
      k' = some { k with phase := .executing (.running (next s)) deadline a } := by
  simp only [Call.step, hp, hn, Activity.step, Activity.exec, Activity.touch, hs] at hstep
  cases hstep
  exact ⟨rfl, rfl⟩

theorem advances_changing {done todo : Json.Members}
    (hp : k.phase = .executing (.running (Builtin.changing todo Builtin.reporting)) deadline a)
    (hk : k.Keeps c h.sessions a) (hset : k.set? = some (done ++ todo))
    (hnoted : noted ts k.serial = done.map some) (hs : h.sessions.Shows c.session ts.value)
    (hn : h.inflight.isCancelled k.token = false)
    (hstep : k.step sv h p c = some (h', p', k')) : k.Advances c ts h' k' := by
  have ha : h.sessions.Has a := .inr ⟨_, hk.held⟩
  obtain ⟨t, hget⟩ := hs.get? ha
  cases todo with
  | nil =>
      obtain ⟨rfl, rfl⟩ := step_touch hp hn hget hstep
      have hedit := hs.edit (f := id) (g := id) ha fun _ => rfl
      have hscript : Builtin.script (done ++ []) = done.map some ++ none :: [none] := by
        simp [Builtin.script]
      refine .touched (touch?_of_script hp hset hnoted hscript) ?_ (.looking rfl ⟨hk.hooks, hk.held⟩
        hset rfl (by simpa using hnoted) rfl rfl rfl) ⟨_, _, rfl⟩ ?_
      · rw [Touches.value_look]
        exact hedit
      · simp [left, hp, Builtin.changing, Builtin.reporting, Program.length, Program.done]
  | cons x todo =>
      obtain ⟨rfl, rfl⟩ := step_touch hp hn hget hstep
      have hset' : k.set? = some ((done ++ [x]) ++ todo) := by simpa using hset
      have hedit := hs.edit (g := fun ms => Server.Builtin.put ms x) ha
        (Server.Builtin.change_eq · x)
      have hscript : Builtin.script (done ++ x :: todo) =
          done.map some ++ some x :: (todo.map some ++ [none, none]) := by
        simp [Builtin.script]
      refine .touched (touch?_of_script hp hset hnoted hscript) ?_
        (.changing rfl ⟨hk.hooks, hk.held⟩ hset' ?_) ⟨_, _, rfl⟩ ?_
      · rw [Touches.value_change]
        exact hedit
      · change noted (ts ++ [(k.serial, some x)]) k.serial = _
        rw [noted_append, hnoted, List.map_append]
        simp [noted]
      · simp [left, hp, Builtin.changing, Program.length]

theorem advances_looking {before mid : Touches} {s : Session}
    (hp : k.phase = .executing (.running
      (.touch id fun s' => .done (Builtin.sessionReport s s'.isStarted))) deadline a)
    (hk : k.Keeps c h.sessions a) (hset : k.set? = some set)
    (ht : ts = before ++ (k.serial, none) :: mid) (hb : noted before k.serial = set.map some)
    (hm : noted mid k.serial = []) (hi : s.id = c.session) (hattr : s.attributes = before.value)
    (hs : h.sessions.Shows c.session ts.value) (hn : h.inflight.isCancelled k.token = false)
    (hstep : k.step sv h p c = some (h', p', k')) : k.Advances c ts h' k' := by
  have ha : h.sessions.Has a := .inr ⟨_, hk.held⟩
  obtain ⟨t, hget⟩ := hs.get? ha
  obtain ⟨rfl, rfl⟩ := step_touch hp hn hget hstep
  have hedit := hs.edit (f := id) (g := id) ha fun _ => rfl
  have hnoted : noted ts k.serial = set.map some ++ [none] := by
    rw [ht, noted_append, hb, noted_look, hm]
  have hscript : Builtin.script set = (set.map some ++ [none]) ++ none :: [] := by
    simp [Builtin.script]
  refine .touched (touch?_of_script hp hset hnoted hscript) ?_ (.ending rfl ⟨hk.hooks, hk.held⟩
    ((comes_of_some hset).2 ⟨_, rfl, before, mid, [], ?_, hb, hm, rfl, ?_⟩)) ⟨_, _, rfl⟩ ?_
  · rw [Touches.value_look]
    exact hedit
  · simp [ht]
  · rw [Builtin.sessionReport, Builtin.report, hi, hattr, ht, Touches.value_append_look]
    rfl
  · simp [left, hp, Program.length, Program.done]

/-- Each step of a call of the route keeps the map: it follows its script, or leaves all as it is.
-/
theorem Stands.step (hk : k.Stands c h.sessions ts) (hr : k.handler = Server.Builtin.session)
    (hs : h.sessions.Shows c.session ts.value) (hf : h.sessions.failing = [])
    (ht : k.isFresh = true → h.sessions.store.Timely h.moment)
    (ho : k.isOpen = true → h.inflight.isCancelled k.token = false ∧
      ∀ t, k.ticket = some t → h.inflight.isClaimed t = false)
    (hstep : k.step sv h p c = some (h', p', k')) : k.Advances c ts h' k' := by
  cases hk with
  | fresh hp hc hl =>
      obtain ⟨hn, -⟩ := ho (by simp [isOpen, hp])
      simp only [Call.step, hp, hn] at hstep
      cases hstep
      exact advances_start hp hc hl hr hs hf (ht (by simp [isFresh, hp]))
  | changing hp hk hset hnoted =>
      exact advances_changing hp hk hset hnoted hs (ho (by simp [isOpen, hp])).1 hstep
  | looking hp hk hset hts hb hm hi ha =>
      exact advances_looking hp hk hset hts hb hm hi ha hs (ho (by simp [isOpen, hp])).1 hstep
  | @ending o deadline a hp hk hc =>
      obtain ⟨hn, hu⟩ := ho (by simp [isOpen, hp])
      obtain ⟨g, hg, he⟩ := conclude_of_unclaimed (c := c) h o hu
      simp only [Call.step, hp, hn, Activity.step, Activity.exec, he] at hstep
      cases hstep
      exact advances_concluded (by simp [touch?, hp]) (by simp [left, hp, Program.length]) hs hk hc hg
  | concluded hp hk hc =>
      simp only [Call.step, hp] at hstep
      cases hstep
      exact advances_settle hp hk hc hs hf
  | @replying t o hp ht hc =>
      have hw : k.touch? ts = none := by simp [touch?, hp]
      have hl : k.left = 0 := by simp only [left, hp]
      cases course_of_step hstep with
      | answered => exact .ended hw hs (.inl hl)
      | refused => exact .ended hw hs (.inl hl)
      | waiting => exact .on hw hs (.replying hp ht hc) ⟨k.phase, k.commit, rfl⟩ (by simp [hl])
      | abandoned hq | started hq | dropped hq | moved hq | ended hq | panicked hq | overdue hq
        | settled hq => cases hp.symm.trans hq

/-- A call waits for nobody before it has its answer to queue. -/
theorem Stands.goes (hk : k.Stands c m ts) (hl : k.left ≠ 0)
    (hn : k.isOpen = true → h.inflight.isCancelled k.token = false) :
    (k.step sv h p c).isSome = true := by
  cases hk with
  | fresh hp => simp [Call.step, hp, hn (by simp [isOpen, hp])]
  | @changing done todo _ _ hp =>
      cases todo <;> simp [Call.step, hp, hn (by simp [isOpen, hp]), Builtin.changing, Builtin.reporting,
        Activity.step, Activity.exec]
  | looking hp | ending hp =>
      simp [Call.step, hp, hn (by simp [isOpen, hp]), Activity.step, Activity.exec]
  | concluded hp => simp [Call.step, hp]
  | replying hp => simp [left, hp] at hl

theorem Stands.reply {y : Response} (hk : k.Stands c m ts)
    (hy : k.phase.stage = .replying (.response y)) :
    ∃ t o, k.ticket = some t ∧ y = ⟨t.id, o.mapError HandlerError.body⟩ ∧ k.Comes c.session ts o := by
  cases hk with
  | @replying t o hp ht ho =>
      rw [hp] at hy
      refine ⟨t, o, ht, ?_, ho⟩
      cases o <;> cases hy <;> rfl
  | fresh hp | changing hp | looking hp | ending hp | concluded hp =>
      rw [hp] at hy
      cases hy

end Parley.Dispatch.Call
