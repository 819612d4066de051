import Mathlib.Data.List.Nodup
import Parley.Proofs.Server.Run

namespace Parley.Server

variable {n : Nat} {s s₀ s' u : Server} {es es₁ es₂ : List Event} {e : Event} {c : ConnectionId}
  {cs : List ConnectionId}

/-- What the history tells about the server. -/
structure Kept (n : Nat) (es : List Event) (s : Server) : Prop where
  limit : s.limit = n
  sound : s.dispatcher.Sound
  draining : s.draining = true ↔ Begun es
  once : (came es).Nodup ∧ (gone es).Nodup
  known : ∀ c ∈ came es, s.dispatcher.link? c ≠ none
  closed : ∀ c ∈ gone es, c ∈ came es ∧ s.dispatcher.isClosed c = true
  attached : s.attached = (came es).filter (· ∉ gone es)
  balance : s.attached.length + s.free = n

theorem came_append (es es' : List Event) : came (es ++ es') = came es ++ came es' :=
  List.filterMap_append

theorem gone_append (es es' : List Event) : gone (es ++ es') = gone es ++ gone es' :=
  List.filterMap_append

theorem begun_append (es es' : List Event) : Begun (es ++ es') ↔ Begun es ∨ Begun es' := by
  simp only [Begun, List.mem_append]
  tauto

theorem Kept.mem_attached (h : Kept n es s) : c ∈ s.attached ↔ c ∈ came es ∧ c ∉ gone es := by
  rw [h.attached, List.mem_filter, decide_eq_true_eq]

theorem Kept.start (h : Opened n s) : Kept n [] s := by
  obtain ⟨service, sessions, hd⟩ := h.dispatcher
  have hn : s.attached = [] := h.attached
  refine ⟨h.limit, hd.sound (Dispatcher.sound_serving _ _), ?_, ⟨.nil, .nil⟩, nofun, nofun, hn, ?_⟩
  · simp [h.draining, Begun]
  · rw [hn, h.free, List.length_nil, Nat.zero_add]

theorem Kept.aside (h : Kept n es s) (hn : s.dispatcher.Onward s'.dispatcher)
    (hl : s'.limit = s.limit) (ha : s'.attached = s.attached) (hf : s'.free = s.free)
    (hc : came [e] = []) (hg : gone [e] = []) (hd : s'.draining = true ↔ Begun (es ++ [e])) :
    Kept n (es ++ [e]) s' := by
  have hce : came (es ++ [e]) = came es := by rw [came_append, hc, List.append_nil]
  have hge : gone (es ++ [e]) = gone es := by rw [gone_append, hg, List.append_nil]
  refine ⟨hl.trans h.limit, hn.sound h.sound, hd, ?_, ?_, ?_, ?_, ?_⟩
  · rw [hce, hge]
    exact h.once
  · rw [hce]
    exact fun c hm => hn.linked h.sound (h.known c hm)
  · rw [hce, hge]
    exact fun c hm => ⟨(h.closed c hm).1, hn.closed h.sound (h.closed c hm).2⟩
  · rw [hce, hge, ha, h.attached]
  · rw [ha, hf, h.balance]

theorem Kept.attach (h : Kept n es s) (hc : s.dispatcher.link? c = none)
    (hs : s.attach c = .ok s') : Kept n (es ++ [.attached c]) s' := by
  have hn := (Next.attach hc hs).onward
  obtain ⟨⟨hd, hf⟩, rfl⟩ := attach_eq_ok_iff.1 hs
  have hce : came (es ++ [.attached c]) = came es ++ [c] := came_append es [.attached c]
  have hge : gone (es ++ [.attached c]) = gone es :=
    (gone_append es [.attached c]).trans (List.append_nil _)
  have hnew : c ∉ came es := fun hm => h.known c hm hc
  have hstay : c ∉ gone es := fun hm => hnew (h.closed c hm).1
  refine ⟨h.limit, hn.sound h.sound, ?_, ?_, ?_, ?_, ?_, ?_⟩
  · rw [begun_append, ← h.draining]
    simp [Begun]
  · rw [hce, hge]
    exact ⟨List.nodup_append.2 ⟨h.once.1, List.nodup_singleton c, fun a ha b hb he =>
      hnew (List.mem_singleton.1 hb ▸ he ▸ ha)⟩, h.once.2⟩
  · rw [hce]
    intro a ha
    rcases List.mem_append.1 ha with ha | ha
    · exact hn.linked h.sound (h.known a ha)
    · obtain rfl := List.mem_singleton.1 ha
      change (s.dispatcher.attach a).link? a ≠ none
      rw [Dispatcher.link?_attach, hc, if_pos rfl]
      nofun
  · rw [hce, hge]
    exact fun a ha => ⟨List.mem_append_left _ (h.closed a ha).1,
      hn.closed h.sound (h.closed a ha).2⟩
  · rw [hce, hge, List.filter_append, ← h.attached]
    simp [hstay]
  · have := h.balance
    simp only [List.length_append, List.length_singleton]
    omega

theorem Kept.leave (h : Kept n es s) (hc : c ∈ s.leaving) :
    Kept n (es ++ [.left c]) (s.release c) := by
  obtain ⟨hm, hclosed⟩ := List.mem_filter.1 hc
  obtain ⟨hcame, hstay⟩ := h.mem_attached.1 hm
  have hce : came (es ++ [.left c]) = came es :=
    (came_append es [.left c]).trans (List.append_nil _)
  have hge : gone (es ++ [.left c]) = gone es ++ [c] := gone_append es [.left c]
  rw [release_eq hc]
  refine ⟨h.limit, h.sound, ?_, ?_, ?_, ?_, ?_, ?_⟩
  · rw [begun_append, ← h.draining]
    simp [Begun]
  · rw [hce, hge]
    exact ⟨h.once.1, List.nodup_append.2 ⟨h.once.2, List.nodup_singleton c, fun a ha b hb he =>
      hstay (List.mem_singleton.1 hb ▸ he ▸ ha)⟩⟩
  · rw [hce]
    exact h.known
  · rw [hce, hge]
    intro a ha
    rcases List.mem_append.1 ha with ha | ha
    · exact h.closed a ha
    · obtain rfl := List.mem_singleton.1 ha
      exact ⟨hcame, hclosed⟩
  · have hnd : s.attached.Nodup := h.attached ▸ h.once.1.filter _
    rw [hce, hge, hnd.erase_eq_filter, h.attached, List.filter_filter]
    refine List.filter_congr fun a _ => Bool.eq_iff_iff.2 ?_
    simp [and_comm]
  · have := h.balance
    have := List.length_erase_of_mem hm
    have := List.length_pos_of_mem hm
    simp only
    omega

theorem Kept.next (h : Kept n es s) (hn : Next s e s') : Kept n (es ++ [e]) s' := by
  have ho := hn.onward
  cases hn with
  | attach hc hs => exact h.attach hc hs
  | leave hc => exact h.leave hc
  | refuse =>
      refine h.aside ho rfl rfl rfl rfl rfl ?_
      rw [begun_append, ← h.draining]
      simp [Begun]
  | shutDown | drain =>
      refine h.aside ho rfl rfl rfl rfl rfl ?_
      rw [begun_append]
      simp [Begun, shutDown, drain, log]
  | inside =>
      refine h.aside ho rfl rfl rfl rfl rfl ?_
      rw [begun_append, ← h.draining]
      simp [Begun]

theorem Run.kept (h₀ : Opened n s₀) (h : Run s₀ es s) : Kept n es s := by
  induction h with
  | start => exact .start h₀
  | next _ hn ih => exact ih.next hn

theorem Run.came_of_begun (h₀ : Opened n s₀) (h : Run s₀ es s) (he : es = es₁ ++ es₂)
    (hb : Begun es₁) : came es₂ = [] := by
  induction h generalizing es₂ with
  | start =>
      obtain ⟨-, rfl⟩ := List.append_eq_nil_iff.1 he.symm
      rfl
  | @next es u v e h hn ih =>
      rcases List.eq_nil_or_concat es₂ with rfl | ⟨es₂, e', rfl⟩
      · rfl
      · rw [List.concat_eq_append, ← List.append_assoc] at he
        obtain ⟨rfl, hs⟩ := List.append_inj' he rfl
        obtain rfl := List.singleton_inj.1 hs
        rw [List.concat_eq_append, came_append, ih rfl]
        have hd : u.draining = true :=
          (h.kept h₀).draining.2 ((begun_append es₁ es₂).2 (.inl hb))
        cases hn with
        | attach _ hs =>
            obtain ⟨⟨hf, -⟩, -⟩ := attach_eq_ok_iff.1 hs
            rw [hd] at hf
            cases hf
        | _ => rfl

/-- A drain has seen closed all that it does not wait for any more. -/
theorem Waits.closed (hs : s.dispatcher.Sound) (h : Waits s u cs) :
    ∀ c ∈ s.attached, c ∈ cs ∨ u.dispatcher.isClosed c = true := by
  induction h with
  | begin => exact fun c hc => .inl hc
  | next h hn ih =>
      exact fun c hc => (ih c hc).imp_right (hn.onward.closed (h.onward.sound hs))
  | @seen u a cs h ha ih =>
      intro c hc
      by_cases he : c = a
      · exact .inr (he ▸ ha)
      · exact (ih c hc).imp_left (List.mem_erase_of_ne he).2

theorem Waits.work {tasks : List Dispatcher.Task} {d : Dispatcher} (h : Waits s u cs)
    (hw : tasks.foldlM Dispatcher.step u.dispatcher = some d) :
    Waits s { u with dispatcher := d } cs := by
  induction tasks generalizing u with
  | nil =>
      cases hw
      exact h
  | cons t tasks ih =>
      obtain ⟨d', hd, hw⟩ := Option.bind_eq_some_iff.1 hw
      exact ih (u := { u with dispatcher := d' }) (h.next (.inside (.step hd))) hw

theorem attach_eq_error_iff {r : Refusal} : s.attach c = .error r ↔
    s.draining = true ∧ r = .shuttingDown ∨
      s.draining = false ∧ s.free = 0 ∧ r = .atCapacity s.limit := by
  simp only [Server.attach, admits, bind, Except.bind, pure, Except.pure]
  cases s.draining with
  | true => simp [eq_comm]
  | false => by_cases hf : s.free = 0 <;> simp [hf, eq_comm]

theorem Run.leave {cs : List ConnectionId} (h : Run s₀ es s) (hcs : cs.Nodup)
    (hc : ∀ c ∈ cs, c ∈ s.leaving) : Run s₀ (es ++ cs.map .left) (cs.foldl release s) := by
  induction cs generalizing s es with
  | nil => rwa [List.map_nil, List.append_nil]
  | cons c cs ih =>
      obtain ⟨hl, hc⟩ := List.forall_mem_cons.1 hc
      obtain ⟨hn, hcs⟩ := List.nodup_cons.1 hcs
      have hr := ih (h.next (.leave hl)) hcs fun a ha => by
        obtain ⟨hm, hd⟩ := List.mem_filter.1 (hc a ha)
        rw [release_eq hl]
        have hne : a ≠ c := fun he => hn (he ▸ ha)
        exact List.mem_filter.2 ⟨(List.mem_erase_of_ne hne).2 hm, hd⟩
      rwa [List.append_assoc] at hr

theorem Run.releaseAll (h₀ : Opened n s₀) (h : Run s₀ es s) :
    Run s₀ (es ++ s.leaving.map .left) s.releaseAll := by
  have hk := h.kept h₀
  have hn : s.attached.Nodup := hk.attached ▸ hk.once.1.filter _
  exact h.leave (hn.filter _) fun _ h => h

/-- The places of a server are accounted for, over any history: those who have one are the
connections that have come and have not left, and each gives its place back once, after the cleanup.
Connections are refused if there is no place or the shutdown has begun, from when on none comes.
What a drain has waited for is closed, and stays so. -/
theorem places_balance (h₀ : Opened n s₀) (h : Run s₀ es s) :
    (s.attached = (came es).filter (· ∉ gone es) ∧ s.attached.length + s.free = n) ∧
    ((came es).Nodup ∧ (gone es).Nodup ∧
      (∀ c ∈ gone es, c ∈ came es ∧ s.dispatcher.isClosed c = true) ∧
      ∀ c ∈ s.attached, s.dispatcher.isClosed c = true → Next s (.left c) (s.release c)) ∧
    (∀ c, ((∃ s', s.attach c = .ok s') ↔ ¬Begun es ∧ 0 < s.free) ∧
      ∀ r s', Next s (.refused c r) s' → s' = s ∧
        (Begun es ∧ r = .shuttingDown ∨ ¬Begun es ∧ s.free = 0 ∧ r = .atCapacity n)) ∧
    (∀ es₁ es₂, es = es₁ ++ es₂ → Begun es₁ → came es₂ = []) ∧
    ∀ u, Waits s u [] → ∀ es' v, Run u es' v → v.isDrained s.attached = true := by
  have hk := h.kept h₀
  have hd : s.draining = false ↔ ¬Begun es := by
    rw [← hk.draining, Bool.not_eq_true]
  refine ⟨⟨hk.attached, hk.balance⟩, ⟨hk.once.1, hk.once.2, hk.closed, ?_⟩, fun c => ⟨?_, ?_⟩,
    fun es₁ es₂ => h.came_of_begun h₀, fun u hw es' v hv => ?_⟩
  · exact fun c hm hc => .leave (List.mem_filter.2 ⟨hm, hc⟩)
  · simp only [attach_eq_ok_iff, exists_and_left, exists_eq, and_true, hd]
  · intro r s' hn
    cases hn with
    | refuse hr =>
        rw [attach_eq_error_iff, hk.draining, hd, hk.limit] at hr
        exact ⟨rfl, hr⟩
  · refine List.all_eq_true.2 fun c hc => hv.onward.closed (hw.onward.sound hk.sound) ?_
    exact (hw.closed hk.sound c hc).resolve_left List.not_mem_nil

theorem places_balance_of_drained : ∃ s₀ s u : Server, Opened 1 s₀ ∧
    Run s₀ [.attached ⟨"a"⟩, .refused ⟨"b"⟩ (.atCapacity 1)] s ∧ Waits s u [] ∧
    s.attached.length + s.free = 1 ∧ (¬∃ s', s.attach ⟨"b"⟩ = .ok s') ∧
      u.isDrained s.attached = true := by
  let config : Config := { (default : Config) with maxConnections := 1 }
  let s₀ : Server := ofConfig config {}
  let s : Server := { s₀ with
    dispatcher := s₀.dispatcher.attach ⟨"a"⟩, attached := [⟨"a"⟩], free := 0 }
  let actors : List Dispatch.Actor :=
    .reader :: .requests :: .responses :: List.replicate 8 .supervisor ++ [.writer, .supervisor]
  let tasks := actors.map fun who => ((⟨"a"⟩, who) : Dispatcher.Task)
  have h₀ : Opened 1 s₀ := opened_ofConfig config {}
  have hrun : Run s₀ [.attached ⟨"a"⟩, .refused ⟨"b"⟩ (.atCapacity 1)] s :=
    .next (.next .start (.attach rfl rfl)) (.refuse rfl)
  have hwork : (tasks.foldlM Dispatcher.step s.drain.dispatcher).map (·.isClosed ⟨"a"⟩) =
      some true := by decide +kernel
  obtain ⟨d, hd, hclosed⟩ := Option.map_eq_some_iff.1 hwork
  have hwaits : Waits s { s.drain with dispatcher := d } [] :=
    .seen (Waits.work .begin hd) hclosed
  obtain ⟨⟨-, hbalance⟩, -, hattach, -, hdrain⟩ := places_balance h₀ hrun
  refine ⟨s₀, s, _, h₀, hrun, hwaits, hbalance, fun hs => ?_, hdrain _ hwaits [] _ .start⟩
  exact absurd ((hattach ⟨"b"⟩).1.1 hs).2 (Nat.lt_irrefl 0)

end Parley.Server
