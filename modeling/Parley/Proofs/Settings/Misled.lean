import Parley.Proofs.Settings.Saved

namespace Parley.Settings

variable {env : Environment} {file : File} {s : Settings} {raw : String}

/-- `raw` is set for the path of the socket, and is no such path. -/
structure Environment.Misleads (env : Environment) (raw : String) : Prop where
  set : env "TETHER_WS_PATH" = some raw
  nonempty : raw ≠ ""
  relative : raw.toList.head? ≠ some '/'

theorem Environment.pick_of {α : Type} {P : α → Prop} {name : String} {parse : String → Option α}
    {x : α} (hx : P x) (hp : ∀ raw a, env name = some raw → parse raw = some a → P a) :
    P (env.pick name parse x) := by
  rw [pick]
  cases hn : env name with
  | none => exact hx
  | some raw =>
      rw [Option.bind_some]
      cases ha : parse raw with
      | none => exact hx
      | some a => exact hp raw a hn ha

theorem Environment.pick_ne_zero {name : String} {bits lo hi x : Nat} (hlo : 0 < lo) (hx : 0 < x) :
    env.pick name (within? bits lo hi) x ≠ 0 := by
  refine Environment.pick_of (P := (· ≠ 0)) (Nat.pos_iff_ne_zero.1 hx) fun raw n _ hn => ?_
  obtain ⟨ds, -, -, -, -, -, hle, -⟩ := within?_eq_some.1 hn
  exact Nat.pos_iff_ne_zero.1 (Nat.lt_of_lt_of_le hlo hle)

theorem Environment.Misleads.pick (h : env.Misleads raw) (x : String) :
    env.pick "TETHER_WS_PATH" nonempty? x = raw := by
  rw [Environment.pick, h.set, Option.bind_some, nonempty?_eq_some.2 ⟨h.nonempty, rfl⟩]
  rfl

theorem Environment.head?_pick {x : String} (h : ∀ raw, ¬env.Misleads raw)
    (hx : x.toList.head? = some '/') :
    (env.pick "TETHER_WS_PATH" nonempty? x).toList.head? = some '/' := by
  refine Environment.pick_of (P := fun x : String => x.toList.head? = some '/') hx
    fun raw path hset hpath => ?_
  obtain ⟨hne, rfl⟩ := nonempty?_eq_some.1 hpath
  exact Decidable.not_not.1 fun hrel => h path ⟨hset, hne, hrel⟩

theorem Valid.fault?_override (h : s.Valid) (env : Environment) : (override env s).fault? =
    if (env.pick "TETHER_WS_PATH" nonempty? s.server.websocketPath).toList.head? ≠ some '/' then
      some (.relativePath (env.pick "TETHER_WS_PATH" nonempty? s.server.websocketPath))
    else none := by
  have hheader : ¬s.rpc.maxHeaderBytes < leastHeaderBytes := Nat.not_lt.2 h.header
  have hframe : env.pick "TETHER_MAX_FRAME_BYTES" (within? 64 1024 1073741824)
      s.rpc.maxFrameBytes ≠ 0 := Environment.pick_ne_zero (by decide) h.frame
  have hqueues : ¬(s.rpc.outboundQueue = 0 ∨ s.rpc.inboundQueue = 0) :=
    not_or.2 ⟨Nat.pos_iff_ne_zero.1 h.outbound, Nat.pos_iff_ne_zero.1 h.inbound⟩
  have hconnections : env.pick "TETHER_MAX_CONNECTIONS" (within? 64 1 100000)
      s.server.maxConnections ≠ 0 := Environment.pick_ne_zero (by decide) h.connections
  rw [override_eq, fault?]
  exact (if_neg hheader).trans <| (if_neg hframe).trans <| (if_neg hqueues).trans <|
    if_neg hconnections

theorem load_over (h : load file (fun _ => none) = .ok s) (env : Environment) :
    s.Valid ∧ load file env = check (override env s) := by
  rw [load] at h ⊢
  cases hm : merged file with
  | error e => rw [hm] at h; cases h
  | ok v =>
      rw [hm] at h
      simp only [bind, Except.bind] at h ⊢
      cases hv : ofJson? v with
      | none => rw [hv] at h; cases h
      | some base =>
          rw [hv] at h
          simp only [override_empty, check] at h
          cases hf : base.fault? with
          | some f => rw [hf] at h; cases h
          | none =>
              rw [hf] at h
              cases h
              exact ⟨fault?_eq_none.1 hf, rfl⟩

/-- Settings that load without an environment load under any other, except where it sets a path
that does not begin with a slash: this is not passed over, and nothing is loaded. -/
theorem load_under (h : load file (fun _ => none) = .ok s) (env : Environment) :
    ((∀ raw, ¬env.Misleads raw) → load file env = .ok (override env s)) ∧
      ∀ raw, env.Misleads raw → load file env = .error (.invalid (.relativePath raw)) := by
  obtain ⟨hvalid, hload⟩ := load_over h env
  rw [hload, check, hvalid.fault?_override]
  refine ⟨fun hnone => ?_, fun raw hraw => ?_⟩
  · obtain ⟨rest, hrest⟩ := hvalid.path
    have hpath := Environment.head?_pick hnone (List.head?_eq_some_iff.2 ⟨rest, hrest⟩)
    rw [if_neg (Decidable.not_not.2 hpath)]
  · rw [hraw.pick, if_pos hraw.relative]

def Environment.withPath (path : String) : Environment := fun name =>
  if name = "TETHER_WS_PATH" then some path else none

theorem load_missing (env : Environment) : load .missing env = check (override env {}) := by
  have hd : ofJson? (toJson {}) = some {} := by decide
  simp only [load, merged, bind, Except.bind, hd]

theorem load_under_of_missing :
    load .missing (fun _ => none) = .ok {} ∧
    load .missing (.withPath "/chat") = .ok { server := { websocketPath := "/chat" } } ∧
    load .missing (.withPath "chat") = .error (.invalid (.relativePath "chat")) := by
  have h : load .missing (fun _ => none) = .ok {} := by
    rw [load_missing, override_empty]
    rfl
  refine ⟨h, ?_, (load_under h _).2 "chat" ⟨rfl, by decide, by decide⟩⟩
  rw [(load_under h _).1 ?_]
  · rw [override_eq]
    rfl
  · rintro raw ⟨hset, -, hrel⟩
    cases hset
    exact hrel (by decide)

theorem load_missing_of_relative : load .missing (fun _ => none) = .ok {} ∧
    load .missing (.withPath "ws") = .error (.invalid (.relativePath "ws")) := by
  rw [load_missing, load_missing, override_empty, override_eq]
  exact ⟨rfl, rfl⟩

end Parley.Settings
