import Parley.Proofs.Settings.Variable
import Parley.Proofs.Text.Utf8
import Parley.Settings.Load

namespace Parley.Settings

open Json (Members Ascending fieldOr)

variable {j v : Json} {s : Settings} {env : Environment}

def File.layer? : File → Option Json
  | .missing => some (.obj [])
  | .unreadable => none
  | .contents bytes => do
    let cs ← Utf8.decode? bytes
    let t ← Json.Term.read? (cs.map .char)
    t.toJson? Json.maxDepth

/-- The fields that no variable can set. Among the levels of modules, those that are null are left
out. -/
def fixed : List Field := [
  ⟨_, "rpc", "outboundQueue", (·.rpc.outboundQueue), word?⟩,
  ⟨_, "rpc", "inboundQueue", (·.rpc.inboundQueue), word?⟩,
  ⟨_, "rpc", "maxHeaderBytes", (·.rpc.maxHeaderBytes), word?⟩,
  ⟨_, "logging", "modules", (·.logging.modules), fun j => modules? (overlay (.obj []) j)⟩]

structure Valid (s : Settings) : Prop where
  header : 64 ≤ s.rpc.maxHeaderBytes
  frame : 0 < s.rpc.maxFrameBytes
  outbound : 0 < s.rpc.outboundQueue
  inbound : 0 < s.rpc.inboundQueue
  connections : 0 < s.server.maxConnections
  path : ∃ rest, s.server.websocketPath.toList = '/' :: rest

theorem fault?_eq_none {s : Settings} : s.fault? = none ↔ s.Valid := by
  have hp (cs : List Char) : (∃ rest, cs = '/' :: rest) ↔ ¬cs.head? ≠ some '/' := by
    simp [List.head?_eq_some_iff]
  constructor
  · intro h
    unfold fault? leastHeaderBytes at h
    by_cases h1 : s.rpc.maxHeaderBytes < 64
    · simp [h1] at h
    rw [if_neg h1] at h
    by_cases h2 : s.rpc.maxFrameBytes = 0
    · simp [h2] at h
    rw [if_neg h2] at h
    by_cases h3 : s.rpc.outboundQueue = 0 ∨ s.rpc.inboundQueue = 0
    · simp [h3] at h
    rw [if_neg h3] at h
    by_cases h4 : s.server.maxConnections = 0
    · simp [h4] at h
    rw [if_neg h4] at h
    by_cases h5 : s.server.websocketPath.toList.head? ≠ some '/'
    · simp [h5] at h
    exact ⟨by omega, by omega, by omega, by omega, by omega, (hp _).2 h5⟩
  · rintro ⟨h1, h2, h3, h4, h5, h6⟩
    rw [fault?, leastHeaderBytes, if_neg (by omega), if_neg (by omega), if_neg (by omega),
      if_neg (by omega), if_neg ((hp _).1 h6)]

theorem Server.fields {x : Server} (h : Server.ofJson? j = some x) :
    fieldOr ({} : Server).transport Transport.ofJson? (j.member? names "transport") =
      some x.transport ∧
    fieldOr ({} : Server).host Json.string? (j.member? names "host") = some x.host ∧
    fieldOr ({} : Server).port port? (j.member? names "port") = some x.port ∧
    fieldOr ({} : Server).websocketPath Json.string? (j.member? names "websocketPath") =
      some x.websocketPath ∧
    fieldOr ({} : Server).wsFrameHeaders Json.bool? (j.member? names "wsFrameHeaders") =
      some x.wsFrameHeaders ∧
    fieldOr ({} : Server).maxConnections word? (j.member? names "maxConnections") =
      some x.maxConnections ∧
    fieldOr ({} : Server).shutdownTimeoutSecs word? (j.member? names "shutdownTimeoutSecs") =
      some x.shutdownTimeoutSecs := by
  unfold ofJson? at h
  obtain ⟨vs, hvs, h⟩ := Option.bind_eq_some_iff.1 h
  split at h
  · simp only [Option.bind_eq_bind, Option.bind_eq_some_iff, Option.some.injEq] at h
    obtain ⟨a, ha, b, hb, c, hc, d, hd, e, he, f, hf, g, hg, rfl⟩ := h
    simp only [Json.member?, hvs]
    exact ⟨ha, hb, hc, hd, he, hf, hg⟩
  · cases h

theorem Rpc.fields {x : Rpc} (h : Rpc.ofJson? j = some x) :
    fieldOr ({} : Rpc).tieBreak Route.TieBreak.ofJson? (j.member? names "tieBreak") =
      some x.tieBreak ∧
    fieldOr ({} : Rpc).handlerTimeoutMs (Json.nullable word?)
      (j.member? names "handlerTimeoutMs") = some x.handlerTimeoutMs ∧
    fieldOr ({} : Rpc).requestTimeoutMs (Json.nullable word?)
      (j.member? names "requestTimeoutMs") = some x.requestTimeoutMs ∧
    fieldOr ({} : Rpc).outboundQueue word? (j.member? names "outboundQueue") =
      some x.outboundQueue ∧
    fieldOr ({} : Rpc).inboundQueue word? (j.member? names "inboundQueue") =
      some x.inboundQueue ∧
    fieldOr ({} : Rpc).maxFrameBytes word? (j.member? names "maxFrameBytes") =
      some x.maxFrameBytes ∧
    fieldOr ({} : Rpc).maxHeaderBytes word? (j.member? names "maxHeaderBytes") =
      some x.maxHeaderBytes := by
  unfold ofJson? at h
  obtain ⟨vs, hvs, h⟩ := Option.bind_eq_some_iff.1 h
  split at h
  · simp only [Option.bind_eq_bind, Option.bind_eq_some_iff, Option.some.injEq] at h
    obtain ⟨a, ha, b, hb, c, hc, d, hd, e, he, f, hf, g, hg, rfl⟩ := h
    simp only [Json.member?, hvs]
    exact ⟨ha, hb, hc, hd, he, hf, hg⟩
  · cases h

theorem Session.fields {x : Session} (h : Session.ofJson? j = some x) :
    fieldOr ({} : Session).maxIdleSecs word? (j.member? ["maxIdleSecs"] "maxIdleSecs") =
      some x.maxIdleSecs := by
  unfold ofJson? at h
  obtain ⟨vs, hvs, h⟩ := Option.bind_eq_some_iff.1 h
  split at h
  · simp only [Option.bind_eq_bind, Option.bind_eq_some_iff, Option.some.injEq] at h
    obtain ⟨a, ha, rfl⟩ := h
    simp only [Json.member?, hvs]
    exact ha
  · cases h

theorem Logging.fields {x : Logging} (h : Logging.ofJson? j = some x) :
    fieldOr ({} : Logging).level LogLevel.ofJson?
      (j.member? ["level", "format", "modules"] "level") = some x.level ∧
    fieldOr ({} : Logging).format LogFormat.ofJson?
      (j.member? ["level", "format", "modules"] "format") = some x.format ∧
    fieldOr ({} : Logging).modules modules?
      (j.member? ["level", "format", "modules"] "modules") = some x.modules := by
  unfold ofJson? at h
  obtain ⟨vs, hvs, h⟩ := Option.bind_eq_some_iff.1 h
  split at h
  · simp only [Option.bind_eq_bind, Option.bind_eq_some_iff, Option.some.injEq] at h
    obtain ⟨a, ha, b, hb, c, hc, rfl⟩ := h
    simp only [Json.member?, hvs]
    exact ⟨ha, hb, hc⟩
  · cases h

theorem fields (h : ofJson? j = some s) :
    fieldOr {} Server.ofJson? (j.member? parts "server") = some s.server ∧
    fieldOr {} Rpc.ofJson? (j.member? parts "rpc") = some s.rpc ∧
    fieldOr {} Session.ofJson? (j.member? parts "session") = some s.session ∧
    fieldOr {} Logging.ofJson? (j.member? parts "logging") = some s.logging := by
  unfold ofJson? at h
  obtain ⟨vs, hvs, h⟩ := Option.bind_eq_some_iff.1 h
  split at h
  · simp only [Option.bind_eq_bind, Option.bind_eq_some_iff, Option.some.injEq] at h
    obtain ⟨a, ha, b, hb, c, hc, d, hd, rfl⟩ := h
    simp only [Json.member?, parts, hvs]
    exact ⟨ha, hb, hc, hd⟩
  · cases h

def serverPart : Part Server where
  name := "server"
  get := server
  read := Server.ofJson?
  below := _
  mem := by decide
  lower := rfl
  default := by decide
  null := rfl
  member h := (fields h).1

def rpcPart : Part Rpc where
  name := "rpc"
  get := rpc
  read := Rpc.ofJson?
  below := _
  mem := by decide
  lower := rfl
  default := by decide
  null := rfl
  member h := (fields h).2.1

def sessionPart : Part Session where
  name := "session"
  get := session
  read := Session.ofJson?
  below := _
  mem := by decide
  lower := rfl
  default := by decide
  null := rfl
  member h := (fields h).2.2.1

def loggingPart : Part Logging where
  name := "logging"
  get := logging
  read := Logging.ofJson?
  below := _
  mem := by decide
  lower := rfl
  default := by decide
  null := rfl
  member h := (fields h).2.2.2

theorem Part.fromFile_plain {α β : Type} (P : Part α) {key : String} (field : α → β)
    {read : Json → Option β} (hk : key ∈ keys P.name)
    (hraw : ∀ {j p}, P.read j = some p →
      fieldOr (field (P.get {})) read (j.member? (keys P.name) key) = some (field p))
    (hnull : ∀ x, read .null = some x → x = field (P.get {}))
    (hb : (P.below.lookup key).all fun e => (e.fields? []).isNone)
    (hv : v.Orderly) (h : ofJson? (overlay (toJson {}) v) = some s) :
    Field.FromFile ⟨β, P.name, key, fun s => field (P.get s), read⟩ v (field (P.get s)) := by
  refine P.fromFile field hk hraw hnull ?_ hv h
  rintro u x ⟨-, hr | ⟨e, he, hr⟩⟩
  · exact hr
  · rw [overlay_over] at hr
    · exact hr
    · rintro ms rfl
      rw [he] at hb
      cases hb

theorem variables_fromFile (hv : v.Orderly) (h : ofJson? (overlay (toJson {}) v) = some s) :
    ∀ f ∈ everyVariable, f.FromFile v (f.get s) := by
  have open? (x : Option Nat) (h : Json.nullable word? .null = some x) : x = none := by
    cases h
    rfl
  simp only [everyVariable, List.forall_mem_cons, List.not_mem_nil, false_imp_iff, implies_true,
    and_true]
  exact ⟨
    serverPart.fromFile_plain (·.transport) (by decide) (fun h => (Server.fields h).1)
      (fun _ h => by cases h) (by decide) hv h,
    serverPart.fromFile_plain (·.host) (by decide) (fun h => (Server.fields h).2.1)
      (fun _ h => by cases h) (by decide) hv h,
    serverPart.fromFile_plain (·.port) (by decide) (fun h => (Server.fields h).2.2.1)
      (fun _ h => by cases h) (by decide) hv h,
    serverPart.fromFile_plain (·.websocketPath) (by decide) (fun h => (Server.fields h).2.2.2.1)
      (fun _ h => by cases h) (by decide) hv h,
    serverPart.fromFile_plain (·.wsFrameHeaders) (by decide)
      (fun h => (Server.fields h).2.2.2.2.1) (fun _ h => by cases h) (by decide) hv h,
    serverPart.fromFile_plain (·.maxConnections) (by decide)
      (fun h => (Server.fields h).2.2.2.2.2.1) (fun _ h => by cases h) (by decide) hv h,
    serverPart.fromFile_plain (·.shutdownTimeoutSecs) (by decide)
      (fun h => (Server.fields h).2.2.2.2.2.2) (fun _ h => by cases h) (by decide) hv h,
    rpcPart.fromFile_plain (·.tieBreak) (by decide) (fun h => (Rpc.fields h).1)
      (fun _ h => by cases h) (by decide) hv h,
    rpcPart.fromFile_plain (·.handlerTimeoutMs) (by decide) (fun h => (Rpc.fields h).2.1)
      open? (by decide) hv h,
    rpcPart.fromFile_plain (·.requestTimeoutMs) (by decide) (fun h => (Rpc.fields h).2.2.1)
      open? (by decide) hv h,
    rpcPart.fromFile_plain (·.maxFrameBytes) (by decide) (fun h => (Rpc.fields h).2.2.2.2.2.1)
      (fun _ h => by cases h) (by decide) hv h,
    sessionPart.fromFile_plain (·.maxIdleSecs) (by decide) (fun h => Session.fields h)
      (fun _ h => by cases h) (by decide) hv h,
    loggingPart.fromFile_plain (·.level) (by decide) (fun h => (Logging.fields h).1)
      (fun _ h => by cases h) (by decide) hv h,
    loggingPart.fromFile_plain (·.format) (by decide) (fun h => (Logging.fields h).2.1)
      (fun _ h => by cases h) (by decide) hv h⟩

theorem ne_null_of_modules? {ms : Members} {x : List (String × LogLevel)}
    (h : modules? (.obj ms) = some x) : ∀ m ∈ ms, m.2 ≠ .null := by
  have hf : ∀ {x}, (ms.mapM fun m => (LogLevel.ofJson? m.2).map (m.1, ·)) = some x →
      ∀ m ∈ ms, m.2 ≠ .null := by
    clear h
    induction ms with
    | nil => simp
    | cons m ms ih =>
        intro x h
        rw [List.mapM_cons] at h
        obtain ⟨y, hy, h⟩ := Option.bind_eq_some_iff.1 h
        obtain ⟨ys, hys, -⟩ := Option.bind_eq_some_iff.1 h
        refine List.forall_mem_cons.2 ⟨fun hm => ?_, ih hys⟩
        rw [hm] at hy
        cases hy
  exact hf h

/-- Levels that can be read are none of them null, so they stay as they are over nothing. -/
theorem modules?_overlay {u : Json} {x : List (String × LogLevel)} (hu : u.Orderly)
    (h : modules? u = some x) : modules? (overlay (.obj []) u) = some x := by
  cases u with
  | obj ms =>
      have hm : overlayMembers [] ms = [] ++ ms :=
        overlayMembers_append hu.ascending (ne_null_of_modules? h)
      rw [overlay_obj, hm, List.nil_append]
      exact h
  | _ => cases h

theorem fixed_fromFile (hv : v.Orderly) (h : ofJson? (overlay (toJson {}) v) = some s) :
    ∀ f ∈ fixed, f.FromFile v (f.get s) := by
  simp only [fixed, List.forall_mem_cons, List.not_mem_nil, false_imp_iff, implies_true, and_true]
  refine ⟨
    rpcPart.fromFile_plain (·.outboundQueue) (by decide) (fun h => (Rpc.fields h).2.2.2.1)
      nofun (by decide) hv h,
    rpcPart.fromFile_plain (·.inboundQueue) (by decide) (fun h => (Rpc.fields h).2.2.2.2.1)
      nofun (by decide) hv h,
    rpcPart.fromFile_plain (·.maxHeaderBytes) (by decide) (fun h => (Rpc.fields h).2.2.2.2.2.2)
      nofun (by decide) hv h,
    loggingPart.fromFile (·.modules) (by decide) (fun h => (Logging.fields h).2.2)
      nofun ?_ hv h⟩
  rintro u x ⟨hu, hr | ⟨e, he, hr⟩⟩
  · exact modules?_overlay hu hr
  · cases he
    exact hr

theorem File.orderly {file : File} (h : file.layer? = some v) : v.Orderly := by
  cases file with
  | missing =>
      cases h
      exact .obj .nil nofun
  | unreadable => cases h
  | contents bytes =>
      obtain ⟨cs, -, h⟩ := Option.bind_eq_some_iff.1 h
      obtain ⟨t, -, h⟩ := Option.bind_eq_some_iff.1 h
      exact t.orderly_of_toJson? h

theorem File.merged_eq {file : File} (h : file.layer? = some v) :
    merged file = .ok (overlay (toJson {}) v) := by
  cases file with
  | missing =>
      cases h
      rfl
  | unreadable => cases h
  | contents bytes =>
      obtain ⟨cs, hcs, h⟩ := Option.bind_eq_some_iff.1 h
      obtain ⟨t, ht, h⟩ := Option.bind_eq_some_iff.1 h
      rw [merged, hcs]
      simp only [ht, Option.bind_some, h]

theorem Variable.chosen {f : Variable} (hf : f ∈ everyVariable) (h : f.FromFile v (f.get s))
    (env : Environment) : f.Chosen env v (f.get (override env s)) := by
  obtain ⟨parse, hp⟩ := parsed_of_mem f hf
  rw [hp.pick, Environment.pick]
  cases he : env f.name with
  | none => exact .inr ⟨fun raw y hr => by simp [he] at hr, h⟩
  | some raw =>
      rw [Option.bind_some]
      cases hx : parse raw with
      | none =>
          refine .inr ⟨fun raw' y hr hm => ?_, h⟩
          rw [he] at hr
          cases hr
          rw [(hp.means raw y).2 hm] at hx
          cases hx
      | some x => exact .inl ⟨raw, he, (hp.means raw x).1 hx⟩

theorem fixed_override (env : Environment) (s : Settings) :
    ∀ f ∈ fixed, f.get (override env s) = f.get s := by
  rw [override_eq]
  simp only [fixed, List.forall_mem_cons, List.not_mem_nil, false_imp_iff, implies_true, and_true]

/-- Settings come from their variables, the file and the defaults, in this order, and are handed out
if they are fit to run with. A variable reaches its own field only. -/
theorem load_layers {file : File} {v : Json} {base : Settings} (hfile : file.layer? = some v)
    (hbase : ofJson? (overlay (toJson {}) v) = some base) :
    ∃ result : Environment → Settings,
      (∀ env, (∀ f ∈ everyVariable, f.Chosen env v (f.get (result env))) ∧
        (∀ f ∈ fixed, f.FromFile v (f.get (result env))) ∧
        (load file env = .ok (result env) ↔ (result env).Valid) ∧
        (¬(result env).Valid → ∃ fault, (result env).fault? = some fault ∧
          load file env = .error (.invalid fault))) ∧
      ∀ env env', ∀ f ∈ everyVariable, env f.name = env' f.name →
        f.get (result env) = f.get (result env') := by
  have hv := File.orderly hfile
  have hload (env : Environment) : load file env = check (override env base) := by
    rw [load, File.merged_eq hfile]
    simp only [bind, Except.bind, hbase]
  refine ⟨fun env => override env base, fun env => ⟨fun f hf => ?_, fun f hf => ?_, ?_, ?_⟩, ?_⟩
  · exact Variable.chosen hf (variables_fromFile hv hbase f hf) env
  · rw [fixed_override env base f hf]
    exact fixed_fromFile hv hbase f hf
  · rw [hload, check, ← fault?_eq_none]
    cases (override env base).fault? with
    | none => simp
    | some fault => simp
  · intro h
    rw [← fault?_eq_none] at h
    obtain ⟨fault, hf⟩ := Option.ne_none_iff_exists'.1 h
    exact ⟨fault, hf, by rw [hload, check, hf]⟩
  · intro env env' f hf he
    obtain ⟨parse, hp⟩ := parsed_of_mem f hf
    rw [hp.pick, hp.pick, Environment.pick, Environment.pick, he]

/-- Whole numbers and text, in a file as they are written, are what the file has. -/
theorem File.layer?_written (hp : v.Plain) (hd : v.depth ≤ Json.maxDepth) :
    (contents (Utf8.encode v.chars)).layer? = some v := by
  simp only [layer?, Utf8.decode?_encode, Option.bind_eq_bind, Option.bind_some, hp.reads.all,
    Json.Term.toJson?_ofJson hp hd]

theorem load_layers_of_port : ∃ result : Environment → Settings, ∀ env,
    let v := Json.obj [("server", .obj [("host", .null), ("port", .int 80)])]
    (∀ f ∈ everyVariable, f.Chosen env v (f.get (result env))) ∧
      (load (.contents (Utf8.encode v.chars)) env = .ok (result env) ↔ (result env).Valid) := by
  have hp : (Json.obj [("server", .obj [("host", .null), ("port", .int 80)])]).Plain := by
    refine .obj (List.pairwise_singleton _ _) (List.forall_mem_singleton.2 ?_)
    refine .obj (List.pairwise_pair.2 (by decide)) ?_
    simp only [List.forall_mem_cons, List.not_mem_nil, false_imp_iff, implies_true, and_true]
    exact ⟨.null, .int (by decide) (by decide)⟩
  have hfile := File.layer?_written hp (by decide)
  obtain ⟨result, h, -⟩ := load_layers hfile
    (show _ = some { server := { port := 80 } } by decide)
  exact ⟨result, fun env => ⟨(h env).1, (h env).2.2.1⟩⟩

end Parley.Settings
