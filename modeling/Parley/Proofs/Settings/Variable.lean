import Parley.Proofs.Settings.Field
import Parley.Settings.Load

namespace Parley.Settings

variable {env : Environment} {s : Settings} {v : Json}

structure Variable extends Field where
  name : String
  means : String → Value → Prop

/-- What a field is. A variable that is not set, or whose text stands for nothing, is passed over.
-/
def Variable.Chosen (f : Variable) (env : Environment) (file : Json) (x : f.Value) : Prop :=
  (∃ raw, env f.name = some raw ∧ f.means raw x) ∨
    (∀ raw y, env f.name = some raw → ¬f.means raw y) ∧ f.FromFile file x

def IsText (raw x : String) : Prop := raw ≠ "" ∧ x = raw

def IsDigit (c : Char) : Prop := '0' ≤ c ∧ c ≤ '9'

def value (n : Nat) (ds : List Char) : Nat := ds.foldl (fun n c => n * 10 + (c.toNat - 48)) n

def IsNumber (bits lo hi : Nat) (raw : String) (n : Nat) : Prop :=
  ∃ ds, (Text.trim raw.toList = ds ∨ Text.trim raw.toList = '+' :: ds) ∧ ds ≠ [] ∧
    (∀ c ∈ ds, IsDigit c) ∧ value 0 ds = n ∧ n < 2 ^ bits ∧ lo ≤ n ∧ n ≤ hi

def IsSwitch (raw : String) (b : Bool) : Prop :=
  String.ofList (Text.lower (Text.trim raw.toList)) ∈
    if b then ["true", "1", "yes", "on"] else ["false", "0", "no", "off"]

def IsName {α : Type} (name : α → String) (raw : String) (x : α) : Prop := raw = name x

def Sets {α : Type} (means : String → α → Prop) (raw : String) (x : Option α) : Prop :=
  ∃ a, x = some a ∧ means raw a

def everyVariable : List Variable := [
  ⟨⟨_, "server", "transport", (·.server.transport), Transport.ofJson?⟩,
    "TETHER_TRANSPORT", IsName Transport.name⟩,
  ⟨⟨_, "server", "host", (·.server.host), Json.string?⟩, "TETHER_HOST", IsText⟩,
  ⟨⟨_, "server", "port", (·.server.port), port?⟩, "TETHER_PORT", IsNumber 16 1 65535⟩,
  ⟨⟨_, "server", "websocketPath", (·.server.websocketPath), Json.string?⟩,
    "TETHER_WS_PATH", IsText⟩,
  ⟨⟨_, "server", "wsFrameHeaders", (·.server.wsFrameHeaders), Json.bool?⟩,
    "TETHER_WS_FRAME_HEADERS", IsSwitch⟩,
  ⟨⟨_, "server", "maxConnections", (·.server.maxConnections), word?⟩,
    "TETHER_MAX_CONNECTIONS", IsNumber 64 1 100000⟩,
  ⟨⟨_, "server", "shutdownTimeoutSecs", (·.server.shutdownTimeoutSecs), word?⟩,
    "TETHER_SHUTDOWN_TIMEOUT_SECS", IsNumber 64 0 600⟩,
  ⟨⟨_, "rpc", "tieBreak", (·.rpc.tieBreak), Route.TieBreak.ofJson?⟩,
    "TETHER_TIE_BREAK", IsName Route.TieBreak.name⟩,
  ⟨⟨_, "rpc", "handlerTimeoutMs", (·.rpc.handlerTimeoutMs), Json.nullable word?⟩,
    "TETHER_HANDLER_TIMEOUT_MS", Sets (IsNumber 64 1 86400000)⟩,
  ⟨⟨_, "rpc", "requestTimeoutMs", (·.rpc.requestTimeoutMs), Json.nullable word?⟩,
    "TETHER_REQUEST_TIMEOUT_MS", Sets (IsNumber 64 1 86400000)⟩,
  ⟨⟨_, "rpc", "maxFrameBytes", (·.rpc.maxFrameBytes), word?⟩,
    "TETHER_MAX_FRAME_BYTES", IsNumber 64 1024 1073741824⟩,
  ⟨⟨_, "session", "maxIdleSecs", (·.session.maxIdleSecs), word?⟩,
    "TETHER_SESSION_MAX_IDLE_SECS", IsNumber 64 1 604800⟩,
  ⟨⟨_, "logging", "level", (·.logging.level), LogLevel.ofJson?⟩,
    "TETHER_LOG_LEVEL", IsName LogLevel.name⟩,
  ⟨⟨_, "logging", "format", (·.logging.format), LogFormat.ofJson?⟩,
    "TETHER_LOG_FORMAT", IsName LogFormat.name⟩]

theorem digit?_eq_some {c : Char} {d : Nat} :
    Decimal.digit? c = some d ↔ IsDigit c ∧ d = c.toNat - 48 := by
  rw [Decimal.digit?]
  split
  · next h => simp [IsDigit, h, eq_comm]
  · next h => simpa [IsDigit] using fun h1 h2 => absurd ⟨h1, h2⟩ h

theorem readFrom?_eq_some {n k : Nat} {cs : List Char} :
    Decimal.readFrom? n cs = some k ↔ (∀ c ∈ cs, IsDigit c) ∧ value n cs = k := by
  induction cs generalizing n with
  | nil => simp [Decimal.readFrom?, value]
  | cons c cs ih =>
      simp only [Decimal.readFrom?, Option.bind_eq_some_iff, digit?_eq_some, ih, List.forall_mem_cons,
        value, List.foldl_cons]
      constructor
      · rintro ⟨d, ⟨hc, rfl⟩, hcs, hv⟩
        exact ⟨⟨hc, hcs⟩, hv⟩
      · rintro ⟨⟨hc, hcs⟩, hv⟩
        exact ⟨_, ⟨hc, rfl⟩, hcs, hv⟩

theorem read?_eq_some {k : Nat} {cs : List Char} :
    Decimal.read? cs = some k ↔ cs ≠ [] ∧ (∀ c ∈ cs, IsDigit c) ∧ value 0 cs = k := by
  cases cs with
  | nil => simp [Decimal.read?]
  | cons c cs => simp [Decimal.read?, readFrom?_eq_some]

theorem not_isDigit_plus : ¬IsDigit '+' := by
  rw [IsDigit]
  decide

theorem unsigned?_eq_some {k : Nat} {cs : List Char} : Decimal.unsigned? cs = some k ↔
    ∃ ds, (cs = ds ∨ cs = '+' :: ds) ∧ ds ≠ [] ∧ (∀ c ∈ ds, IsDigit c) ∧ value 0 ds = k := by
  unfold Decimal.unsigned?
  split
  · next ds =>
    rw [read?_eq_some]
    constructor
    · exact fun h => ⟨ds, .inr rfl, h⟩
    · rintro ⟨ds', rfl | h, hne, hd, hv⟩
      · exact absurd (hd _ List.mem_cons_self) not_isDigit_plus
      · obtain rfl := (List.cons.inj h).2
        exact ⟨hne, hd, hv⟩
  · next h =>
    rw [read?_eq_some]
    constructor
    · exact fun h => ⟨cs, .inl rfl, h⟩
    · rintro ⟨ds, rfl | rfl, h'⟩
      · exact h'
      · exact absurd rfl (h ds)

theorem within?_eq_some {bits lo hi n : Nat} {raw : String} :
    within? bits lo hi raw = some n ↔ IsNumber bits lo hi raw n := by
  have hs : span bits = 2 ^ bits := rfl
  simp only [within?, bounded?, IntKind.read?, Option.map_eq_some_iff, Option.bind_eq_some_iff,
    unsigned?_eq_some, hs, IsNumber]
  constructor
  · rintro ⟨m, ⟨k, ⟨u, ⟨ds, hds, hne, hd, rfl⟩, hw⟩, hr⟩, rfl⟩
    split at hw
    · cases hw
      split at hr
      · cases hr
        exact ⟨ds, hds, hne, hd, rfl, by omega, by omega, by omega⟩
      · cases hr
    · cases hw
  · rintro ⟨ds, hds, hne, hd, rfl, hw, hlo, hhi⟩
    refine ⟨_, ⟨_, ⟨_, ⟨ds, hds, hne, hd, rfl⟩, if_pos hw⟩, if_pos ⟨?_, ?_⟩⟩, rfl⟩
    · exact Int.ofNat_le.2 hlo
    · exact Int.ofNat_le.2 hhi

theorem nonempty?_eq_some {raw x : String} : nonempty? raw = some x ↔ IsText raw x := by
  rw [nonempty?, IsText]
  split
  · next h => simp [String.isEmpty_iff.1 h]
  · next h =>
    have hne : raw ≠ "" := fun he => h (String.isEmpty_iff.2 he)
    simp [hne, eq_comm]

theorem not_off_of_on {s : String} (h : s ∈ switchOn) : s ∉ switchOff := by
  simp only [switchOn, List.mem_cons, List.not_mem_nil, or_false] at h
  rcases h with rfl | rfl | rfl | rfl <;> decide

theorem switch?_eq_some {raw : String} {b : Bool} : switch? raw = some b ↔ IsSwitch raw b := by
  have hs (s : String) : (s ∈ if b then ["true", "1", "yes", "on"] else ["false", "0", "no", "off"])
      ↔ if b then s ∈ switchOn else s ∈ switchOff := by cases b <;> rfl
  rw [switch?, IsSwitch, hs]
  generalize String.ofList (Text.lower (Text.trim raw.toList)) = s
  by_cases on : s ∈ switchOn
  · have off := not_off_of_on on
    cases b <;> simp [on, off]
  · by_cases off : s ∈ switchOff <;> cases b <;> simp [on, off]

theorem named?_eq_some {α : Type} {all : List α} {name : α → String} {raw : String} {x : α}
    (hall : ∀ a, a ∈ all) (hname : ∀ a b, name a = name b → a = b) :
    named? all name raw = some x ↔ IsName name raw x := by
  rw [named?, IsName]
  constructor
  · intro h
    simpa [eq_comm] using List.find?_some h
  · rintro rfl
    cases h : all.find? fun a => name a = name x with
    | none => simpa using List.find?_eq_none.1 h x (hall x)
    | some a =>
        have ha : name a = name x := by simpa using List.find?_some h
        rw [hname a x ha]

def Environment.pick {α : Type} (env : Environment) (name : String) (parse : String → Option α)
    (x : α) : α :=
  ((env name).bind parse).getD x

theorem Override.apply_eq {α : Type} {name : String} {parse : String → Option α}
    {put : α → Settings → Settings} {x : α} (h : put x s = s) :
    Override.apply env s ⟨name, fun raw s => (parse raw).map fun v => put v s⟩ =
      put (env.pick name parse x) s := by
  unfold Override.apply Environment.pick
  simp only
  cases env name with
  | none => exact h.symm
  | some raw =>
      cases hp : parse raw with
      | none => simp [hp, h]
      | some v => simp [hp]

theorem override_eq (env : Environment) (s : Settings) : override env s = {
    server := {
      transport := env.pick "TETHER_TRANSPORT" (named? Transport.all Transport.name)
        s.server.transport
      host := env.pick "TETHER_HOST" nonempty? s.server.host
      port := env.pick "TETHER_PORT" (within? 16 1 65535) s.server.port
      websocketPath := env.pick "TETHER_WS_PATH" nonempty? s.server.websocketPath
      wsFrameHeaders := env.pick "TETHER_WS_FRAME_HEADERS" switch? s.server.wsFrameHeaders
      maxConnections := env.pick "TETHER_MAX_CONNECTIONS" (within? 64 1 100000)
        s.server.maxConnections
      shutdownTimeoutSecs := env.pick "TETHER_SHUTDOWN_TIMEOUT_SECS" (within? 64 0 600)
        s.server.shutdownTimeoutSecs }
    rpc := { s.rpc with
      tieBreak := env.pick "TETHER_TIE_BREAK" (named? Route.TieBreak.all Route.TieBreak.name)
        s.rpc.tieBreak
      handlerTimeoutMs := env.pick "TETHER_HANDLER_TIMEOUT_MS"
        (fun raw => (within? 64 1 day raw).map some) s.rpc.handlerTimeoutMs
      requestTimeoutMs := env.pick "TETHER_REQUEST_TIMEOUT_MS"
        (fun raw => (within? 64 1 day raw).map some) s.rpc.requestTimeoutMs
      maxFrameBytes := env.pick "TETHER_MAX_FRAME_BYTES" (within? 64 1024 1073741824)
        s.rpc.maxFrameBytes }
    session := {
      maxIdleSecs := env.pick "TETHER_SESSION_MAX_IDLE_SECS" (within? 64 1 604800)
        s.session.maxIdleSecs }
    logging := { s.logging with
      level := env.pick "TETHER_LOG_LEVEL" (named? LogLevel.all LogLevel.name) s.logging.level
      format := env.pick "TETHER_LOG_FORMAT" (named? LogFormat.all LogFormat.name)
        s.logging.format } } := by
  have hsome (n : String) (bits lo hi : Nat) (put : Option Nat → Settings → Settings)
      (x : Option Nat) (s : Settings) (h : put x s = s) :
      Override.apply env s ⟨n, fun raw s => (within? bits lo hi raw).map fun v => put (some v) s⟩ =
        put (env.pick n (fun raw => (within? bits lo hi raw).map some) x) s := by
    rw [← Override.apply_eq h]
    simp only [Option.map_map]
    rfl
  rw [override, overrides]
  iterate 8
    rw [List.foldl_cons, Override.apply_eq rfl]
    dsimp only
  rw [List.foldl_cons, hsome _ _ _ _
    (fun x s => { s with rpc := { s.rpc with handlerTimeoutMs := x } }) _ _ rfl]
  dsimp only
  rw [List.foldl_cons, hsome _ _ _ _
    (fun x s => { s with rpc := { s.rpc with requestTimeoutMs := x } }) _ _ rfl]
  dsimp only
  iterate 4
    rw [List.foldl_cons, Override.apply_eq rfl]
    dsimp only
  rfl

structure Variable.Parsed (f : Variable) (parse : String → Option f.Value) : Prop where
  means : ∀ raw x, parse raw = some x ↔ f.means raw x
  pick : ∀ env s, f.get (override env s) = env.pick f.name parse (f.get s)

theorem within?_some {bits lo hi : Nat} {raw : String} {x : Option Nat} :
    (within? bits lo hi raw).map some = some x ↔ Sets (IsNumber bits lo hi) raw x := by
  simp only [Option.map_eq_some_iff, within?_eq_some, Sets]
  exact exists_congr fun a => ⟨fun h => ⟨h.2.symm, h.1⟩, fun h => ⟨h.2, h.1.symm⟩⟩

theorem Transport.name_inj : ∀ a b : Transport, a.name = b.name → a = b := by
  intro a b
  cases a <;> cases b <;> decide

theorem TieBreak.name_inj : ∀ a b : Route.TieBreak, a.name = b.name → a = b := by
  intro a b
  cases a <;> cases b <;> decide

theorem LogLevel.name_inj : ∀ a b : LogLevel, a.name = b.name → a = b := by
  intro a b
  cases a <;> cases b <;> decide

theorem LogFormat.name_inj : ∀ a b : LogFormat, a.name = b.name → a = b := by
  intro a b
  cases a <;> cases b <;> decide

theorem parsed_of_mem : ∀ f ∈ everyVariable, ∃ parse, f.Parsed parse := by
  have transport (a : Transport) : a ∈ Transport.all := by cases a <;> decide
  have tieBreak (a : Route.TieBreak) : a ∈ Route.TieBreak.all := by cases a <;> decide
  have level (a : LogLevel) : a ∈ LogLevel.all := by cases a <;> decide
  have format (a : LogFormat) : a ∈ LogFormat.all := by cases a <;> decide
  simp only [everyVariable, List.forall_mem_cons, List.not_mem_nil, false_imp_iff, implies_true,
    and_true]
  refine ⟨⟨_, fun _ _ => named?_eq_some transport Transport.name_inj, fun env s => ?_⟩,
    ⟨_, fun _ _ => nonempty?_eq_some, fun env s => ?_⟩,
    ⟨_, fun _ _ => within?_eq_some, fun env s => ?_⟩,
    ⟨_, fun _ _ => nonempty?_eq_some, fun env s => ?_⟩,
    ⟨_, fun _ _ => switch?_eq_some, fun env s => ?_⟩,
    ⟨_, fun _ _ => within?_eq_some, fun env s => ?_⟩,
    ⟨_, fun _ _ => within?_eq_some, fun env s => ?_⟩,
    ⟨_, fun _ _ => named?_eq_some tieBreak TieBreak.name_inj, fun env s => ?_⟩,
    ⟨_, fun _ _ => within?_some, fun env s => ?_⟩,
    ⟨_, fun _ _ => within?_some, fun env s => ?_⟩,
    ⟨_, fun _ _ => within?_eq_some, fun env s => ?_⟩,
    ⟨_, fun _ _ => within?_eq_some, fun env s => ?_⟩,
    ⟨_, fun _ _ => named?_eq_some level LogLevel.name_inj, fun env s => ?_⟩,
    ⟨_, fun _ _ => named?_eq_some format LogFormat.name_inj, fun env s => ?_⟩⟩ <;>
    rw [override_eq] <;> rfl

end Parley.Settings
