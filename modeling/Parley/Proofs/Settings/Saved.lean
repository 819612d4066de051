import Parley.Proofs.Settings.Precedence

namespace Parley

namespace Json

variable {ms : Members} {k : String} {v : Json} {d : Nat}

theorem lookup_foldl_insert (acc : Members) (h : (ms.map (·.1)).Nodup) :
    (ms.foldl (fun acc m => insert m.1 m.2 acc) acc).lookup k =
      (ms.lookup k).or (acc.lookup k) := by
  induction ms generalizing acc with
  | nil => rfl
  | cons m ms ih =>
      obtain ⟨l, w⟩ := m
      obtain ⟨hl, hms⟩ := List.nodup_cons.1 h
      rw [List.foldl_cons, ih _ hms, lookup_insert, lookup_member]
      by_cases hk : k = l
      · subst hk
        have hn : ms.lookup k = none := lookup_eq_none fun m hm he =>
          hl (List.mem_map.2 ⟨m, hm, he.symm⟩)
        simp [hn]
      · simp [hk]

/-- Sorting members whose names differ does not change what stands under a name. -/
theorem lookup_sorted (h : (ms.map (·.1)).Nodup) : (sorted ms).lookup k = ms.lookup k := by
  rw [sorted, lookup_foldl_insert [] h]
  simp

namespace Term

/-- The members of an object are read in the order of their names, wherever they stand. -/
theorem toJson?_obj (h : ∀ m ∈ ms, m.2.Plain ∧ m.2.depth ≤ d) :
    toJson? (d + 1) (ofJson (.obj ms)) = some (Json.ofMembers ms) := by
  have hm := membersToJson?_ofMembers fun m hm => toJson?_ofJson (h m hm).1 (h m hm).2
  rw [ofJson, toJson?, if_neg (by omega), Nat.add_sub_cancel, hm, Option.map_some]

end Term

end Json

namespace Settings

open Json (Members Ascending Plain fieldOr)

variable {s : Settings}

/-- The numbers are ones of their fields' types, and the modules are a map. -/
structure Fits (s : Settings) : Prop where
  port : s.server.port < span 16
  connections : s.server.maxConnections < span 64
  shutdown : s.server.shutdownTimeoutSecs < span 64
  handler : ∀ n ∈ s.rpc.handlerTimeoutMs, n < span 64
  request : ∀ n ∈ s.rpc.requestTimeoutMs, n < span 64
  outbound : s.rpc.outboundQueue < span 64
  inbound : s.rpc.inboundQueue < span 64
  frame : s.rpc.maxFrameBytes < span 64
  header : s.rpc.maxHeaderBytes < span 64
  idle : s.session.maxIdleSecs < span 64
  modules : s.logging.modules.Pairwise fun m m' => m.1 < m'.1

def Written (v : Json) : Prop := v.Plain ∧ v.depth ≤ 1

theorem written_str (x : String) : Written (.str x) := ⟨.str x, Nat.zero_le 1⟩

theorem written_bool (b : Bool) : Written (.bool b) := ⟨.bool b, Nat.zero_le 1⟩

theorem written_nat {n : Nat} (h : n < span 64) : Written (.int n) := by
  have : (0 : Int) < span 63 := by decide
  exact ⟨.int (by omega) (by omega), Nat.zero_le 1⟩

theorem single_str (x : String) : Single (.str x) := ⟨Json.noConfusion, fun _ => Json.noConfusion⟩

theorem single_bool (b : Bool) : Single (.bool b) := ⟨Json.noConfusion, fun _ => Json.noConfusion⟩

theorem single_int (n : Int) : Single (.int n) := ⟨Json.noConfusion, fun _ => Json.noConfusion⟩

theorem Server.written_members (h : s.Fits) : ∀ m ∈ s.server.members, Written m.2 := by
  have hs : span 16 < span 64 := by decide
  have hp : s.server.port < span 64 := Nat.lt_trans h.port hs
  simp only [Server.members, List.forall_mem_cons, List.not_mem_nil, false_imp_iff, implies_true,
    and_true]
  exact ⟨written_str _, written_str _, written_nat hp, written_str _, written_bool _,
    written_nat h.connections, written_nat h.shutdown⟩

theorem Rpc.written_members (h : s.Fits) : ∀ m ∈ s.rpc.members, Written m.2 := by
  intro m hm
  simp only [Rpc.members, List.mem_append, List.mem_cons, List.not_mem_nil, or_false,
    Option.mem_toList, Option.map_eq_some_iff] at hm
  rcases hm with ((rfl | ⟨n, hn, rfl⟩) | ⟨n, hn, rfl⟩) | rfl | rfl | rfl | rfl
  · exact written_str _
  · exact written_nat (h.handler n hn)
  · exact written_nat (h.request n hn)
  · exact written_nat h.outbound
  · exact written_nat h.inbound
  · exact written_nat h.frame
  · exact written_nat h.header

theorem Session.written_members (h : s.Fits) : ∀ m ∈ s.session.members, Written m.2 :=
  List.forall_mem_singleton.2 (written_nat h.idle)

def Logging.levels (l : Logging) : Members := l.modules.map fun m => (m.1, .str m.2.name)

theorem Logging.ascending_levels (h : s.Fits) : Ascending s.logging.levels :=
  List.pairwise_map.2 h.modules

theorem Logging.members_eq (h : s.Fits) : s.logging.members =
    [("level", .str s.logging.level.name), ("format", .str s.logging.format.name),
      ("modules", .obj s.logging.levels)] := by
  have hl := Json.sorted_of_ascending (Logging.ascending_levels h)
  rw [Logging.members, Json.ofMembers]
  rw [Logging.levels] at hl ⊢
  rw [hl]

theorem Logging.written_members (h : s.Fits) : ∀ m ∈ s.logging.members, Written m.2 := by
  have hl : Written (.obj s.logging.levels) := by
    have hs : ∀ m ∈ s.logging.levels, m.2.Plain ∧ m.2.depth ≤ 0 := by
      intro m hm
      obtain ⟨x, -, rfl⟩ := List.mem_map.1 hm
      exact ⟨.str _, Nat.le_refl 0⟩
    exact ⟨.obj (Logging.ascending_levels h) fun m hm => (hs m hm).1,
      Json.depth_obj_le.2 fun m hm => (hs m hm).2⟩
  rw [Logging.members_eq h]
  simp only [List.forall_mem_cons, List.not_mem_nil, false_imp_iff, implies_true, and_true]
  exact ⟨written_str _, written_str _, hl⟩

theorem layer?_toFile (h : s.Fits) : (toFile s).layer? = some s.toJson := by
  have hr {ms : Members} (hm : ∀ m ∈ ms, Written m.2) : Json.Term.Reads (.obj ms) :=
    Json.Term.reads_obj fun m h => (hm m h).1.reads
  have hj {ms : Members} (hm : ∀ m ∈ ms, Written m.2) :
      Json.Term.toJson? 126 (.ofJson (.obj ms)) = some (Json.ofMembers ms) :=
    Json.Term.toJson?_obj fun m h => ⟨(hm m h).1, Nat.le_trans (hm m h).2 (by decide)⟩
  have hs := Server.written_members h
  have hp := Rpc.written_members h
  have hi := Session.written_members h
  have hl := Logging.written_members h
  have hw : Json.Term.Reads s.written := by
    apply Json.Term.reads_obj
    simp only [List.forall_mem_cons, List.not_mem_nil, false_imp_iff, implies_true, and_true]
    exact ⟨hr hs, hr hp, hr hi, hr hl⟩
  simp only [toFile, File.layer?, Utf8.decode?_encode, Option.bind_eq_bind, Option.bind_some,
    hw.all]
  change (Json.Term.membersToJson? 126 (Json.Term.ofMembers [_, _, _, _])).map Json.ofMembers = _
  simp only [Json.Term.ofMembers, Json.Term.membersToJson?, Json.Literal.text?_ofString, hj hs,
    hj hp, hj hi, hj hl]
  rfl

section Over

variable (below : Members) {layer : Members} {k : String} {v : Json}

theorem lookup_over (hn : (layer.map (·.1)).Nodup) (hk : layer.lookup k = some v) (hv : Single v) :
    (overlayMembers below (Json.sorted layer)).lookup k = some v := by
  rw [lookup_overlayMembers (Json.ascending_sorted _), Json.lookup_sorted hn, hk, laid_of_ne hv.1]
  cases below.lookup k with
  | none => rfl
  | some e => exact congrArg some (overlay_of_not_obj hv.2)

theorem lookup_under (hn : (layer.map (·.1)).Nodup) (hk : layer.lookup k = none) :
    (overlayMembers below (Json.sorted layer)).lookup k = below.lookup k := by
  rw [lookup_overlayMembers (Json.ascending_sorted _), Json.lookup_sorted hn, hk]
  rfl

theorem lookup_over_obj (base : Members) {m : Members} (hn : (layer.map (·.1)).Nodup)
    (hk : layer.lookup k = some (.obj m)) (hb : below.lookup k = some (.obj base)) :
    (overlayMembers below (Json.sorted layer)).lookup k = some (.obj (overlayMembers base m)) := by
  rw [lookup_overlayMembers (Json.ascending_sorted _), Json.lookup_sorted hn, hk, hb,
    laid_of_ne (by simp), ← overlay_obj]
  rfl

end Over

theorem Transport.ofJson?_name (t : Transport) : Transport.ofJson? (.str t.name) = some t := by
  cases t <;> rfl

theorem TieBreak.ofJson?_name (t : Route.TieBreak) :
    Route.TieBreak.ofJson? (.str t.name) = some t := by
  cases t <;> rfl

theorem LogLevel.ofJson?_name (l : LogLevel) : LogLevel.ofJson? (.str l.name) = some l := by
  cases l <;> rfl

theorem LogFormat.ofJson?_name (f : LogFormat) : LogFormat.ofJson? (.str f.name) = some f := by
  cases f <;> rfl

theorem below?_int {n bound : Nat} (h : n < bound) : Json.below? bound (.int n) = some n := if_pos h

theorem Server.ofJson?_over (h : s.Fits) :
    Server.ofJson? (overlay (Server.toJson {}) s.server.toJson) = some s.server := by
  have hn : (s.server.members.map (·.1)).Nodup := by
    change Server.names.Nodup
    decide
  have hl {k v} := lookup_over (Json.sorted (Server.members {})) (k := k) (v := v) hn
  rw [Server.toJson, Server.toJson, Json.ofMembers, Json.ofMembers, overlay_obj, Server.ofJson?,
    Json.fields?]
  simp only [Server.names, List.map_cons, List.map_nil, Option.bind_eq_bind, Option.bind_some]
  rw [hl (k := "transport") rfl (single_str _), hl (k := "host") rfl (single_str _),
    hl (k := "port") rfl (single_int _), hl (k := "websocketPath") rfl (single_str _),
    hl (k := "wsFrameHeaders") rfl (single_bool _), hl (k := "maxConnections") rfl (single_int _),
    hl (k := "shutdownTimeoutSecs") rfl (single_int _)]
  simp only [fieldOr, Transport.ofJson?_name, port?, word?, below?_int h.port,
    below?_int h.connections, below?_int h.shutdown, Json.string?, Json.bool?, Option.bind_some]

theorem Rpc.lookup_members (p : Rpc) :
    p.members.lookup "tieBreak" = some (.str p.tieBreak.name) ∧
    p.members.lookup "handlerTimeoutMs" = p.handlerTimeoutMs.map (fun n => .int n) ∧
    p.members.lookup "requestTimeoutMs" = p.requestTimeoutMs.map (fun n => .int n) ∧
    p.members.lookup "outboundQueue" = some (.int p.outboundQueue) ∧
    p.members.lookup "inboundQueue" = some (.int p.inboundQueue) ∧
    p.members.lookup "maxFrameBytes" = some (.int p.maxFrameBytes) ∧
    p.members.lookup "maxHeaderBytes" = some (.int p.maxHeaderBytes) := by
  rw [members]
  cases p.handlerTimeoutMs <;> cases p.requestTimeoutMs <;>
    exact ⟨rfl, rfl, rfl, rfl, rfl, rfl, rfl⟩

theorem Rpc.ofJson?_over (h : s.Fits) :
    Rpc.ofJson? (overlay (Rpc.toJson {}) s.rpc.toJson) = some s.rpc := by
  have hn : (s.rpc.members.map (·.1)).Nodup := by
    rw [Rpc.members]
    cases s.rpc.handlerTimeoutMs <;> cases s.rpc.requestTimeoutMs <;> simp
  obtain ⟨ht, hh, hr, ho, hi, hf, hb⟩ := Rpc.lookup_members s.rpc
  have hl {k v} := lookup_over (Json.sorted (Rpc.members {})) (k := k) (v := v) hn
  have hlimit {k : String} {o : Option Nat} (hb : (Json.sorted (Rpc.members {})).lookup k = none)
      (hk : s.rpc.members.lookup k = o.map (fun n => .int n)) (hw : ∀ n ∈ o, n < span 64) :
      fieldOr none (Json.nullable word?)
        ((overlayMembers (Json.sorted (Rpc.members {})) (Json.sorted s.rpc.members)).lookup k) =
          some o := by
    cases o with
    | none => rw [lookup_under _ hn hk, hb]; rfl
    | some n =>
        rw [hl hk (single_int _)]
        exact congrArg (Option.map some) (below?_int (hw n rfl))
  have hhandler := hlimit rfl hh h.handler
  have hrequest := hlimit rfl hr h.request
  rw [Rpc.toJson, Rpc.toJson, Json.ofMembers, Json.ofMembers, overlay_obj, Rpc.ofJson?,
    Json.fields?]
  simp only [Rpc.names, List.map_cons, List.map_nil, Option.bind_eq_bind, Option.bind_some]
  rw [hl ht (single_str _), hl ho (single_int _), hl hi (single_int _), hl hf (single_int _),
    hl hb (single_int _), hhandler, hrequest]
  simp only [fieldOr, TieBreak.ofJson?_name, word?, below?_int h.outbound, below?_int h.inbound,
    below?_int h.frame, below?_int h.header, Option.bind_some]

theorem Session.ofJson?_over (h : s.Fits) :
    Session.ofJson? (overlay (Session.toJson {}) s.session.toJson) = some s.session := by
  have hn : (s.session.members.map (·.1)).Nodup := by simp [Session.members]
  have hl := lookup_over (Json.sorted (Session.members {})) (k := "maxIdleSecs") hn rfl
    (single_int _)
  rw [Session.toJson, Session.toJson, Json.ofMembers, Json.ofMembers, overlay_obj, Session.ofJson?,
    Json.fields?]
  simp only [List.map_cons, List.map_nil, Option.bind_eq_bind, Option.bind_some, hl, fieldOr, word?,
    below?_int h.idle]

theorem Logging.modules?_levels (l : Logging) : modules? (.obj l.levels) = some l.modules := by
  rw [modules?, levels]
  induction l.modules with
  | nil => rfl
  | cons m ms ih =>
      simp only [List.map_cons, List.mapM_cons, LogLevel.ofJson?_name, Option.map_some, ih]
      rfl

theorem Logging.ofJson?_over (h : s.Fits) :
    Logging.ofJson? (overlay (Logging.toJson {}) s.logging.toJson) = some s.logging := by
  have hm := Logging.members_eq h
  have hn : (s.logging.members.map (·.1)).Nodup := by
    change ["level", "format", "modules"].Nodup
    decide
  have hl {k v} := lookup_over (Json.sorted (Logging.members {})) (k := k) (v := v) hn
  -- The defaults have no levels of modules, so those that are written are all there are.
  have hlevels : overlayMembers [] s.logging.levels = [] ++ s.logging.levels := by
    refine overlayMembers_append (Logging.ascending_levels h) fun m hm => ?_
    obtain ⟨x, -, rfl⟩ := List.mem_map.1 hm
    exact (single_str _).1
  have hmodules := lookup_over_obj (Json.sorted (Logging.members {})) [] (k := "modules") hn
    (by rw [hm]; rfl) rfl
  rw [hlevels, List.nil_append] at hmodules
  rw [Logging.toJson, Logging.toJson, Json.ofMembers, Json.ofMembers, overlay_obj, Logging.ofJson?,
    Json.fields?]
  simp only [List.map_cons, List.map_nil, Option.bind_eq_bind, Option.bind_some]
  rw [hl (k := "level") rfl (single_str _), hl (k := "format") rfl (single_str _), hmodules]
  simp only [fieldOr, LogLevel.ofJson?_name, LogFormat.ofJson?_name, Logging.modules?_levels,
    Option.bind_some]

theorem ofJson?_over (h : s.Fits) : ofJson? (overlay (toJson {}) s.toJson) = some s := by
  have hn : ([("server", s.server.toJson), ("rpc", s.rpc.toJson), ("session", s.session.toJson),
      ("logging", s.logging.toJson)].map (·.1)).Nodup := by
    change parts.Nodup
    decide
  have ho {k b m} := lookup_over_obj (Json.sorted [("server", Server.toJson {}),
    ("rpc", Rpc.toJson {}), ("session", Session.toJson {}), ("logging", Logging.toJson {})]) b
    (k := k) (m := m) hn
  have hserver := Server.ofJson?_over h
  have hrpc := Rpc.ofJson?_over h
  have hsession := Session.ofJson?_over h
  have hlogging := Logging.ofJson?_over h
  rw [Server.toJson, Server.toJson, Json.ofMembers, Json.ofMembers, overlay_obj] at hserver
  rw [Rpc.toJson, Rpc.toJson, Json.ofMembers, Json.ofMembers, overlay_obj] at hrpc
  rw [Session.toJson, Session.toJson, Json.ofMembers, Json.ofMembers, overlay_obj] at hsession
  rw [Logging.toJson, Logging.toJson, Json.ofMembers, Json.ofMembers, overlay_obj] at hlogging
  rw [toJson, toJson, Json.ofMembers, Json.ofMembers, overlay_obj, ofJson?, Json.fields?]
  simp only [List.map_cons, List.map_nil, Option.bind_eq_bind, Option.bind_some]
  rw [ho (k := "server") rfl rfl, ho (k := "rpc") rfl rfl, ho (k := "session") rfl rfl,
    ho (k := "logging") rfl rfl]
  simp only [fieldOr, hserver, hrpc, hsession, hlogging, Option.bind_some]

theorem override_empty (s : Settings) : override (fun _ => none) s = s := by
  rw [override_eq]
  rfl

/-- Settings that have been written to a file are loaded as they were, where no variable is set; and
so they are from any other file that holds them. -/
theorem load_saved (h : s.Fits) (hv : s.fault? = none) :
    load (toFile s) (fun _ => none) = .ok s ∧
      ∀ file : File, file.layer? = some s.toJson → load file (fun _ => none) = .ok s := by
  have hload {file : File} (hfile : file.layer? = some s.toJson) :
      load file (fun _ => none) = .ok s := by
    rw [load, File.merged_eq hfile]
    simp only [bind, Except.bind, ofJson?_over h, override_empty, check, hv]
  exact ⟨hload (layer?_toFile h), fun file => hload⟩

theorem load_saved_of_handlerTimeout :
    let s : Settings :=
      { server :=
          { transport := .websocket, host := "é\"\n", maxConnections := 18446744073709551615 }
        rpc := { handlerTimeoutMs := some 250 }
        logging := { level := .warn, modules := [("rpc::route", .trace), ("session", .error)] } }
    load (toFile s) (fun _ => none) = .ok s ∧
      ∀ file : File, file.layer? = some s.toJson → load file (fun _ => none) = .ok s := by
  refine load_saved ⟨?_, ?_, ?_, ?_, ?_, ?_, ?_, ?_, ?_, ?_, ?_⟩ (by decide) <;> decide

end Settings

end Parley
