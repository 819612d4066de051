import Parley.Proofs.Settings.Overlay
import Parley.Settings.Json

namespace Parley

namespace Json

variable {names : List String} {key : String} {v w : Json} {ms : Members}

def member? (names : List String) (key : String) (v : Json) : Option Json :=
  (v.fields? names).bind fun vs => ((names.zip vs).lookup key).join

def given? (names : List String) (key : String) (v : Json) : Option Json :=
  (v.member? names key).bind present?

theorem member?_obj (h : key ∈ names) : (obj ms).member? names key = ms.lookup key := by
  simp only [member?, fields?, Option.bind_some]
  induction names with
  | nil => cases h
  | cons name names ih =>
      rw [List.map_cons, List.zip_cons_cons, List.lookup_cons]
      by_cases hk : key = name
      · subst hk
        simp
      · rw [beq_eq_false_iff_ne.2 hk]
        exact ih ((List.mem_cons.1 h).resolve_left hk)

theorem given?_obj (h : key ∈ names) : (obj ms).given? names key = (ms.lookup key).bind present? := by
  rw [given?, member?_obj h]

theorem present?_of_ne (h : v ≠ .null) : v.present? = some v := by
  cases v with
  | null => exact absurd rfl h
  | _ => rfl

theorem orderly_of_member? {names : List String} {key : String} (hw : w.Orderly)
    (h : w.member? names key = some v) : v.Orderly := by
  obtain ⟨vs, hvs, h⟩ := Option.bind_eq_some_iff.1 h
  have hm : (key, some v) ∈ names.zip vs := by
    obtain ⟨before, after, hz, -⟩ := List.lookup_eq_some_iff.1 (Option.join_eq_some_iff.1 h)
    rw [hz]
    simp
  have hm := (List.of_mem_zip hm).2
  cases w with
  | obj ms =>
      cases hvs
      obtain ⟨name, -, hl⟩ := List.mem_map.1 hm
      exact hw.member (m := (name, v)) (mem_of_lookup hl)
  | arr items =>
      rw [fields?] at hvs
      split at hvs
      · cases hvs
        rcases List.mem_append.1 hm with hm | hm
        · obtain ⟨item, hi, he⟩ := List.mem_map.1 hm
          cases he
          exact hw.item hi
        · cases List.eq_of_mem_replicate hm
      · cases hvs
  | _ => cases hvs

end Json

namespace Settings

open Json (Members Ascending fieldOr)

variable {v w : Json} {s : Settings}

def parts : List String := ["server", "rpc", "session", "logging"]

def keys : String → List String
  | "server" => Server.names
  | "rpc" => Rpc.names
  | "session" => ["maxIdleSecs"]
  | _ => ["level", "format", "modules"]

structure Field where
  Value : Type
  part : String
  key : String
  get : Settings → Value
  /-- How a value is read that a file gives. -/
  read : Json → Option Value

def Field.given? (f : Field) (file : Json) : Option Json :=
  (file.given? parts f.part).bind (·.given? (keys f.part) f.key)

/-- What a field is without any variable: the value that the file gives, or the default. -/
def Field.FromFile (f : Field) (file : Json) (x : f.Value) : Prop :=
  match f.given? file with
  | some j => f.read j = some x
  | none => x = f.get {}

def Resolved {α : Type} (read : Json → Option α) (d : α) (below above : Option Json) (x : α) :
    Prop :=
  match above with
  | none => x = d
  | some u => u.Orderly ∧
      (read u = some x ∨ ∃ e, below = some e ∧ read (overlay e u) = some x)

section Record

variable {α : Type} {names : List String} {key : String} {read : Json → Option α} {d x : α}
  {below : Members}

theorem resolved_alone (hw : w.Orderly) (hn : ∀ z, read .null = some z → z = d)
    (h : fieldOr d read (w.member? names key) = some x) :
    Resolved read d (below.lookup key) (w.given? names key) x := by
  rw [Json.given?]
  cases hm : w.member? names key with
  | none =>
      rw [hm] at h
      exact (Option.some.inj h).symm
  | some u =>
      rw [hm] at h
      by_cases hu : u = .null
      · subst hu
        exact hn x h
      · rw [Option.bind_some, Json.present?_of_ne hu]
        exact ⟨Json.orderly_of_member? hw hm, .inl h⟩

theorem resolved_over {ms : Members} (hk : key ∈ names) (hw : (Json.obj ms).Orderly)
    (hd : fieldOr d read (below.lookup key) = some d)
    (h : fieldOr d read ((overlay (.obj below) (.obj ms)).member? names key) = some x) :
    Resolved read d (below.lookup key) ((Json.obj ms).given? names key) x := by
  rw [overlay_obj, Json.member?_obj hk, lookup_overlayMembers hw.ascending] at h
  rw [Json.given?_obj hk]
  cases hl : ms.lookup key with
  | none =>
      rw [hl] at h
      exact Option.some.inj (h.symm.trans hd)
  | some u =>
      rw [hl] at h
      by_cases hu : u = .null
      · subst hu
        exact Option.some.inj (h.symm.trans hd)
      · rw [laid_of_ne hu] at h
        rw [Option.bind_some, Json.present?_of_ne hu]
        refine ⟨hw.member (Json.mem_of_lookup hl), ?_⟩
        cases hb : below.lookup key with
        | none =>
            rw [hb] at h
            exact .inl h
        | some e =>
            rw [hb] at h
            exact .inr ⟨e, rfl, h⟩

/-- A record is read from a layer alone, or from the layer over another one that has the
defaults. -/
theorem resolved {j : Json} (hk : key ∈ names) (hw : w.Orderly)
    (hj : j = w ∨ j = overlay (.obj below) w) (hd : fieldOr d read (below.lookup key) = some d)
    (hn : ∀ z, read .null = some z → z = d)
    (h : fieldOr d read (j.member? names key) = some x) :
    Resolved read d (below.lookup key) (w.given? names key) x := by
  rcases hj with rfl | rfl
  · exact resolved_alone hw hn h
  · by_cases ho : ∃ ms, w = .obj ms
    · obtain ⟨ms, rfl⟩ := ho
      exact resolved_over hk hw hd h
    · rw [overlay_of_not_obj fun ms hm => ho ⟨ms, hm⟩] at h
      exact resolved_alone hw hn h

end Record

structure Part (α : Type) where
  name : String
  get : Settings → α
  read : Json → Option α
  below : Members
  mem : name ∈ parts
  lower : (toJson {}).member? parts name = some (.obj below)
  default : read (.obj below) = some (get {})
  null : read .null = none
  member : ∀ {j s}, ofJson? j = some s →
    fieldOr (get {}) read (j.member? parts name) = some (get s)

/-- Every field of a part is the one of the file or the default, whatever layer the part is in. -/
theorem Part.fromFile {α β : Type} (P : Part α) {key : String} (field : α → β)
    {raw read : Json → Option β} (hk : key ∈ keys P.name)
    (hraw : ∀ {j p}, P.read j = some p →
      fieldOr (field (P.get {})) raw (j.member? (keys P.name) key) = some (field p))
    (hnull : ∀ x, raw .null = some x → x = field (P.get {}))
    (hread : ∀ {u x}, Resolved raw (field (P.get {})) (P.below.lookup key) (some u) x →
      read u = some x)
    (hv : v.Orderly) (h : ofJson? (overlay (toJson {}) v) = some s) :
    Field.FromFile ⟨β, P.name, key, fun s => field (P.get s), read⟩ v (field (P.get s)) := by
  obtain ⟨below, hbelow⟩ : ∃ ms, toJson {} = .obj ms := ⟨_, rfl⟩
  have hlower : below.lookup P.name = some (.obj P.below) := by
    rw [← P.lower, hbelow, Json.member?_obj P.mem]
  have hpart : Resolved P.read (P.get {}) (some (.obj P.below)) (v.given? parts P.name) (P.get s) :=
    hlower ▸ resolved P.mem hv (.inr (hbelow ▸ rfl)) (by rw [hlower]; exact P.default)
      (by simp [P.null]) (P.member h)
  rw [Field.FromFile, Field.given?]
  cases hg : v.given? parts P.name with
  | none =>
      rw [hg] at hpart
      exact congrArg field hpart
  | some w =>
      rw [hg] at hpart
      obtain ⟨hw, hp⟩ := hpart
      have hj : ∃ j, (j = w ∨ j = overlay (.obj P.below) w) ∧ P.read j = some (P.get s) := by
        rcases hp with hp | ⟨e, he, hp⟩
        · exact ⟨w, .inl rfl, hp⟩
        · cases he
          exact ⟨_, .inr rfl, hp⟩
      obtain ⟨j, hj, hp⟩ := hj
      have hd := hraw P.default
      rw [Json.member?_obj hk] at hd
      have hfield := resolved hk hw hj hd hnull (hraw hp)
      rw [Option.bind_some]
      cases hu : w.given? (keys P.name) key with
      | none =>
          rw [hu] at hfield
          exact hfield
      | some u =>
          rw [hu] at hfield
          exact hread hfield

end Settings

end Parley
