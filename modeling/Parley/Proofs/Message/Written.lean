import Parley.Proofs.Message.Field

namespace Parley

open Json (Term)

namespace RequestId

def Fits : RequestId → Prop
  | number n => inRange n
  | text _ => True

theorem range_of_inRange {n : Int} (h : inRange n) : -(span 63 : Int) ≤ n ∧ n < span 64 := by
  have hs : (span 63 : Int) < span 64 := by decide
  simp only [inRange, Bool.and_eq_true, decide_eq_true_eq] at h
  omega

theorem plain {id : RequestId} (h : id.Fits) : id.toJson.Plain := by
  cases id with
  | number n =>
      obtain ⟨hl, hu⟩ := range_of_inRange h
      exact .int hl hu
  | text s => exact .str s

theorem depth_toJson (id : RequestId) : id.toJson.depth = 0 := by
  cases id <;> rfl

theorem ofJson?_toJson {id : RequestId} (h : id.Fits) : ofJson? id.toJson = some id := by
  cases id with
  | number n => exact if_pos h
  | text s => rfl

theorem fits_of_ofJson? {v : Json} {id : RequestId} (h : ofJson? v = some id) : id.Fits := by
  unfold ofJson? at h
  split at h
  · split at h
    · next hr =>
      cases h
      exact hr
    · cases h
  · cases h
    trivial
  · cases h

end RequestId

namespace Json.Term

theorem ofJson_ne_null {v : Json} (h : v.Plain) (hn : v ≠ .null) : ofJson v ≠ .null := by
  cases h with
  | null => exact absurd rfl hn
  | _ => exact Term.noConfusion

theorem optional_ofJson {p : Option Json} {d : Nat} (h : ∀ v ∈ p, v.Plain ∧ v.depth ≤ d)
    (hn : p ≠ some .null) : optional (toJson? d) (p.map ofJson) = some p := by
  cases p with
  | none => rfl
  | some v =>
      obtain ⟨hp, hd⟩ := h v rfl
      exact optional_some (ofJson_ne_null hp fun he => hn (he ▸ rfl)) (toJson?_ofJson hp hd)

theorem optional_ne_null {f : Option Term} {p : Option Json} {d : Nat}
    (h : optional (toJson? d) f = some p) : p ≠ some .null := by
  rintro rfl
  obtain ⟨t, -, hn, ht⟩ := of_optional h
  exact hn (toJson?_eq_null ht)

theorem plain_of_optional {f : Option Term} {p : Option Json} {d : Nat} (hf : ∀ t ∈ f, t.Whole)
    (h : optional (toJson? d) f = some p) : ∀ v ∈ p, v.Plain ∧ v.depth ≤ d := by
  rintro v hv
  rw [Option.mem_def.1 hv] at h
  obtain ⟨t, ht, -, hj⟩ := of_optional h
  exact (hf t ht).plain hj

theorem integer?_ofInt {n : Int} (h : RequestId.inRange n) :
    integer? (.number (.ofInt n)) = some n := by
  obtain ⟨hl, hu⟩ := RequestId.range_of_inRange h
  rw [integer?, Numeral.toJson?_ofInt hl hu]
  exact if_pos h

theorem inRange_of_integer? {t : Term} {n : Int} (h : integer? t = some n) :
    RequestId.inRange n := by
  unfold integer? at h
  split at h
  · split at h
    · split at h
      · next hr =>
        cases h
        exact hr
      · cases h
    · cases h
  · cases h

end Json.Term

namespace ErrorBody

def Plain (b : ErrorBody) : Prop := RequestId.inRange b.code ∧ ∀ v ∈ b.data, v.Plain

theorem reads_toJson {b : ErrorBody} (h : b.Plain) : Term.Reads b.toJson := by
  apply Term.reads_obj
  intro m hm
  simp only [List.mem_append, List.mem_cons, List.not_mem_nil, or_false, Option.mem_toList,
    Option.map_eq_some_iff] at hm
  rcases hm with (rfl | rfl) | ⟨v, hv, rfl⟩
  · exact Term.reads_int _
  · exact Term.reads_str _
  · exact (h.2 v hv).reads

theorem ofTerm?_toJson {b : ErrorBody} {d : Nat} (h : b.Plain) (hn : b.data ≠ some .null)
    (hd : ∀ v ∈ b.data, v.depth ≤ d) : ofTerm? (d + 1) (Term.ofJson b.toJson) = some b := by
  have hf : (Term.ofJson b.toJson).fields? ["code", "message", "data"] =
      some [some (.number (.ofInt b.code)), some (.string (.ofString b.message)),
        b.data.map Term.ofJson] := by
    cases hb : b.data with
    | none => rw [toJson, hb, Term.fields?_ofJson _ (by simp)]; rfl
    | some v => rw [toJson, hb, Term.fields?_ofJson _ (by simp)]; rfl
  have hdata := Term.optional_ofJson (fun v hv => ⟨h.2 v hv, hd v hv⟩) hn
  simp only [ofTerm?, hf, Term.integer?_ofInt h.1, Term.string?, Json.Literal.text?_ofString,
    Nat.add_sub_cancel, hdata, Option.bind_eq_bind, Option.bind_some]

end ErrorBody

namespace Envelope

abbrev names : List String := ["jsonrpc", "id", "method", "params", "result", "error"]

structure Definite (e : Envelope) : Prop where
  params : e.params ≠ some .null
  data : ∀ b ∈ e.error, b.data ≠ some .null

/-- The id and the code are 64-bit numbers, all else is plain, and it nests few enough levels to
stand in a message. -/
structure Plain (e : Envelope) : Prop where
  id : ∀ i ∈ e.id, i.Fits
  params : ∀ v ∈ e.params, v.Plain ∧ v.depth ≤ Json.maxDepth - 1
  result : ∀ v ∈ e.result, v.Plain ∧ v.depth ≤ Json.maxDepth - 1
  error : ∀ b ∈ e.error, b.Plain ∧ b.toJson.depth ≤ Json.maxDepth - 1

def fields (e : Envelope) : List (Option Term) :=
  [e.version.map fun s => .string (.ofString s), e.id.map fun i => .ofJson i.toJson,
    e.method.map fun s => .string (.ofString s), e.params.map .ofJson, e.result.map .ofJson,
    e.error.map fun b => .ofJson b.toJson]

theorem optional_text (s : Option String) :
    Term.optional Term.string? (s.map fun s => .string (.ofString s)) = some s := by
  cases s with
  | none => rfl
  | some s => exact Term.optional_some nofun (Json.Literal.text?_ofString s)

theorem optional_id {id : Option RequestId} (h : ∀ i ∈ id, i.Fits) (d : Nat) :
    Term.optional (fun t => (t.toJson? d).bind RequestId.ofJson?)
      (id.map fun i => .ofJson i.toJson) = some id := by
  cases id with
  | none => rfl
  | some i =>
      have hj : (Term.ofJson i.toJson).toJson? d = some i.toJson :=
        Term.toJson?_ofJson (RequestId.plain (h i rfl)) (by rw [RequestId.depth_toJson]; omega)
      apply Term.optional_some
      · cases i <;> exact nofun
      · rw [hj, Option.bind_some, RequestId.ofJson?_toJson (h i rfl)]

theorem optional_error {error : Option ErrorBody} {d : Nat} (hn : ∀ b ∈ error, b.data ≠ some .null)
    (h : ∀ b ∈ error, b.Plain ∧ b.toJson.depth ≤ d + 1) :
    Term.optional (ErrorBody.ofTerm? (d + 1)) (error.map fun b => .ofJson b.toJson) =
      some error := by
  cases error with
  | none => rfl
  | some b =>
      obtain ⟨hp, hd⟩ := h b rfl
      have hj : ErrorBody.ofTerm? (d + 1) (.ofJson b.toJson) = some b := by
        apply ErrorBody.ofTerm?_toJson hp (hn b rfl)
        intro v hv
        exact Json.depth_obj_le.1 hd ("data", v) (by simp_all)
      exact Term.optional_some nofun hj

theorem ofTerm?_of_fields {t : Term} {e : Envelope} (hf : t.fields? names = some e.fields)
    (hd : e.Definite) (hp : e.Plain) : ofTerm? t = some e := by
  have hparams := Term.optional_ofJson hp.params hd.params
  have herror : Term.optional (ErrorBody.ofTerm? (Json.maxDepth - 1))
      (e.error.map fun b => .ofJson b.toJson) = some e.error := optional_error hd.data hp.error
  simp only [ofTerm?, hf, fields, optional_text, optional_id hp.id, hparams, herror,
    Option.bind_eq_bind, Option.bind_some]
  obtain ⟨version, id, method, params, result, error⟩ := e
  cases result with
  | none => rfl
  | some v =>
      obtain ⟨hv, hl⟩ := hp.result v rfl
      simp only [Option.map_some, Term.toJson?_ofJson hv hl, Option.bind_some]

end Envelope

namespace Message

def envelope : Message → Envelope
  | .request r =>
    { version := some Envelope.declaredVersion
      id := some r.id
      method := some r.method
      params := r.params }
  | .notification n =>
    { version := some Envelope.declaredVersion
      method := some n.method
      params := n.params }
  | .response ⟨id, .ok v⟩ =>
    { version := some Envelope.declaredVersion
      id := some id
      result := some v }
  | .response ⟨id, .error b⟩ =>
    { version := some Envelope.declaredVersion
      id := some id
      error := some b }

theorem classify_envelope (m : Message) : m.envelope.classify = .ok m := by
  rcases m with r | n | ⟨id, v | b⟩ <;> rfl

theorem fields?_toJson (m : Message) :
    (Term.ofJson m.toJson).fields? Envelope.names = some m.envelope.fields := by
  rcases m with ⟨id, method, params⟩ | ⟨method, params⟩ | ⟨id, b | v⟩
  · cases params <;> rw [toJson, Term.fields?_ofJson _ (by simp)] <;> rfl
  · cases params <;> rw [toJson, Term.fields?_ofJson _ (by simp)] <;> rfl
  · rw [toJson, Term.fields?_ofJson _ (by simp)]
    rfl
  · rw [toJson, Term.fields?_ofJson _ (by simp)]
    rfl

theorem reads_toJson {m : Message} (h : m.envelope.Plain) : Term.Reads m.toJson := by
  rcases m with ⟨id, method, params⟩ | ⟨method, params⟩ | ⟨id, b | v⟩
  all_goals
    apply Term.reads_obj
    intro x hx
    simp only [List.mem_cons, List.mem_append, List.not_mem_nil, or_false, Option.mem_toList,
      Option.map_eq_some_iff] at hx
  · rcases hx with rfl | (rfl | rfl) | ⟨v, hv, rfl⟩
    · exact Term.reads_str _
    · exact (RequestId.plain (h.id id rfl)).reads
    · exact Term.reads_str _
    · exact (h.params v hv).1.reads
  · rcases hx with rfl | rfl | ⟨v, hv, rfl⟩
    · exact Term.reads_str _
    · exact Term.reads_str _
    · exact (h.params v hv).1.reads
  · rcases hx with rfl | rfl | rfl
    · exact Term.reads_str _
    · exact (RequestId.plain (h.id id rfl)).reads
    · exact ErrorBody.reads_toJson (h.error b rfl).1
  · rcases hx with rfl | rfl | rfl
    · exact Term.reads_str _
    · exact (RequestId.plain (h.id id rfl)).reads
    · exact (h.result v rfl).1.reads

end Message

end Parley
