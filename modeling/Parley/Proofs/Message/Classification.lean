import Parley.Proofs.Message.Declared

namespace Parley

open Json (Term Literal)

namespace Envelope

variable {ms : List (Literal × Term)} {ns : List (String × Term)} {e : Envelope}

def Given (ns : List (String × Term)) (f : Field) : Prop :=
  ∃ t, (f.name, t) ∈ ns ∧ (t = .null → f = .result)

theorem given_iff_isSome {α : Type} {means : Term → α → Prop} {f : Field} {o : Option α}
    (h1 : Term.Once ns f.name) (hf : f ≠ .result) (h : Term.Says means (ns.lookup f.name) o) :
    Given ns f ↔ o.isSome := by
  rw [Term.says_isSome h]
  simp only [Given, Term.mem_iff_lookup h1, hf, imp_false, ne_eq]

theorem given_result (h1 : Term.Once ns "result") (h : Declares ns e) :
    Given ns .result ↔ e.result.isSome := by
  have hr := h.result
  simp only [Given, Field.name, Term.mem_iff_lookup h1, implies_true, and_true]
  generalize ns.lookup "result" = t, e.result = o at hr
  cases hr <;> simp

def Carries (ns : List (String × Term)) : Message → Prop
  | .request q =>
    (∃ t, ("id", t) ∈ ns ∧ Means t q.id.toJson) ∧
      (∃ t, ("method", t) ∈ ns ∧ Means t (.str q.method)) ∧
      Term.Says Means (ns.lookup "params") q.params
  | .notification m =>
    (∃ t, ("method", t) ∈ ns ∧ Means t (.str m.method)) ∧
      Term.Says Means (ns.lookup "params") m.params
  | .response ⟨i, .ok v⟩ =>
    (∃ t, ("id", t) ∈ ns ∧ Means t i.toJson) ∧ ∃ t, ("result", t) ∈ ns ∧ Means t v
  | .response ⟨i, .error b⟩ =>
    (∃ t, ("id", t) ∈ ns ∧ Means t i.toJson) ∧ ∃ t, ("error", t) ∈ ns ∧ Reports t b

def Holds (frame : Bytes) (ns : List (String × Term)) : Prop :=
  ∃ ms, Term.read? (Utf8.glyphs frame) = some (.object ms) ∧ Term.Named ms ns

variable {frame frame' : Bytes} {ns' : List (String × Term)}

theorem holds_obj {vs : Json.Members} (h : ∀ v ∈ vs, Term.Reads v.2) :
    Holds (Utf8.encode (Json.obj vs).chars) (vs.map fun v => (v.1, Term.ofJson v.2)) := by
  refine ⟨Term.ofMembers vs, ?_, Term.mapM_text?.1 (Term.text?_ofMembers vs)⟩
  rw [Utf8.glyphs_encode, (Term.reads_obj h).all, Term.ofJson]

theorem read?_eq_some (hf : Holds frame ns) (h1 : ∀ f : Field, Term.Once ns f.name) :
    read? frame = some e ↔ Declares ns e := by
  obtain ⟨ms, hr, hn⟩ := hf
  rw [read?, hr, Option.bind_some, ofTerm?_eq_some hn h1]

theorem decode_of_declares (hf : Holds frame ns) (h1 : ∀ f : Field, Term.Once ns f.name)
    (h : Declares ns e) : Message.decode frame = e.classify.mapError .envelope := by
  rw [Message.decode, (read?_eq_some hf h1).2 h]

theorem decode_eq_ok {m : Message} (hf : Holds frame ns) (h1 : ∀ f : Field, Term.Once ns f.name)
    (h : Declares ns e) : Message.decode frame = .ok m ↔ e.classify = .ok m := by
  rw [decode_of_declares hf h1 h]
  cases e.classify <;> simp [Except.mapError]

theorem decode_eq_error {x : EnvelopeFault} (hf : Holds frame ns)
    (h1 : ∀ f : Field, Term.Once ns f.name) (h : Declares ns e) :
    Message.decode frame = .error (.envelope x) ↔ e.classify = .error x := by
  rw [decode_of_declares hf h1 h]
  cases e.classify <;> simp [Except.mapError]

theorem decode_of_not_declares (hf : Holds frame ns) (h1 : ∀ f : Field, Term.Once ns f.name)
    (h : ∀ e, ¬Declares ns e) : Message.decode frame = .error .json := by
  have hr : read? frame = none := by
    apply Option.eq_none_iff_forall_ne_some.2
    intro e he
    exact h e ((read?_eq_some hf h1).1 he)
  rw [Message.decode, hr]

/-- Members that agree but for the version say the same but for the version. -/
theorem Declares.of_lookup {v : Option String} (h : Declares ns e)
    (hl : ∀ f : Field, f ≠ .version → ns'.lookup f.name = ns.lookup f.name)
    (hv : Term.Says (fun t s => Means t (.str s)) (ns'.lookup "jsonrpc") v) :
    Declares ns' { e with version := v } where
  version := hv
  id := (hl .id nofun).symm ▸ h.id
  method := (hl .method nofun).symm ▸ h.method
  params := (hl .params nofun).symm ▸ h.params
  result := (hl .result nofun).symm ▸ h.result
  error := (hl .error nofun).symm ▸ h.error

theorem classify_version (e : Envelope) (v : Option String) :
    { e with version := v }.classify = e.classify := rfl

theorem decode_eq_of_lookup (hf : Holds frame ns) (hf' : Holds frame' ns')
    (h1 : ∀ f : Field, Term.Once ns f.name) (h1' : ∀ f : Field, Term.Once ns' f.name)
    (hl : ∀ f : Field, f ≠ .version → ns'.lookup f.name = ns.lookup f.name)
    (hv : (∃ v, Term.Says (fun t s => Means t (.str s)) (ns'.lookup "jsonrpc") v) ↔
      ∃ v, Term.Says (fun t s => Means t (.str s)) (ns.lookup "jsonrpc") v) :
    Message.decode frame' = Message.decode frame := by
  by_cases h : ∃ e, Declares ns e
  · obtain ⟨e, he⟩ := h
    obtain ⟨v, hv⟩ := hv.2 ⟨_, he.version⟩
    rw [decode_of_declares hf' h1' (he.of_lookup hl hv), decode_of_declares hf h1 he,
      classify_version]
  · rw [decode_of_not_declares hf h1 (not_exists.1 h), decode_of_not_declares hf' h1']
    intro e he
    obtain ⟨v, hv⟩ := hv.1 ⟨_, he.version⟩
    exact h ⟨_, he.of_lookup (fun f hf => (hl f hf).symm) hv⟩

/-- The members with the names in `keep` are the same, in any order and among any others. -/
def SameOf (keep : List String) (ns ns' : List (String × Term)) : Prop :=
  (ns'.filter fun n => n.1 ∈ keep).Perm (ns.filter fun n => n.1 ∈ keep)

theorem SameOf.lookup {keep : List String} {name : String} (h : SameOf keep ns ns')
    (hk : name ∈ keep) (h1 : Term.Once ns name) :
    Term.Once ns' name ∧ ns'.lookup name = ns.lookup name := by
  have hn := Term.named_perm hk h1 h
  rw [Term.Once, Term.lookup_eq, Term.lookup_eq, hn]
  exact ⟨h1, rfl⟩

/-- The order of the known members, and the members with other names, change nothing. -/
theorem decode_of_sameOf (hf : Holds frame ns) (hf' : Holds frame' ns')
    (h1 : ∀ f : Field, Term.Once ns f.name) (h : SameOf names ns ns') :
    Message.decode frame' = Message.decode frame := by
  have hl (f : Field) := h.lookup f.name_mem (h1 f)
  have hv : ns'.lookup "jsonrpc" = ns.lookup "jsonrpc" := (hl .version).2
  apply decode_eq_of_lookup hf hf' h1 (fun f => (hl f).1) (fun f _ => (hl f).2)
  rw [hv]

theorem decode_of_sameOf_tail (hf : Holds frame ns) (hf' : Holds frame' ns')
    (h1 : ∀ f : Field, Term.Once ns f.name) (h : SameOf names.tail ns ns')
    (h1' : Term.Once ns' "jsonrpc")
    (hv : ∀ t, ns.lookup "jsonrpc" = some t → Field.version.Admits t)
    (hv' : ∀ t, ns'.lookup "jsonrpc" = some t → Field.version.Admits t) :
    Message.decode frame' = Message.decode frame := by
  have hl (f : Field) (hne : f ≠ .version) := h.lookup (f.name_mem_tail hne) (h1 f)
  refine decode_eq_of_lookup hf hf' h1 (fun f => ?_) (fun f hne => (hl f hne).2)
    (iff_of_true (Term.exists_said.2 hv') (Term.exists_said.2 hv))
  by_cases hne : f = .version
  · exact hne ▸ h1'
  · exact (hl f hne).1

theorem classify_shape (e : Envelope) :
    ((∃ q, e.classify = .ok (.request q)) ↔
      e.method.isSome ∧ e.id.isSome ∧ ¬e.result.isSome ∧ ¬e.error.isSome) ∧
    ((∃ m, e.classify = .ok (.notification m)) ↔
      e.method.isSome ∧ ¬e.id.isSome ∧ ¬e.result.isSome ∧ ¬e.error.isSome) ∧
    ((∃ i v, e.classify = .ok (.response ⟨i, .ok v⟩)) ↔
      e.id.isSome ∧ e.result.isSome ∧ ¬e.error.isSome ∧ ¬e.method.isSome) ∧
    ((∃ i b, e.classify = .ok (.response ⟨i, .error b⟩)) ↔
      e.id.isSome ∧ e.error.isSome ∧ ¬e.result.isSome ∧ ¬e.method.isSome) ∧
    ((∃ x, e.classify = .error x) ↔
      ¬(e.method.isSome ∧ ¬e.result.isSome ∧ ¬e.error.isSome) ∧
      ¬(e.id.isSome ∧ Xor e.result.isSome e.error.isSome ∧ ¬e.method.isSome)) := by
  obtain ⟨version, _ | i, _ | m, params, _ | v, _ | b⟩ := e <;>
    simp [classify, Message.success, Message.failure, Xor]

theorem given_iff (h1 : ∀ f : Field, Term.Once ns f.name) (h : Declares ns e) :
    (Given ns .id ↔ e.id.isSome) ∧ (Given ns .method ↔ e.method.isSome) ∧
      (Given ns .result ↔ e.result.isSome) ∧ (Given ns .error ↔ e.error.isSome) :=
  ⟨given_iff_isSome (h1 .id) nofun h.id, given_iff_isSome (h1 .method) nofun h.method,
    given_result (h1 .result) h, given_iff_isSome (h1 .error) nofun h.error⟩

theorem mem_of_said {α : Type} {means : Term → α → Prop} {f : Field} {a : α}
    (h1 : Term.Once ns f.name) (h : Term.Says means (ns.lookup f.name) (some a)) :
    ∃ t, (f.name, t) ∈ ns ∧ means t a := by
  obtain ⟨t, ht, -, ha⟩ := h
  exact ⟨t, (Term.mem_iff_lookup h1).2 ht, ha⟩

theorem carries_of_classify {m : Message} (h1 : ∀ f : Field, Term.Once ns f.name)
    (hd : Declares ns e) (h : e.classify = .ok m) : Carries ns m := by
  have hid (i : RequestId) (hi : e.id = some i) : ∃ t, ("id", t) ∈ ns ∧ Means t i.toJson := by
    obtain ⟨t, ht, -, hi⟩ := mem_of_said (h1 .id) (hi ▸ hd.id)
    exact ⟨t, ht, hi⟩
  have hmethod (m : String) (hm : e.method = some m) :
      ∃ t, ("method", t) ∈ ns ∧ Means t (.str m) := by
    have h := hd.method
    rw [hm] at h
    exact mem_of_said (h1 .method) h
  have hresult (v : Json) (hv : e.result = some v) : ∃ t, ("result", t) ∈ ns ∧ Means t v := by
    have hr := hd.result
    generalize hl : ns.lookup "result" = f at hr
    rw [hv] at hr
    cases hr with
    | some hv => exact ⟨_, (Term.mem_iff_lookup (h1 .result)).2 hl, hv⟩
  have herror (b : ErrorBody) (hb : e.error = some b) : ∃ t, ("error", t) ∈ ns ∧ Reports t b :=
    mem_of_said (h1 .error) (hb ▸ hd.error)
  rw [classify] at h
  split at h <;> cases h
  · next hm hi _ _ => exact ⟨hid _ hi, hmethod _ hm, hd.params⟩
  · next hm _ _ _ => exact ⟨hmethod _ hm, hd.params⟩
  · next _ hi hv _ => exact ⟨hid _ hi, hresult _ hv⟩
  · next _ hi _ hb => exact ⟨hid _ hi, herror _ hb⟩

theorem decode_shape (hf : Holds frame ns) (h1 : ∀ f : Field, Term.Once ns f.name)
    (h : Declares ns e) :
    ((∃ q, Message.decode frame = .ok (.request q)) ↔
      Given ns .method ∧ Given ns .id ∧ ¬Given ns .result ∧ ¬Given ns .error) ∧
    ((∃ m, Message.decode frame = .ok (.notification m)) ↔
      Given ns .method ∧ ¬Given ns .id ∧ ¬Given ns .result ∧ ¬Given ns .error) ∧
    ((∃ i v, Message.decode frame = .ok (.response ⟨i, .ok v⟩)) ↔
      Given ns .id ∧ Given ns .result ∧ ¬Given ns .error ∧ ¬Given ns .method) ∧
    ((∃ i b, Message.decode frame = .ok (.response ⟨i, .error b⟩)) ↔
      Given ns .id ∧ Given ns .error ∧ ¬Given ns .result ∧ ¬Given ns .method) ∧
    ((∃ x, Message.decode frame = .error (.envelope x)) ↔
      ¬(Given ns .method ∧ ¬Given ns .result ∧ ¬Given ns .error) ∧
      ¬(Given ns .id ∧ Xor (Given ns .result) (Given ns .error) ∧ ¬Given ns .method)) := by
  obtain ⟨hi, hm, hr, he⟩ := given_iff h1 h
  simp only [decode_eq_ok hf h1 h, decode_eq_error hf h1 h, hi, hm, hr, he]
  exact classify_shape e

end Envelope

namespace Message

open Envelope (Field Given Carries Holds SameOf)

variable {frame : Bytes} {ns : List (String × Term)}

/-- What a frame is taken for that is an object with the members `ns`, the known ones at most once
each. -/
theorem decode_object (hf : Holds frame ns) (h1 : ∀ f : Field, Term.Once ns f.name) :
    (∀ frame' ns', Holds frame' ns' → SameOf Envelope.names ns ns' →
      decode frame' = decode frame) ∧
    ((∃ (f : Field) (t : Term), (f.name, t) ∈ ns ∧ ¬f.Admits t) → decode frame = .error .json) ∧
    ((∀ (f : Field) (t : Term), (f.name, t) ∈ ns → f.Admits t) →
      ((∃ q, decode frame = .ok (.request q)) ↔
        Given ns .method ∧ Given ns .id ∧ ¬Given ns .result ∧ ¬Given ns .error) ∧
      ((∃ m, decode frame = .ok (.notification m)) ↔
        Given ns .method ∧ ¬Given ns .id ∧ ¬Given ns .result ∧ ¬Given ns .error) ∧
      ((∃ i v, decode frame = .ok (.response ⟨i, .ok v⟩)) ↔
        Given ns .id ∧ Given ns .result ∧ ¬Given ns .error ∧ ¬Given ns .method) ∧
      ((∃ i b, decode frame = .ok (.response ⟨i, .error b⟩)) ↔
        Given ns .id ∧ Given ns .error ∧ ¬Given ns .result ∧ ¬Given ns .method) ∧
      ((∃ x, decode frame = .error (.envelope x)) ↔
        ¬(Given ns .method ∧ ¬Given ns .result ∧ ¬Given ns .error) ∧
        ¬(Given ns .id ∧ Xor (Given ns .result) (Given ns .error) ∧ ¬Given ns .method)) ∧
      ∀ frame' ns', Holds frame' ns' → SameOf Envelope.names.tail ns ns' →
        Term.Once ns' "jsonrpc" → (∀ t, ("jsonrpc", t) ∈ ns' → Field.version.Admits t) →
        decode frame' = decode frame) ∧
    ∀ m, decode frame = .ok m → Carries ns m := by
  refine ⟨fun _ _ hf' hs => Envelope.decode_of_sameOf hf hf' h1 hs, ?_, fun h => ?_, fun m hm => ?_⟩
  · rintro ⟨f, t, ht, hn⟩
    apply Envelope.decode_of_not_declares hf h1
    intro e he
    exact hn (Envelope.exists_declares.1 ⟨e, he⟩ f t ((Term.mem_iff_lookup (h1 f)).1 ht))
  · have h (f : Field) (t : Term) (ht : ns.lookup f.name = some t) : f.Admits t :=
      h f t ((Term.mem_iff_lookup (h1 f)).2 ht)
    obtain ⟨e, he⟩ := Envelope.exists_declares.2 h
    obtain ⟨hq, hn, hv, hb, hx⟩ := Envelope.decode_shape hf h1 he
    refine ⟨hq, hn, hv, hb, hx, fun frame' ns' hf' hs h1' hv' => ?_⟩
    refine Envelope.decode_of_sameOf_tail hf hf' h1 hs h1' (h .version) fun t ht => ?_
    exact hv' t ((Term.mem_iff_lookup h1').2 ht)
  · by_cases h : ∃ e, Envelope.Declares ns e
    · obtain ⟨e, he⟩ := h
      exact Envelope.carries_of_classify h1 he ((Envelope.decode_eq_ok hf h1 he).1 hm)
    · rw [Envelope.decode_of_not_declares hf h1 (not_exists.1 h)] at hm
      cases hm

/-- A null result is given, and neither a version of any kind nor a note changes the answer. -/
theorem decode_object_of_null_result :
    (∃ i v, decode (Utf8.encode (Json.obj [("result", .null), ("id", .int 7)]).chars) =
      .ok (.response ⟨i, .ok v⟩)) ∧
    decode (Utf8.encode (Json.obj [("id", .int 7), ("note", .arr []), ("jsonrpc", .str "1.0"),
        ("result", .null)]).chars) =
      decode (Utf8.encode (Json.obj [("result", .null), ("id", .int 7)]).chars) := by
  have hf : Holds (Utf8.encode (Json.obj [("result", .null), ("id", .int 7)]).chars)
      [("result", .null), ("id", .number (.ofInt 7))] := by
    apply Envelope.holds_obj
    simp [Term.reads_null, Term.reads_int]
  have hf' : Holds (Utf8.encode (Json.obj [("id", .int 7), ("note", .arr []),
      ("jsonrpc", .str "1.0"), ("result", .null)]).chars) [("id", .number (.ofInt 7)),
        ("note", .array []), ("jsonrpc", .string (.ofString "1.0")), ("result", .null)] := by
    apply Envelope.holds_obj
    simp [Term.reads_null, Term.reads_int, Term.reads_str, Term.reads_arr]
  have h1 (f : Field) : Term.Once [("result", .null), ("id", .number (.ofInt 7))] f.name := by
    unfold Term.Once
    cases f <;> decide
  have hadmits (f : Field) (t : Term)
      (ht : (f.name, t) ∈ [("result", Term.null), ("id", .number (.ofInt 7))]) : f.Admits t := by
    simp only [List.mem_cons, Prod.mk.injEq, List.not_mem_nil, or_false] at ht
    rcases ht with ⟨hn, rfl⟩ | ⟨hn, rfl⟩
    · cases f <;> first | exact absurd hn (by decide) | exact ⟨.null, rfl⟩
    · have hid : (RequestId.number 7).Fits := show RequestId.inRange 7 by decide
      have hm := Term.toJson?_ofJson (d := Json.maxDepth - 1) (RequestId.plain hid) (by decide)
      cases f <;> first | exact absurd hn (by decide) | exact .inr ⟨.number 7, hid, hm⟩
  obtain ⟨-, -, hs, -, -, hv⟩ := (decode_object hf h1).2.2.1 hadmits
  refine ⟨hs.2 ⟨?_, ?_, ?_, ?_⟩, hv _ _ hf' ?_ ?_ ?_⟩
  · exact ⟨.number (.ofInt 7), by simp [Field.name], nofun⟩
  · exact ⟨.null, by simp [Field.name], fun _ => rfl⟩
  · simp [Given, Field.name]
  · simp [Given, Field.name]
  · exact List.Perm.swap ..
  · unfold Term.Once
    decide
  · intro t ht
    have ht : t = .string (.ofString "1.0") := by simpa using ht
    exact .inr ⟨"1.0", ht ▸ Term.toJson?_ofJson (.str _) (by decide)⟩

end Message

end Parley
