import Parley.Proofs.Message.Written
import Parley.Proofs.Text.Utf8

namespace Parley

open Json (Term)

namespace ErrorBody

theorem of_ofTerm? {t : Term} {b : ErrorBody} {d : Nat} (h : ofTerm? d t = some b) :
    ∃ code message data, t.fields? ["code", "message", "data"] =
        some [some code, some message, data] ∧ code.integer? = some b.code ∧
      Term.optional (Term.toJson? (d - 1)) data = some b.data := by
  obtain ⟨fs, hf, h⟩ := Option.bind_eq_some_iff.1 h
  split at h
  · next code message data =>
    obtain ⟨n, hn, h⟩ := Option.bind_eq_some_iff.1 h
    obtain ⟨s, -, h⟩ := Option.bind_eq_some_iff.1 h
    obtain ⟨v, hv, h⟩ := Option.bind_eq_some_iff.1 h
    cases h
    exact ⟨code, message, data, hf, hn, hv⟩
  · cases h

theorem plain_of_ofTerm? {t : Term} {b : ErrorBody} {d : Nat} (ht : t.Whole)
    (h : ofTerm? (d + 1) t = some b) : b.Plain ∧ b.toJson.depth ≤ d + 1 := by
  obtain ⟨code, message, data, hf, hn, hv⟩ := of_ofTerm? h
  have hp := Term.plain_of_optional (ht.fields hf data (by simp)) hv
  refine ⟨⟨Term.inRange_of_integer? hn, fun v hv => (hp v hv).1⟩, ?_⟩
  apply Json.depth_obj_le.2
  intro m hm
  rcases List.mem_append.1 hm with hm | hm
  · simp only [List.mem_cons, List.not_mem_nil, or_false] at hm
    rcases hm with rfl | rfl <;> exact Nat.zero_le _
  · obtain ⟨v, hv, rfl⟩ := Option.map_eq_some_iff.1 (Option.mem_toList.1 hm)
    exact (hp v hv).2

end ErrorBody

namespace Envelope

theorem of_ofTerm? {t : Term} {e : Envelope} (h : ofTerm? t = some e) :
    ∃ version id method params result error,
      t.fields? names = some [version, id, method, params, result, error] ∧
      Term.optional (fun t => (t.toJson? (Json.maxDepth - 1)).bind RequestId.ofJson?) id =
        some e.id ∧
      Term.optional (Term.toJson? (Json.maxDepth - 1)) params = some e.params ∧
      (∀ v ∈ e.result, ∃ t, result = some t ∧ t.toJson? (Json.maxDepth - 1) = some v) ∧
      Term.optional (ErrorBody.ofTerm? (Json.maxDepth - 1)) error = some e.error := by
  obtain ⟨fs, hf, h⟩ := Option.bind_eq_some_iff.1 h
  split at h
  · next version id method params result error =>
    obtain ⟨ve, -, h⟩ := Option.bind_eq_some_iff.1 h
    obtain ⟨i, hi, h⟩ := Option.bind_eq_some_iff.1 h
    obtain ⟨me, -, h⟩ := Option.bind_eq_some_iff.1 h
    obtain ⟨p, hp, h⟩ := Option.bind_eq_some_iff.1 h
    refine ⟨version, id, method, params, result, error, hf, ?_⟩
    cases result with
    | none =>
        obtain ⟨r, hr, h⟩ := Option.bind_eq_some_iff.1 h
        obtain ⟨b, hb, h⟩ := Option.bind_eq_some_iff.1 h
        cases hr
        cases h
        exact ⟨hi, hp, nofun, hb⟩
    | some t =>
        obtain ⟨r, hr, h⟩ := Option.bind_eq_some_iff.1 h
        obtain ⟨b, hb, h⟩ := Option.bind_eq_some_iff.1 h
        obtain ⟨v, hv, rfl⟩ := Option.map_eq_some_iff.1 hr
        cases h
        refine ⟨hi, hp, fun v' he => ⟨t, rfl, ?_⟩, hb⟩
        cases he
        exact hv
  · cases h

theorem definite_of_ofTerm? {t : Term} {e : Envelope} (h : ofTerm? t = some e) :
    e.Definite := by
  obtain ⟨_, _, _, _, _, _, -, -, hp, -, hb⟩ := of_ofTerm? h
  refine ⟨Term.optional_ne_null hp, fun b he => ?_⟩
  rw [Option.mem_def.1 he] at hb
  obtain ⟨t, -, -, hb⟩ := Term.of_optional hb
  obtain ⟨_, _, _, -, -, hv⟩ := ErrorBody.of_ofTerm? hb
  exact Term.optional_ne_null hv

theorem plain_of_ofTerm? {t : Term} {e : Envelope} (ht : t.Whole) (h : ofTerm? t = some e) :
    e.Plain := by
  obtain ⟨version, id, method, params, result, error, hf, hi, hp, hr, hb⟩ := of_ofTerm? h
  have hw := ht.fields hf
  refine ⟨fun i he => ?_, Term.plain_of_optional (hw params (by simp)) hp, fun v he => ?_,
    fun b he => ?_⟩
  · rw [Option.mem_def.1 he] at hi
    obtain ⟨t, -, -, hi⟩ := Term.of_optional hi
    obtain ⟨v, -, hv⟩ := Option.bind_eq_some_iff.1 hi
    exact RequestId.fits_of_ofJson? hv
  · obtain ⟨t, rfl, hv⟩ := hr v he
    exact (hw (some t) (by simp) t rfl).plain hv
  · rw [Option.mem_def.1 he] at hb
    obtain ⟨t, rfl, -, hb⟩ := Term.of_optional hb
    exact ErrorBody.plain_of_ofTerm? (hw (some t) (by simp) t rfl) hb

variable {e : Envelope} {m : Message}

theorem Definite.classify (hd : e.Definite) (h : e.classify = .ok m) : m.envelope.Definite := by
  unfold Envelope.classify at h
  split at h
  all_goals cases h
  · exact ⟨hd.params, nofun⟩
  · exact ⟨hd.params, nofun⟩
  · exact ⟨nofun, nofun⟩
  · next hb => exact ⟨nofun, fun b he => hd.data b (hb ▸ he)⟩

theorem Plain.classify (hp : e.Plain) (h : e.classify = .ok m) : m.envelope.Plain := by
  unfold Envelope.classify at h
  split at h
  all_goals cases h
  · next hi _ _ => exact ⟨fun i he => hp.id i (hi ▸ he), hp.params, nofun, nofun⟩
  · exact ⟨nofun, hp.params, nofun, nofun⟩
  · next hi hr _ =>
    exact ⟨fun i he => hp.id i (hi ▸ he), nofun, fun v he => hp.result v (hr ▸ he), nofun⟩
  · next hi _ hb =>
    exact ⟨fun i he => hp.id i (hi ▸ he), nofun, nofun, fun b he => hp.error b (hb ▸ he)⟩

end Envelope

namespace Message

variable {m : Message}

def detail? : Message → Option Json
  | .request r => r.params
  | .notification n => n.params
  | .response ⟨_, .ok _⟩ => none
  | .response ⟨_, .error b⟩ => b.data

/-- The id and the code are 64-bit numbers, and all that is carried is plain. -/
def Plain : Message → Prop
  | .request r => r.id.Fits ∧ ∀ v ∈ r.params, v.Plain
  | .notification n => ∀ v ∈ n.params, v.Plain
  | .response ⟨id, .ok v⟩ => id.Fits ∧ v.Plain
  | .response ⟨id, .error b⟩ => id.Fits ∧ b.Plain

theorem definite_envelope : m.envelope.Definite ↔ m.detail? ≠ some .null := by
  rcases m with r | n | ⟨id, b | v⟩
  · exact ⟨fun h => h.params, fun h => ⟨h, nofun⟩⟩
  · exact ⟨fun h => h.params, fun h => ⟨h, nofun⟩⟩
  · refine ⟨fun h => h.data b rfl, fun h => ⟨nofun, ?_⟩⟩
    rintro _ ⟨⟩
    exact h
  · exact ⟨fun _ => nofun, fun _ => ⟨nofun, nofun⟩⟩

theorem plain_envelope (h : m.Plain) (hd : m.toJson.depth ≤ Json.maxDepth) :
    m.envelope.Plain := by
  have hl := Json.depth_obj_le.1 hd
  rcases m with ⟨id, method, params⟩ | ⟨method, params⟩ | ⟨id, b | v⟩
  · refine ⟨?_, fun v hv => ⟨h.2 v hv, hl ("params", v) ?_⟩, nofun, nofun⟩
    · rintro _ ⟨⟩
      exact h.1
    · simp_all [envelope]
  · refine ⟨nofun, fun v hv => ⟨h v hv, hl ("params", v) ?_⟩, nofun, nofun⟩
    simp_all [envelope]
  · refine ⟨?_, nofun, nofun, ?_⟩
    · rintro _ ⟨⟩
      exact h.1
    · rintro _ ⟨⟩
      exact ⟨h.2, hl ("error", b.toJson) (by simp)⟩
  · refine ⟨?_, nofun, ?_, nofun⟩
    · rintro _ ⟨⟩
      exact h.1
    · rintro _ ⟨⟩
      exact ⟨h.2, hl ("result", v) (by simp)⟩

theorem decode_of_plain (hd : m.envelope.Definite) (hp : m.envelope.Plain) :
    decode m.encode = .ok m := by
  have hr : Envelope.read? m.encode = some m.envelope := by
    rw [Envelope.read?, encode, Utf8.glyphs_encode, (reads_toJson hp).all, Option.bind_some,
      Envelope.ofTerm?_of_fields (fields?_toJson m) hd hp]
  rw [decode, hr]
  simp only [classify_envelope]
  rfl

theorem of_decode {frame : Bytes} (h : decode frame = .ok m) :
    ∃ t e, Term.read? (Utf8.glyphs frame) = some t ∧ Envelope.ofTerm? t = some e ∧
      e.classify = .ok m := by
  unfold decode at h
  split at h
  · cases h
  · next e he =>
    obtain ⟨t, ht, hf⟩ := Option.bind_eq_some_iff.1 he
    cases hc : e.classify with
    | error f =>
        rw [hc] at h
        cases h
    | ok m' =>
        rw [hc] at h
        cases h
        exact ⟨t, e, ht, hf, hc⟩

/-- A plain message is read back as it was written, if null does not stand for a part of it that
may be left out, and it nests no deeper than is read. No message that is read has such a null, and
one whose numbers are integers can be written again and read once more. -/
theorem decode_encode :
    (∀ m : Message, m.Plain → m.detail? ≠ some .null → m.toJson.depth ≤ Json.maxDepth →
      decode m.encode = .ok m) ∧
    ∀ (frame : Bytes) (m : Message), decode frame = .ok m → m.detail? ≠ some .null ∧
      ((∀ t, Term.read? (Utf8.glyphs frame) = some t → t.Whole) → decode m.encode = .ok m) := by
  constructor
  · intro m h hn hd
    exact decode_of_plain (definite_envelope.2 hn) (plain_envelope h hd)
  · intro frame m h
    obtain ⟨t, e, ht, he, hc⟩ := of_decode h
    have hd := (Envelope.definite_of_ofTerm? he).classify hc
    refine ⟨definite_envelope.1 hd, fun hw => ?_⟩
    exact decode_of_plain hd ((Envelope.plain_of_ofTerm? (hw t ht) he).classify hc)

/-- The second message is read from an object that has no version and another order. -/
theorem decode_encode_of_int :
    decode (encode (notification ⟨"m", some (.int (-1))⟩)) =
      .ok (notification ⟨"m", some (.int (-1))⟩) ∧
    decode (encode (success (.number 7) .null)) = .ok (success (.number 7) .null) := by
  have hp : (notification ⟨"m", some (.int (-1))⟩).Plain := by
    rintro _ ⟨⟩
    exact .int (by decide) (by decide)
  refine ⟨decode_encode.1 _ hp nofun (by decide), ?_⟩
  have hr : Term.Reads (.obj [("result", .null), ("id", .int 7)]) := by
    apply Term.reads_obj
    intro m hm
    simp only [List.mem_cons, List.not_mem_nil, or_false] at hm
    rcases hm with rfl | rfl
    · exact Term.reads_null
    · exact Term.reads_int 7
  have he : Envelope.read? (Utf8.encode (Json.obj [("result", .null), ("id", .int 7)]).chars) =
      some { id := some (.number 7), result := some .null } := by decide +kernel
  have hd : decode (Utf8.encode (Json.obj [("result", .null), ("id", .int 7)]).chars) =
      .ok (success (.number 7) .null) := by
    rw [decode, he]
    rfl
  refine (decode_encode.2 _ _ hd).2 fun t ht => ?_
  rw [Utf8.glyphs_encode, hr.all] at ht
  cases ht
  refine .object fun m hm => ?_
  simp only [Term.ofMembers, List.mem_cons, List.not_mem_nil, or_false] at hm
  rcases hm with rfl | rfl
  · exact .null
  · exact .number (Json.Numeral.toJson?_ofInt (by decide) (by decide))

end Message

end Parley
