import Parley.Frame.Header
import Parley.Message.Envelope
import Parley.Proofs.Frame.Ending

namespace Parley

theorem Bytes.toString?_eq_some_iff {bs : Bytes} {s : String} :
    bs.toString? = some s ↔ bs = Bytes.ofString s := by
  rw [toString?, Option.map_eq_some_iff]
  constructor
  · rintro ⟨cs, h, rfl⟩
    rw [Utf8.decode?_eq_some_iff.1 h, ofString, String.toList_ofList]
  · rintro rfl
    exact ⟨s.toList, Utf8.decode?_encode _, String.ofList_toList⟩

namespace Frame

/-- A text that is taken as a message by itself. -/
def Bare (s : String) : Prop :=
  (Text.trimLeft s.toList).head? = some '\x7b' ∨ (Text.trimLeft s.toList).head? = some '['

variable {t s b : String} {f : Framed}

theorem strip_of_bare (h : Bare t) : strip t = .ok (String.ofList (Text.trimLeft t.toList)) :=
  if_pos h

theorem cut_ofString (t : String) : Text.cut terminator (Bytes.ofString t) =
    (Text.cut ['\r', '\n', '\r', '\n'] t.toList).map fun p =>
      (Utf8.encode p.1, Utf8.encode p.2) :=
  Utf8.cut_encode (s := '\r') (by decide) ['\n', '\r', '\n'] t.toList

/-- A text of which the bytes are a frame is cut into the text of the block and that of the body. -/
theorem Framed.exists_text (h : Bytes.ofString t = f.bytes) : ∃ block body,
    Text.cut ['\r', '\n', '\r', '\n'] t.toList = some (block, body) ∧
      f.block = Utf8.encode block ∧ f.body = Utf8.encode body := by
  have hc := cut_ofString t
  rw [h, Framed.bytes, f.cut_head] at hc
  obtain ⟨⟨block, body⟩, hp, he⟩ := Option.map_eq_some_iff.1 hc.symm
  obtain ⟨hblock, hbody⟩ := Prod.mk.inj he
  exact ⟨block, body, hp, hblock.symm, hbody.symm⟩

theorem strip_eq_ok_iff (h : ¬Bare t) : strip t = .ok b ↔
    ∃ f : Framed, Bytes.ofString t = f.bytes ∧ f.body = Bytes.ofString b := by
  have hs : strip t = _ := if_neg h
  constructor
  · intro hb
    rw [hs] at hb
    cases hc : Text.cut ['\r', '\n', '\r', '\n'] t.toList with
    | none => rw [hc] at hb; cases hb
    | some p =>
        obtain ⟨block, body⟩ := p
        rw [hc] at hb
        have hcut := cut_ofString t
        rw [hc, Option.map_some] at hcut
        obtain ⟨hbytes, hfirst⟩ := Text.cut_eq_some_iff.1 hcut
        cases hn : lengthOfLines (lines block) with
        | error e => simp only [hn] at hb; cases hb
        | ok n =>
            simp only [hn] at hb
            by_cases hl : (Utf8.encode body).length = n
            · cases (if_pos hl).symm.trans hb
              refine ⟨⟨Utf8.encode block, Utf8.encode body, hfirst, ?_⟩, hbytes, ?_⟩
              · rw [contentLength_encode, hn, hl]
              · rw [Bytes.ofString, String.toList_ofList]
            · cases (if_neg hl).symm.trans hb
  · rintro ⟨f, hf, hb⟩
    obtain ⟨block, body, hc, hblock, hbody⟩ := Framed.exists_text hf
    have hn := f.announced
    rw [hblock, hbody, contentLength_encode] at hn
    have hbody' : body = b.toList := Utf8.encode_inj (hbody.symm.trans hb)
    rw [hs, hc]
    simp only [hn]
    refine (if_pos rfl).trans ?_
    rw [hbody', String.ofList_toList]

theorem Decoder.pour_eq_one_iff {limits : Limits} {chunks : List Bytes} (body : Bytes)
    (hh : chunks.flatten.length ≤ limits.header) (hf : chunks.flatten.length ≤ limits.frame) :
    pour { limits } chunks = ([body], none, { limits }) ↔
      ∃ f : Framed, chunks.flatten = f.bytes ∧ f.body = body := by
  rw [pour_fresh]
  refine drain_eq_fresh_iff.trans ⟨?_, ?_⟩
  · rintro ⟨frames, hx, hb, -⟩
    obtain ⟨f, rfl, rfl⟩ := List.map_eq_singleton_iff.1 hb
    exact ⟨f, hx.trans (List.flatMap_singleton ..), rfl⟩
  · rintro ⟨f, hx, rfl⟩
    rw [hx, Framed.bytes, List.length_append] at hh hf
    refine ⟨[f], hx.trans (List.flatMap_singleton ..).symm, rfl, ?_⟩
    exact List.forall_mem_singleton.2
      ⟨Nat.le_trans (Nat.le_add_right _ _) hh, Nat.le_trans (Nat.le_add_left _ _) hf⟩

namespace WebSocket

variable {body : Bytes}

theorem decode_eq_ok_iff :
    decode t = .ok body ↔ ∃ s, strip t = .ok s ∧ Bytes.ofString s = body := by
  rw [decode]
  cases strip t with
  | error e => simp
  | ok s => simp

theorem encode_of_text (h : body.toString? = some s) (headers : Bool) :
    encode headers body = .ok (if headers then header body.length ++ s else s) := by
  rw [encode, h]

theorem not_bare_header (n : Nat) (s : String) : ¬Bare (header n ++ s) := by
  have hw : writtenName = 'C' :: "ontent-Length".toList := by decide
  obtain ⟨cs, hcs⟩ : ∃ cs, (header n ++ s).toList = 'C' :: cs :=
    ⟨_, by rw [String.toList_append, header_eq, block, hw]; rfl⟩
  have ht : Text.trimLeft ('C' :: cs) = 'C' :: cs := List.dropWhile_cons_of_neg (by decide)
  rw [Bare, hcs, ht]
  simp

theorem decode_header (h : body.toString? = some s) (hl : body.length < span 64) :
    decode (header body.length ++ s) = .ok body := by
  obtain rfl := Bytes.toString?_eq_some_iff.1 h
  refine decode_eq_ok_iff.2 ⟨s, (strip_eq_ok_iff (not_bare_header _ s)).2 ?_, rfl⟩
  refine ⟨Framed.ofBody (Bytes.ofString s) hl, ?_, rfl⟩
  rw [Framed.bytes_ofBody, Frame.encode, Bytes.ofString, String.toList_append, Utf8.encode_append]
  rfl

theorem decode_of_head (h : s.toList.head? = some '\x7b' ∨ s.toList.head? = some '[') :
    decode s = .ok (Bytes.ofString s) := by
  have ht : Text.trimLeft s.toList = s.toList := by
    cases hs : s.toList with
    | nil => rfl
    | cons c cs =>
        rw [hs] at h
        have hc : Text.isBlank c = false := by
          rcases h with h | h <;> cases h <;> rfl
        rw [Text.trimLeft, List.dropWhile_cons_of_neg (by simp [hc])]
  have hb : Bare s := by rwa [Bare, ht]
  refine decode_eq_ok_iff.2 ⟨s, ?_, rfl⟩
  rw [strip_of_bare hb, ht, String.ofList_toList]

theorem text_of_message (m : Message) :
    ∃ s : String, m.encode.toString? = some s ∧ s.toList.head? = some '\x7b' := by
  have ht : m.text.toList = m.toJson.chars := String.toList_ofList
  refine ⟨m.text, Bytes.toString?_eq_some_iff.2 ?_, ?_⟩
  · rw [Bytes.ofString, ht, Message.encode]
  · rw [ht]
    rfl

/-- What is written for a text is read back, with a header block and, where the text opens an object
or an array, without one; so is every message. And a text that opens none is taken as a stream of
its bytes is, as long as these keep to the limits: for the body of the one frame that they are. -/
theorem framed_alike :
    (∀ (body : Bytes) (s : String), body.toString? = some s →
      (body.length < span 64 → (encode true body >>= decode) = .ok body) ∧
      (s.toList.head? = some '\x7b' ∨ s.toList.head? = some '[' →
        (encode false body >>= decode) = .ok body)) ∧
    (∀ m : Message, (encode false m.encode >>= decode) = .ok m.encode) ∧
    ∀ (t : String) (limits : Limits) (chunks : List Bytes), ¬Bare t →
      chunks.flatten = Bytes.ofString t → (Bytes.ofString t).length ≤ limits.header →
      (Bytes.ofString t).length ≤ limits.frame →
      (∀ b, strip t = .ok b ↔
        Decoder.pour { limits } chunks = ([Bytes.ofString b], none, { limits })) ∧
      ∀ body, decode t = .ok body ↔
        Decoder.pour { limits } chunks = ([body], none, { limits }) := by
  have hbare {body : Bytes} {s : String} (h : body.toString? = some s)
      (hs : s.toList.head? = some '\x7b' ∨ s.toList.head? = some '[') :
      (encode false body >>= decode) = .ok body := by
    rw [encode_of_text h, Bytes.toString?_eq_some_iff.1 h]
    exact decode_of_head hs
  refine ⟨fun body s h => ⟨fun hl => ?_, hbare h⟩, fun m => ?_,
    fun t limits chunks ht hc hh hf => ?_⟩
  · rw [encode_of_text h]
    exact decode_header h hl
  · obtain ⟨s, h, hs⟩ := text_of_message m
    exact hbare h (.inl hs)
  · rw [← hc] at hh hf
    have hp (b : Bytes) := Decoder.pour_eq_one_iff b hh hf
    rw [hc] at hp
    refine ⟨fun b => (strip_eq_ok_iff ht).trans (hp _).symm, fun body => ?_⟩
    rw [decode_eq_ok_iff, hp]
    constructor
    · rintro ⟨s, hs, rfl⟩
      exact (strip_eq_ok_iff ht).1 hs
    · rintro ⟨f, hx, rfl⟩
      obtain ⟨block, body, -, -, hbody⟩ := Framed.exists_text hx
      have hs : Bytes.ofString (String.ofList body) = f.body := by
        rw [Bytes.ofString, String.toList_ofList, hbody]
      exact ⟨_, (strip_eq_ok_iff ht).2 ⟨f, hx, hs.symm⟩, hs⟩

theorem framed_alike_of_split :
    (encode true [0xC3, 0xA9] >>= decode) = .ok [0xC3, 0xA9] ∧
    (encode false [91, 93] >>= decode) = .ok [91, 93] ∧
    (strip "Content-Length: 2\r\n\r\né" = .ok "é" ↔
      Decoder.pour {} [Bytes.ofString (header 2) ++ [0xC3], [0xA9]] =
        ([Bytes.ofString "é"], none, {})) := by
  obtain ⟨hbody, -, htext⟩ := framed_alike
  refine ⟨(hbody _ "é" (by decide +kernel)).1 (by decide), ?_, ?_⟩
  · exact (hbody _ "[]" (by decide +kernel)).2 (.inr (by decide))
  · refine (htext _ {} _ ?_ (by decide +kernel) ?_ ?_).1 "é"
    · rw [Bare]
      decide +kernel
    · decide +kernel
    · decide +kernel

end WebSocket

end Frame

end Parley
