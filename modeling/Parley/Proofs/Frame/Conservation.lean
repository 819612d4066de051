import Parley.Proofs.Frame.Ending

namespace Parley.Frame

namespace Decoder

variable {d : Decoder} {limits : Limits} {bytes head rest : Bytes} {bodies : List Bytes} {n : Nat}

def given : Except Error (Option Bytes) → List Bytes
  | .ok (some body) => [body]
  | _ => []

/-- `bytes` have come in, `bodies` have been given out, and the decoder is as it is after that. It
may look at its buffer at any time, also behind an error. -/
inductive Reads (limits : Limits) : Bytes → List Bytes → Decoder → Prop
  | start : Reads limits [] [] { limits }
  | feed {bytes : Bytes} {bodies : List Bytes} {d : Decoder} (chunk : Bytes) :
      Reads limits bytes bodies d → Reads limits (bytes ++ chunk) bodies (d.feed chunk)
  | look {bytes : Bytes} {bodies : List Bytes} {d : Decoder} :
      Reads limits bytes bodies d → Reads limits bytes (bodies ++ given d.next.2) d.next.1

inductive Opened (limits : Limits) : Mode → Bytes → Prop
  | header : Opened limits .header []
  | body {block : Bytes} {n : Nat} :
      (∀ x y, block ++ terminator = x ++ terminator ++ y → y = []) →
      contentLength block = .ok n → (block ++ terminator).length ≤ limits.header →
      n ≤ limits.frame → Opened limits (.body n) (block ++ terminator)

theorem Opened.length_le (h : Opened limits (.body n) head) : n ≤ limits.frame := by
  cases h with
  | body _ _ _ hf => exact hf

theorem Opened.exists_framed {body : Bytes} (h : Opened limits (.body body.length) head) :
    ∃ f : Framed, f.head = head ∧ f.body = body ∧ f.Fits limits := by
  cases h with
  | @body block _ hfirst hn hh hf => exact ⟨⟨block, body, hfirst, hn⟩, rfl, rfl, hh, hf⟩

structure Accounts (limits : Limits) (bytes : Bytes) (bodies : List Bytes) (d : Decoder) :
    Prop where
  same : d.limits = limits
  parts : ∃ frames : List Framed, ∃ head, frames.map Framed.body = bodies ∧
    (∀ f ∈ frames, f.Fits limits) ∧ Opened limits d.mode head ∧
    bytes = frames.flatMap Framed.bytes ++ head ++ d.buffer

def Bounded (limits : Limits) (d : Decoder) : Prop :=
  match d.mode with
  | .header => d.buffer.length ≤ limits.header ∧ ¬terminator <:+: d.buffer
  | .body n => n ≤ limits.frame ∧ d.buffer.length < n

theorem takeBody_cases (d : Decoder) (n : Nat) :
    (d.buffer.length < n ∧ d.takeBody n = ({ d with mode := .body n }, .ok none)) ∨
    ∃ body rest, body.length = n ∧ d.buffer = body ++ rest ∧
      d.takeBody n = ({ d with mode := .header, buffer := rest }, .ok (some body)) := by
  rcases Nat.lt_or_ge d.buffer.length n with hl | hl
  · have ht : (d.buffer.take n).length < n :=
      Nat.lt_of_le_of_lt (List.length_take_le' n d.buffer) hl
    exact .inl ⟨hl, by rw [takeBody, if_pos ht]⟩
  · have ht : (d.buffer.take n).length = n := List.length_take_of_le hl
    refine .inr ⟨_, _, ht, (List.take_append_drop n d.buffer).symm, ?_⟩
    rw [takeBody, if_neg (Nat.not_lt.2 (Nat.le_of_eq ht.symm))]

inductive Look (d : Decoder) : Prop
  | body (n : Nat) : d.mode = .body n → d.next = d.takeBody n → Look d
  | opened (n : Nat) (head rest : Bytes) : d.mode = .header → Opened d.limits (.body n) head →
      d.buffer = head ++ rest →
      d.next = takeBody { d with mode := .body n, buffer := rest } n → Look d
  | pending : d.mode = .header → d.buffer.length ≤ d.limits.header →
      ¬terminator <:+: d.buffer → d.next = (d, .ok none) → Look d
  | error (e : Error) : d.next = (d, .error e) → Look d

theorem look_of_block {block : Bytes} (hm : d.mode = .header)
    (hc : Text.cut terminator d.buffer = some (block, rest)) : Look d := by
  obtain ⟨hbuffer, hfirst⟩ := Text.cut_eq_some_iff.1 hc
  have hnext := next_of_block hm hc
  by_cases hl : d.limits.header < block.length + terminator.length
  · rw [if_pos hl] at hnext
    exact .error _ hnext
  · rw [if_neg hl] at hnext
    rw [← List.length_append] at hl
    cases hn : contentLength block with
    | error e =>
        rw [hn] at hnext
        exact .error e hnext
    | ok n =>
        rw [hn] at hnext
        by_cases hf : d.limits.frame < n
        · exact .error _ (hnext.trans (if_pos hf))
        · have ho : Opened d.limits (.body n) (block ++ terminator) :=
            .body hfirst hn (Nat.le_of_not_lt hl) (Nat.le_of_not_lt hf)
          exact .opened n _ rest hm ho hbuffer (hnext.trans (if_neg hf))

theorem look (d : Decoder) : Look d := by
  cases hm : d.mode with
  | body n => exact .body n hm (next_of_body hm)
  | header =>
      cases hc : Text.cut terminator d.buffer with
      | some p => exact look_of_block hm hc
      | none =>
          have hnext := next_of_no_block hm hc
          by_cases hl : d.limits.header < d.buffer.length
          · exact .error _ (hnext.trans (if_pos hl))
          · exact .pending hm (Nat.le_of_not_lt hl) (Text.cut_eq_none_iff.1 hc)
              (hnext.trans (if_neg hl))

namespace Accounts

theorem start (limits : Limits) : Accounts limits [] [] { limits } :=
  ⟨rfl, [], [], rfl, nofun, .header, rfl⟩

theorem feed (h : Accounts limits bytes bodies d) (chunk : Bytes) :
    Accounts limits (bytes ++ chunk) bodies (d.feed chunk) := by
  obtain ⟨hl, frames, head, hb, hfits, ho, rfl⟩ := h
  exact ⟨hl, frames, head, hb, hfits, ho, List.append_assoc _ d.buffer chunk⟩

theorem opened (h : Accounts limits bytes bodies d) (hm : d.mode = .header)
    (ho : Opened d.limits (.body n) head) (hb : d.buffer = head ++ rest) :
    Accounts limits bytes bodies { d with mode := .body n, buffer := rest } := by
  obtain ⟨rfl, frames, head', hbodies, hfits, ho', rfl⟩ := h
  rw [hm] at ho'
  cases ho'
  refine ⟨rfl, frames, head, hbodies, hfits, ho, ?_⟩
  rw [hb, List.append_nil, List.append_assoc]

theorem body {body : Bytes} (h : Accounts limits bytes bodies d)
    (hm : d.mode = .body body.length) (hb : d.buffer = body ++ rest) :
    Accounts limits bytes (bodies ++ [body]) { d with mode := .header, buffer := rest } := by
  obtain ⟨hl, frames, head, rfl, hfits, ho, rfl⟩ := h
  rw [hm] at ho
  obtain ⟨f, rfl, rfl, hf⟩ := ho.exists_framed
  refine ⟨hl, frames ++ [f], [], List.map_append, ?_, .header, ?_⟩
  · exact List.forall_mem_append.2 ⟨hfits, List.forall_mem_singleton.2 hf⟩
  · simp [hb, Framed.bytes]

theorem length_le (h : Accounts limits bytes bodies d) (hm : d.mode = .body n) :
    n ≤ limits.frame := by
  obtain ⟨-, frames, head, -, -, ho, -⟩ := h
  rw [hm] at ho
  exact ho.length_le

theorem bodies_le (h : Accounts limits bytes bodies d) :
    ∀ body ∈ bodies, body.length ≤ limits.frame := by
  obtain ⟨-, frames, -, rfl, hfits, -, -⟩ := h
  exact List.forall_mem_map.2 fun f hf => (hfits f hf).frame

theorem kept {r : Except Error (Option Bytes)} (h : Accounts limits bytes bodies d)
    (hr : given r = []) : Accounts limits bytes (bodies ++ given r) d := by
  rwa [hr, List.append_nil]

theorem takeBody (h : Accounts limits bytes bodies d) (hm : d.mode = .body n) :
    Accounts limits bytes (bodies ++ given (d.takeBody n).2) (d.takeBody n).1 ∧
      ((d.takeBody n).2 = .ok none → (d.takeBody n).1.Bounded limits) := by
  rcases d.takeBody_cases n with ⟨hl, ht⟩ | ⟨body, rest, rfl, hb, ht⟩
  · rw [ht, ← hm]
    refine ⟨h.kept rfl, fun _ => ?_⟩
    rw [Bounded, hm]
    exact ⟨h.length_le hm, hl⟩
  · rw [ht]
    exact ⟨h.body hm hb, fun he => by cases he⟩

theorem next (h : Accounts limits bytes bodies d) :
    Accounts limits bytes (bodies ++ given d.next.2) d.next.1 ∧
      (d.next.2 = .ok none → d.next.1.Bounded limits) := by
  cases d.look with
  | body n hm hn =>
      rw [hn]
      exact h.takeBody hm
  | opened n head rest hm ho hb hn =>
      rw [hn]
      exact (h.opened hm ho hb).takeBody rfl
  | pending hm hl hc hn =>
      rw [hn]
      refine ⟨h.kept rfl, fun _ => ?_⟩
      rw [Bounded, hm]
      exact ⟨h.same ▸ hl, hc⟩
  | error e hn =>
      rw [hn]
      exact ⟨h.kept rfl, fun he => by cases he⟩

theorem drain (h : Accounts limits bytes bodies d) :
    Accounts limits bytes (bodies ++ d.drain.1) d.drain.2.2 ∧
      (d.drain.2.1 = none → d.drain.2.2.Bounded limits) := by
  obtain ⟨ha, hb⟩ := h.next
  -- The induction is on the frames that are whole.
  fun_induction Decoder.drain d generalizing bodies with
  | case1 d d' body hn more error rest hd ih =>
      rw [hn] at ha
      rw [hd] at ih
      have hi := ih ha ha.next.1 ha.next.2
      rwa [List.append_assoc] at hi
  | case2 d d' hn =>
      rw [hn] at ha hb
      exact ⟨ha, fun _ => hb rfl⟩
  | case3 d d' e hn =>
      rw [hn] at ha
      exact ⟨ha, fun he => by cases he⟩

end Accounts

theorem Reads.accounts (h : Reads limits bytes bodies d) : Accounts limits bytes bodies d := by
  induction h with
  | start => exact .start limits
  | feed chunk _ ih => exact ih.feed chunk
  | look _ ih => exact ih.next.1

/-- The bytes that have come in are the frames that were given out, a header block that waits for
its body, and the buffer. No frame is longer than the limit, and where the decoder asks for more,
the limits bound what it holds. -/
theorem Reads.conserved (h : Reads limits bytes bodies d) :
    (∃ frames : List Framed, ∃ head, frames.map Framed.body = bodies ∧
      (∀ f ∈ frames, f.Fits limits) ∧ Opened limits d.mode head ∧
      bytes = frames.flatMap Framed.bytes ++ head ++ d.buffer) ∧
    (∀ body ∈ bodies ++ d.drain.1, body.length ≤ limits.frame) ∧
    (d.drain.2.1 = none → d.drain.2.2.Bounded limits) := by
  obtain ⟨ha, hb⟩ := h.accounts.drain
  exact ⟨h.accounts.parts, ha.bodies_le, hb⟩

def refusing : Decoder := { limits := { frame := 2 }, buffer := Bytes.ofString (header 3) }

/-- A whole frame has been given out, and the look behind it came to an error. -/
theorem conserved_of_refusing :
    refusing.drain.2.1 = some (.tooLarge 3 2) ∧
    Reads refusing.limits (encode [104, 105] ++ refusing.buffer) [[104, 105]] refusing ∧
    ∃ frames : List Framed, frames.map Framed.body = [[104, 105]] ∧
      encode [104, 105] ++ refusing.buffer = frames.flatMap Framed.bytes ++ refusing.buffer := by
  let stream := encode [104, 105] ++ refusing.buffer
  have hfed : Reads refusing.limits stream [] (holding refusing.limits stream) :=
    Reads.start.feed stream
  obtain ⟨hgiven, hnext⟩ : given (holding refusing.limits stream).next.2 = [[104, 105]] ∧
      (holding refusing.limits stream).next.1 = refusing := by decide +kernel
  have hframe := hfed.look
  rw [hgiven, hnext] at hframe
  obtain ⟨hnone, hsame⟩ : given refusing.next.2 = [] ∧ refusing.next.1 = refusing := by
    decide +kernel
  have herror := hframe.look
  rw [hnone, hsame] at herror
  obtain ⟨⟨frames, head, hb, -, ho, hbytes⟩, -⟩ := herror.conserved
  cases ho
  exact ⟨by decide +kernel, herror, frames, hb, by rwa [List.append_nil] at hbytes⟩

end Decoder

end Parley.Frame
