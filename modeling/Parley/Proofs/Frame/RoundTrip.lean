import Parley.Frame.Decoder
import Parley.Proofs.Frame.Header
import Parley.Settings.Basic

namespace Parley.Frame

theorem encode_eq (body : Bytes) :
    encode body = Utf8.encode (block body.length) ++ terminator ++ body := by
  rw [encode, header_bytes]

namespace Decoder

def receive (d : Decoder) : List Bytes → List Bytes × Option Error × Decoder
  | [] => ([], none, d)
  | chunk :: chunks =>
    match (d.feed chunk).drain with
    | (bodies, none, d) =>
      let (more, error, d) := receive d chunks
      (bodies ++ more, error, d)
    | stopped => stopped

/-- These limits are possible ones, and the bodies keep to them. Lengths are 64-bit numbers, that of
the longest frame too. -/
structure Admits (limits : Limits) (bodies : List Bytes) : Prop where
  block : Settings.leastHeaderBytes ≤ limits.header
  width : limits.frame < span 64
  length : ∀ b ∈ bodies, b.length ≤ limits.frame

def Awaits (d : Decoder) (coming : Bytes) (bodies : List Bytes) : Prop :=
  match d.mode with
  | .header => d.buffer ++ coming = bodies.flatMap encode
  | .body n => ∃ b bs, bodies = b :: bs ∧ n = b.length ∧
      d.buffer ++ coming = b ++ bs.flatMap encode

inductive Found (limits : Limits) (coming : Bytes) :
    List Bytes → Decoder × Except Error (Option Bytes) → Prop
  | frame {d b bs} : d.limits = limits → Awaits d coming bs →
      Found limits coming (b :: bs) (d, .ok (some b))
  | pending {d bodies} : d.limits = limits → Awaits d coming bodies →
      (coming = [] → bodies = [] ∧ d = { limits }) → Found limits coming bodies (d, .ok none)

variable {d : Decoder} {coming : Bytes} {bodies : List Bytes}

theorem Admits.left {limits : Limits} (taken : List Bytes) {left : List Bytes}
    (h : Admits limits (taken ++ left)) : Admits limits left where
  block := h.block
  width := h.width
  length := fun b hb => h.length b (List.mem_append_right _ hb)

theorem Found.takeBody {b : Bytes} {bs : List Bytes}
    (h : d.buffer ++ coming = b ++ bs.flatMap encode) :
    Found d.limits coming (b :: bs) (d.takeBody b.length) := by
  rw [Decoder.takeBody]
  split
  · next hs =>
    refine .pending rfl ⟨b, bs, rfl, rfl, h⟩ fun hc => ?_
    subst hc
    have := congrArg List.length h
    simp only [List.length_append, List.length_take, List.length_nil] at this hs
    omega
  · next hs =>
    have hl : b.length ≤ d.buffer.length := by
      simp only [List.length_take] at hs
      omega
    have ht : d.buffer.take b.length = b := by
      rw [← List.take_append_of_le_length hl, h, List.take_left]
    have hd : d.buffer.drop b.length ++ coming = bs.flatMap encode := by
      rw [← List.drop_append_of_le_length hl, h, List.drop_left]
    rw [ht]
    exact .frame rfl hd

theorem next_of_part {n : Nat} {x : Bytes} (hm : d.mode = .header) (hl : 64 ≤ d.limits.header)
    (hn : n < span 64) (hx : x ≠ []) (h : d.buffer ++ x = Utf8.encode (block n) ++ terminator) :
    d.next = (d, .ok none) := by
  have hc : Text.cut terminator d.buffer = none := Text.cut_eq_none (not_mem_block n) h hx
  have hs : d.buffer.length ≤ 40 := by
    have := congrArg List.length h
    have := length_block hn
    have ht : terminator.length = 4 := rfl
    simp only [List.length_append] at *
    omega
  simp only [Decoder.next, hm, hc]
  rw [if_neg (by omega)]

theorem next_of_whole {n : Nat} {rest : Bytes} (hm : d.mode = .header)
    (hl : 64 ≤ d.limits.header) (hn : n < span 64) (hf : n ≤ d.limits.frame)
    (h : d.buffer = Utf8.encode (block n) ++ terminator ++ rest) :
    d.next = { d with buffer := rest }.takeBody n := by
  have hc : Text.cut terminator d.buffer = some (Utf8.encode (block n), rest) :=
    h ▸ Text.cut_append (not_mem_block n)
  have hs := length_block hn
  have ht : terminator.length = 4 := rfl
  simp only [Decoder.next, hm, hc, contentLength_block hn]
  rw [if_neg (by omega), if_neg (by omega)]

theorem Found.next (ha : bodies ≠ [] → Admits d.limits bodies) (h : Awaits d coming bodies) :
    Found d.limits coming bodies d.next := by
  have hw := h
  unfold Awaits at h
  split at h
  · next hm =>
    cases bodies with
    | nil =>
        obtain ⟨hb, hc⟩ := List.append_eq_nil_iff.1 h
        have hd : d = { limits := d.limits } := by
          cases d
          cases hm
          cases hb
          rfl
        have hn : d.next = (d, .ok none) := by
          rw [hd]
          rfl
        rw [hn]
        exact .pending rfl hw fun _ => ⟨rfl, hd⟩
    | cons b bs =>
        have ha := ha (List.cons_ne_nil b bs)
        have hf := ha.length b List.mem_cons_self
        have hn : b.length < span 64 := Nat.lt_of_le_of_lt hf ha.width
        rw [List.flatMap_cons, encode_eq, List.append_assoc] at h
        -- The block has come in but for `x`, or it has come in and `y` behind it.
        rcases List.append_eq_append_iff.1 h with ⟨x, hx, hc⟩ | ⟨y, hb, hy⟩
        · cases x with
          | nil =>
              rw [List.append_nil] at hx
              rw [next_of_whole hm ha.block hn hf (by rw [List.append_nil, hx])]
              exact .takeBody (d := { d with buffer := [] }) hc
          | cons a x =>
              rw [next_of_part hm ha.block hn (List.cons_ne_nil a x) hx.symm]
              refine .pending rfl hw fun h0 => ?_
              rw [h0] at hc
              cases hc
        · rw [next_of_whole hm ha.block hn hf hb]
          exact .takeBody (d := { d with buffer := y }) hy.symm
  · next n hm =>
    obtain ⟨b, bs, rfl, rfl, hb⟩ := h
    rw [Decoder.next, hm]
    exact .takeBody hb

theorem drain_of_frame {d' : Decoder} {b : Bytes} (h : d.next = (d', .ok (some b))) :
    d.drain = (b :: d'.drain.1, d'.drain.2) := by
  rw [Decoder.drain]
  split
  · next d'' b' h' =>
    cases h.symm.trans h'
    rfl
  · next h' => cases h.symm.trans h'
  · next h' => cases h.symm.trans h'

theorem drain_of_pending {d' : Decoder} (h : d.next = (d', .ok none)) :
    d.drain = ([], none, d') := by
  rw [Decoder.drain]
  split
  · next h' => cases h.symm.trans h'
  · next h' =>
    cases h.symm.trans h'
    rfl
  · next h' => cases h.symm.trans h'

theorem drain_of_awaits (ha : Admits d.limits bodies) (h : Awaits d coming bodies) :
    ∃ taken left d', bodies = taken ++ left ∧ d.drain = (taken, none, d') ∧
      d'.limits = d.limits ∧ Awaits d' coming left ∧
      (coming = [] → left = [] ∧ d' = { limits := d.limits }) := by
  -- Every frame that is taken is the first of the bodies, so the induction is on these.
  induction bodies generalizing d with
  | nil =>
      cases hn : d.next with
      | mk d' r =>
          have hf := Found.next (fun _ => ha) h
          rw [hn] at hf
          cases hf with
          | pending hl hw he => exact ⟨[], [], d', rfl, drain_of_pending hn, hl, hw, he⟩
  | cons b bs ih =>
      cases hn : d.next with
      | mk d' r =>
          have hf := Found.next (fun _ => ha) h
          rw [hn] at hf
          cases hf with
          | pending hl hw he => exact ⟨[], b :: bs, d', rfl, drain_of_pending hn, hl, hw, he⟩
          | frame hl hw =>
              have ha' : Admits d'.limits bs := hl ▸ Admits.left [b] ha
              obtain ⟨taken, left, d'', rfl, hd, hl', hw', he⟩ := ih ha' hw
              refine ⟨b :: taken, left, d'', rfl, ?_, hl'.trans hl, hw', hl ▸ he⟩
              rw [drain_of_frame hn, hd]

theorem Awaits.feed {chunk : Bytes} (h : Awaits d (chunk ++ coming) bodies) :
    Awaits (d.feed chunk) coming bodies := by
  unfold Awaits at h ⊢
  simp only [Decoder.feed, List.append_assoc]
  exact h

/-- Frames that are written behind those that are awaited are awaited behind them. -/
theorem Awaits.more (h : Awaits d coming bodies) (more : List Bytes) :
    Awaits d (coming ++ more.flatMap encode) (bodies ++ more) := by
  unfold Awaits at h ⊢
  split at h
  · rw [← List.append_assoc, h, List.flatMap_append]
  · obtain ⟨b, bs, rfl, rfl, hb⟩ := h
    refine ⟨b, bs ++ more, rfl, rfl, ?_⟩
    rw [← List.append_assoc, hb, List.flatMap_append, List.append_assoc]

theorem receive_of_awaits {chunks : List Bytes} (ha : Admits d.limits bodies)
    (h : Awaits d chunks.flatten bodies)
    (he : chunks.flatten = [] → bodies = [] ∧ d = { limits := d.limits }) :
    d.receive chunks = (bodies, none, { limits := d.limits }) := by
  induction chunks generalizing d bodies with
  | nil =>
      obtain ⟨rfl, hd⟩ := he rfl
      rw [receive, ← hd]
  | cons chunk chunks ih =>
      have hw : Awaits (d.feed chunk) chunks.flatten bodies := Awaits.feed h
      obtain ⟨taken, left, d', rfl, hd, hl, hw', he'⟩ := drain_of_awaits (d := d.feed chunk) ha hw
      have hl' : d'.limits = d.limits := hl
      rw [receive, hd]
      simp only [ih (hl' ▸ ha.left taken) hw' (hl' ▸ he'), hl']

/-- Bodies that are written one after the other are read in that order, and nothing stays behind,
wherever the bytes are cut on their way. -/
theorem receive_encode (limits : Limits) (bodies chunks : List Bytes)
    (ha : Admits limits bodies) (h : chunks.flatten = bodies.flatMap encode) :
    receive { limits } chunks = (bodies, none, { limits }) := by
  refine receive_of_awaits (d := { limits }) ha h fun h0 => ⟨?_, rfl⟩
  cases bodies with
  | nil => rfl
  | cons b bs =>
      rw [h0, List.flatMap_cons, encode_eq] at h
      have ht := congrArg List.length h
      simp [terminator] at ht

theorem receive_encode_of_terminator :
    receive {} [[], (encode terminator).take 23, (encode terminator).drop 23 ++ [67], [],
      (encode []).drop 1] = ([terminator, []], none, {}) :=
  receive_encode {} [terminator, []] _ ⟨by decide, by decide, by decide⟩ (by decide +kernel)

end Decoder

end Parley.Frame
