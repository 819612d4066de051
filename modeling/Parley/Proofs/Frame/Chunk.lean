import Parley.Frame.Decoder
import Parley.Proofs.Frame.RoundTrip
import Parley.Proofs.Text.Split

namespace Parley.Frame

namespace Decoder

variable {d d' : Decoder} {y : Bytes} {n : Nat} {b : Bytes} {bodies : List Bytes} {e : Error}

theorem feed_feed (d : Decoder) (x y : Bytes) : (d.feed x).feed y = d.feed (x ++ y) := by
  simp [feed]

theorem feed_nil (d : Decoder) : d.feed [] = d := by
  simp [feed]

/-- Every chunk that comes in, also behind an error. After each, frames are taken until none is
whole or an error comes: the frames before the first error, and that error. -/
def pour (d : Decoder) : List Bytes → List Bytes × Option Error × Decoder
  | [] => ([], none, d)
  | chunk :: chunks =>
    let (bodies, error, d) := (d.feed chunk).drain
    let (more, later, d) := pour d chunks
    match error with
    | none => (bodies ++ more, later, d)
    | some e => (bodies, some e, d)

def Agrees (y : Bytes) (r s : Decoder × Except Error (Option Bytes)) : Prop :=
  match r with
  | (d', .ok none) => (d'.feed y).next = s
  | (d', found) => s = (d'.feed y, found)

theorem agrees_takeBody (d : Decoder) (n : Nat) (y : Bytes) :
    Agrees y (d.takeBody n) ((d.feed y).takeBody n) := by
  rw [takeBody]
  split
  · rfl
  · next h =>
    have hl : n ≤ d.buffer.length := by
      simp only [List.length_take] at h
      omega
    change (d.feed y).takeBody n = _
    rw [takeBody]
    simp [feed, List.take_append_of_le_length hl, List.drop_append_of_le_length hl, hl]

theorem next_of_body (hm : d.mode = .body n) : d.next = d.takeBody n := by
  rw [next, hm]

theorem next_of_no_block (hm : d.mode = .header) (hc : Text.cut terminator d.buffer = none) :
    d.next = if d.limits.header < d.buffer.length then
      (d, .error (.headerTooLong d.limits.header)) else (d, .ok none) := by
  simp only [next, hm, hc]

theorem next_of_block {block rest : Bytes} (hm : d.mode = .header)
    (hc : Text.cut terminator d.buffer = some (block, rest)) :
    d.next = if d.limits.header < block.length + terminator.length then
        (d, .error (.headerTooLong d.limits.header))
      else
        match contentLength block with
        | .error e => (d, .error e)
        | .ok n =>
          if d.limits.frame < n then (d, .error (.tooLarge n d.limits.frame))
          else { d with buffer := rest }.takeBody n := by
  cases hl : contentLength block <;> simp only [next, hm, hc, hl]

theorem next_of_overlong (hm : d.mode = .header) (hc : Text.cut terminator d.buffer = none)
    (hl : d.limits.header < d.buffer.length) :
    (d.feed y).next = (d.feed y, .error (.headerTooLong d.limits.header)) := by
  -- The end that `y` brings stands behind what is too long already.
  cases h : Text.cut terminator (d.buffer ++ y) with
  | none =>
      have hl' : d.limits.header < (d.buffer ++ y).length := by
        rw [List.length_append]
        omega
      rw [next_of_no_block (d := d.feed y) hm h]
      exact if_pos hl'
  | some p =>
      obtain ⟨block, rest⟩ := p
      have hl' : d.limits.header < block.length + terminator.length :=
        Nat.lt_trans hl (Text.length_lt_of_cut hc h)
      rw [next_of_block (d := d.feed y) hm h]
      exact if_pos hl'

theorem agrees_next (d : Decoder) (y : Bytes) : Agrees y d.next (d.feed y).next := by
  cases hm : d.mode with
  | body n =>
      rw [next_of_body hm, next_of_body (d := d.feed y) hm]
      exact agrees_takeBody d n y
  | header =>
      cases hc : Text.cut terminator d.buffer with
      | none =>
          rw [next_of_no_block hm hc]
          split
          · next hl => exact next_of_overlong hm hc hl
          · rfl
      | some p =>
          obtain ⟨block, rest⟩ := p
          rw [next_of_block hm hc, next_of_block (d := d.feed y) hm (Text.cut_append_rest hc)]
          by_cases hl : d.limits.header < block.length + terminator.length
          · rw [if_pos hl]
            exact if_pos hl
          · rw [if_neg hl, if_neg (show ¬(d.feed y).limits.header < _ from hl)]
            cases contentLength block with
            | error e => rfl
            | ok n =>
                by_cases hf : d.limits.frame < n
                · simp only [if_pos hf]
                  exact if_pos hf
                · simp only [if_neg hf]
                  rw [if_neg (show ¬(d.feed y).limits.frame < n from hf)]
                  exact agrees_takeBody { d with buffer := rest } n y

theorem next_feed_of_frame (h : d.next = (d', .ok (some b))) :
    (d.feed y).next = (d'.feed y, .ok (some b)) := by
  have ha := agrees_next d y
  rwa [h] at ha

theorem next_feed_of_pending (h : d.next = (d', .ok none)) :
    (d'.feed y).next = (d.feed y).next := by
  have ha := agrees_next d y
  rwa [h] at ha

theorem next_feed_of_error (h : d.next = (d', .error e)) :
    (d.feed y).next = (d'.feed y, .error e) := by
  have ha := agrees_next d y
  rwa [h] at ha

theorem takeBody_ne_error : d.takeBody n ≠ (d', .error e) := by
  rw [takeBody]
  split <;> simp

theorem next_of_error (h : d.next = (d', .error e)) : d' = d := by
  rw [next] at h
  split at h
  · exact absurd h takeBody_ne_error
  · split at h
    · split at h <;> simp_all
    · split at h
      · simp_all
      · split at h
        · simp_all
        · split at h
          · simp_all
          · exact absurd h takeBody_ne_error

theorem drain_of_error (h : d.next = (d', .error e)) : d.drain = ([], some e, d') := by
  rw [drain]
  split
  · next h' => cases h.symm.trans h'
  · next h' => cases h.symm.trans h'
  · next h' =>
    cases h.symm.trans h'
    rfl

theorem drain_congr (h : d.next = d'.next) : d.drain = d'.drain := by
  rw [drain, drain, h]

/-- Taking what is whole before more comes in makes no difference, and once an error has come
nothing does. -/
theorem drain_feed (d : Decoder) (y : Bytes) :
    (d.feed y).drain =
      match d.drain with
      | (bodies, none, d') => (bodies ++ (d'.feed y).drain.1, (d'.feed y).drain.2)
      | (bodies, some e, d') => (bodies, some e, d'.feed y) := by
  -- The induction is on the frames that are whole before `y` comes in.
  fun_induction drain d with
  | case1 d d' body h bodies error rest hd ih =>
      rw [drain_of_frame (next_feed_of_frame h), ih, hd]
      cases error <;> rfl
  | case2 d d' h =>
      rw [drain_congr (next_feed_of_pending h).symm]
      rfl
  | case3 d d' e h => rw [drain_of_error (next_feed_of_error h)]

theorem drain_of_drain_error (h : d.drain = (bodies, some e, d')) : d'.next = (d', .error e) := by
  fun_induction drain d generalizing bodies with
  | case1 d d' body hn bodies error rest hd ih =>
      cases h
      exact ih hd
  | case2 => cases h
  | case3 d d' e hn =>
      cases h
      obtain rfl := next_of_error hn
      exact hn

theorem pour_of_error (h : d.next = (d, .error e)) (chunks : List Bytes) :
    (d.pour chunks).2.2 = d.feed chunks.flatten := by
  induction chunks generalizing d with
  | nil => exact (feed_nil d).symm
  | cons chunk chunks ih =>
      have hf := next_feed_of_error (y := chunk) h
      rw [pour, drain_of_error hf]
      change ((d.feed chunk).pour chunks).2.2 = _
      rw [ih hf, feed_feed, List.flatten_cons]

theorem pour_cons (d : Decoder) (chunk : Bytes) (chunks : List Bytes) :
    d.pour (chunk :: chunks) = (d.feed (chunk ++ chunks.flatten)).drain := by
  induction chunks generalizing d chunk with
  | nil =>
      rw [pour, List.flatten_nil, List.append_nil]
      rcases (d.feed chunk).drain with ⟨bodies, error, d'⟩
      cases error <;> simp [pour]
  | cons next chunks ih =>
      rw [← feed_feed, drain_feed, pour, List.flatten_cons]
      rcases hd : (d.feed chunk).drain with ⟨bodies, error, d'⟩
      cases error with
      | none => simp only [ih]
      | some e => simp only [pour_of_error (drain_of_drain_error hd), List.flatten_cons]

theorem drain_fresh (limits : Limits) : drain { limits } = ([], none, { limits }) :=
  drain_of_pending rfl

theorem pour_fresh (limits : Limits) (chunks : List Bytes) :
    pour { limits } chunks = (feed { limits } chunks.flatten).drain := by
  cases chunks with
  | nil => rw [List.flatten_nil, feed_nil, drain_fresh, pour]
  | cons chunk chunks => exact pour_cons _ chunk chunks

/-- A stream comes to the same frames, the same first error if there is one, and the same decoder in
the end, in whatever chunks it comes. And an error leaves the decoder as it was before it looked,
and comes again, whatever more comes in. -/
theorem pour_eq_of_flatten_eq :
    (∀ (limits : Limits) (chunks chunks' : List Bytes), chunks.flatten = chunks'.flatten →
      pour { limits } chunks = pour { limits } chunks') ∧
    ∀ (d d' : Decoder) (e : Error), d.next = (d', .error e) →
      d' = d ∧ ∀ y, (d.feed y).next = (d.feed y, .error e) := by
  refine ⟨fun limits chunks chunks' h => ?_, fun d d' e h => ?_⟩
  · rw [pour_fresh, pour_fresh, h]
  · obtain rfl := next_of_error h
    exact ⟨rfl, fun y => next_feed_of_error h⟩

def overlong : Decoder := { limits := { header := 16 }, buffer := List.replicate 17 120 }

theorem pour_eq_of_overlong :
    pour { limits := overlong.limits } [overlong.buffer.take 9, [], overlong.buffer.drop 9 ++
      terminator] = pour { limits := overlong.limits } [overlong.buffer ++ terminator] ∧
    (overlong.feed terminator).next = (overlong.feed terminator, .error (.headerTooLong 16)) := by
  have hn : overlong.next = (overlong, .error (.headerTooLong 16)) := rfl
  exact ⟨pour_eq_of_flatten_eq.1 _ _ _ (by decide +kernel),
    (pour_eq_of_flatten_eq.2 _ _ _ hn).2 terminator⟩

end Decoder

end Parley.Frame
