import Parley.Frame.Header

namespace Parley.Frame

/-- The longest header block, its terminator included, and the longest body. -/
structure Limits where
  header : Nat := 4096
  frame : Nat := 16777216
  deriving DecidableEq, Repr, Inhabited

inductive Mode
  | header
  | body (n : Nat)
  deriving DecidableEq, Repr, Inhabited

structure Decoder where
  limits : Limits := {}
  mode : Mode := .header
  buffer : Bytes := []
  deriving DecidableEq, Repr, Inhabited

namespace Decoder

def feed (d : Decoder) (chunk : Bytes) : Decoder := { d with buffer := d.buffer ++ chunk }

def takeBody (d : Decoder) (n : Nat) : Decoder × Except Error (Option Bytes) :=
  if (d.buffer.take n).length < n then ({ d with mode := .body n }, .ok none)
  else ({ d with mode := .header, buffer := d.buffer.drop n }, .ok (some (d.buffer.take n)))

/-- Take one frame off the buffer. That room is reserved for a body once it is announced is left
out: that panics for a length of 2^63 bytes and more, or where memory runs out, and only a limit on
frames that is as large lets such a length pass. -/
def next (d : Decoder) : Decoder × Except Error (Option Bytes) :=
  match d.mode with
  | .body n => d.takeBody n
  | .header =>
    match Text.cut terminator d.buffer with
    | none =>
      if d.limits.header < d.buffer.length then (d, .error (.headerTooLong d.limits.header))
      else (d, .ok none)
    | some (block, rest) =>
      if d.limits.header < block.length + terminator.length then
        (d, .error (.headerTooLong d.limits.header))
      else
        match contentLength block with
        | .error e => (d, .error e)
        | .ok n =>
          if d.limits.frame < n then (d, .error (.tooLarge n d.limits.frame))
          else { d with buffer := rest }.takeBody n

def size (d : Decoder) : Nat := 2 * d.buffer.length + if d.mode = .header then 0 else 1

theorem size_takeBody {d d' : Decoder} {n : Nat} {body : Bytes}
    (h : d.takeBody n = (d', .ok (some body))) : d'.size ≤ 2 * d.buffer.length := by
  rw [takeBody] at h
  split at h
  · simp at h
  · obtain ⟨rfl, -⟩ := Prod.mk.injEq .. ▸ h
    have := List.length_drop (i := n) (l := d.buffer)
    simp only [size, if_pos]
    omega

theorem size_next {d d' : Decoder} {body : Bytes} (h : d.next = (d', .ok (some body))) :
    d'.size < d.size := by
  rw [next] at h
  split at h
  · next n hm =>
    have := size_takeBody h
    simp [size, hm] at this ⊢
    omega
  · next hm =>
    split at h
    · split at h <;> simp at h
    · next block rest hc =>
      have hl := Text.length_cut hc
      split at h
      · simp at h
      · split at h
        · simp at h
        · split at h
          · simp at h
          · have := size_takeBody h
            simp [size, hm, terminator] at this hl ⊢
            omega

def drain (d : Decoder) : List Bytes × Option Error × Decoder :=
  match _h : d.next with
  | (d', .ok (some body)) =>
    let (bodies, error, rest) := drain d'
    (body :: bodies, error, rest)
  | (d', .ok none) => ([], none, d')
  | (d', .error e) => ([], some e, d')
termination_by d.size
decreasing_by exact size_next _h

def finish (d : Decoder) : List Bytes × Option Error × Decoder :=
  match d.drain with
  | (bodies, none, rest) =>
    (bodies, if rest.buffer.isEmpty then none else some .truncated, rest)
  | stopped => stopped

end Decoder

end Parley.Frame
