import Parley.Frame.Decoder

namespace Parley.Dispatch

inductive Arrival
  | frame (body : Bytes)
  | broken (e : Frame.Error)
  | ended
  deriving DecidableEq, Repr

/-- The room of a buffer: how large it is, how much of it, from the front, has been given up, and
how much it holds. The rest is free. -/
structure Room where
  size : Nat := 8192
  spent : Nat := 0
  held : Nat := 0
  deriving DecidableEq, Repr, Inhabited

namespace Room

def free (r : Room) : Nat := r.size - r.spent - r.held

def hold (r : Room) (n : Nat) : Room := { r with held := r.held + n }

def pass (r : Room) (n : Nat) : Room := { r with spent := r.spent + n, held := r.held - n }

/-- Have room for `n` more bytes. What is held moves to the front if that is enough and there is not
much to move, and otherwise the buffer grows. -/
def reserve (r : Room) (n : Nat) : Room :=
  if n ≤ r.free then r
  else if r.held + n ≤ r.size ∧ r.held ≤ r.spent then { r with spent := 0 }
  else { r with size := max (2 * r.size) (r.spent + r.held + n) }

end Room

structure Inbound where
  decoder : Frame.Decoder := {}
  room : Room := {}
  dry : Bool := true
  stream : Bytes := []
  buffered : Nat := 0
  piped : Nat := 0
  beyond : Nat := 0
  closed : Bool := false
  deriving Repr, Inhabited

namespace Inbound

def pipeSize : Nat := 65536

def receive (i : Inbound) (bytes : Bytes) : Inbound :=
  { i with stream := i.stream ++ bytes, piped := i.piped + bytes.length }

def refill (i : Inbound) : Inbound :=
  let n := min (pipeSize - i.piped) i.beyond
  { i with piped := i.piped + n, beyond := i.beyond - n }

def accept (i : Inbound) (bytes : Bytes) : Inbound :=
  { i with stream := i.stream ++ bytes, beyond := i.beyond + bytes.length }.refill

def hangUp (i : Inbound) : Inbound := { i with closed := true }

def fill (i : Inbound) : Inbound :=
  let room := i.room.reserve 1
  let n := min room.free i.piped
  { i with
    room := room.hold n
    dry := false
    buffered := i.buffered + n
    piped := i.piped - n }

def feed (i : Inbound) : Inbound :=
  if i.buffered = 0 then i
  else
    { i with
      decoder := i.decoder.feed (i.stream.take i.buffered)
      stream := i.stream.drop i.buffered
      buffered := 0 }

def blockLength (d : Frame.Decoder) : Nat :=
  match d.mode with
  | .body _ => 0
  | .header =>
    match Text.cut Frame.terminator d.buffer with
    | some (block, _) => block.length + Frame.terminator.length
    | none => 0

def decoded (i : Inbound) (d : Frame.Decoder) (body : Bytes) : Inbound :=
  let announced := match i.decoder.mode, d.mode with
    | .body _, _ => 0
    | .header, .body n => n
    | .header, .header => body.length
  let room := (i.room.pass (blockLength i.decoder)).reserve announced
  { i with decoder := d, room := room.pass body.length }

def isShort (i : Inbound) : Bool :=
  match i.decoder.mode with
  | .header => false
  | .body n => i.room.held < n

def next? (i : Inbound) : Option (Inbound × Option Arrival) :=
  if i.dry then
    if 0 < i.piped then some (i.fill, none)
    else if !i.closed || 0 < i.beyond then none
    else if i.room.held = 0 then some (i, some .ended)
    else some (i, some (.broken .truncated))
  else if i.isShort then some ({ i with dry := true }, none)
  else
    let i := i.feed
    match i.decoder.next with
    | (d, .ok (some body)) => some (i.decoded d body, some (.frame body))
    | (d, .ok none) => some ({ i.decoded d [] with dry := true }, none)
    | (_, .error e) => some (i, some (.broken e))

end Inbound

end Parley.Dispatch
