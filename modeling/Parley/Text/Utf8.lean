namespace Parley

abbrev Bytes := List UInt8

namespace Utf8

inductive Glyph
  | char (c : Char)
  | stray (b : UInt8)
  deriving DecidableEq, Repr, Inhabited

def encodeChar (c : Char) : Bytes :=
  let n := c.toNat
  if n < 0x80 then [UInt8.ofNat n]
  else if n < 0x800 then [UInt8.ofNat (0xC0 + n / 64), UInt8.ofNat (0x80 + n % 64)]
  else if n < 0x10000 then
    [UInt8.ofNat (0xE0 + n / 4096), UInt8.ofNat (0x80 + n / 64 % 64), UInt8.ofNat (0x80 + n % 64)]
  else
    [UInt8.ofNat (0xF0 + n / 262144), UInt8.ofNat (0x80 + n / 4096 % 64),
      UInt8.ofNat (0x80 + n / 64 % 64), UInt8.ofNat (0x80 + n % 64)]

def encode (cs : List Char) : Bytes := cs.flatMap encodeChar

def tail? (b : UInt8) : Option Nat :=
  if 0x80 ≤ b.toNat ∧ b.toNat < 0xC0 then some (b.toNat - 0x80) else none

def scalar? (least n : Nat) : Option Char :=
  if h : least ≤ n ∧ n.isValidChar then some (Char.ofNatAux n h.2) else none

def lead? (a : UInt8) (rest : Bytes) : Option (Char × Nat) :=
  let n := a.toNat
  if n < 0x80 then (scalar? 0 n).map (·, 0)
  else if n < 0xC0 then none
  else if n < 0xE0 then
    match rest with
    | b :: _ => do
      let x ← tail? b
      (scalar? 0x80 ((n - 0xC0) * 64 + x)).map (·, 1)
    | _ => none
  else if n < 0xF0 then
    match rest with
    | b :: c :: _ => do
      let x ← tail? b
      let y ← tail? c
      (scalar? 0x800 (((n - 0xE0) * 64 + x) * 64 + y)).map (·, 2)
    | _ => none
  else if n < 0xF8 then
    match rest with
    | b :: c :: d :: _ => do
      let x ← tail? b
      let y ← tail? c
      let z ← tail? d
      (scalar? 0x10000 ((((n - 0xF0) * 64 + x) * 64 + y) * 64 + z)).map (·, 3)
    | _ => none
  else none

def glyphsFrom : Nat → Bytes → List Glyph
  | _, [] => []
  | k + 1, _ :: rest => glyphsFrom k rest
  | 0, a :: rest =>
    match lead? a rest with
    | some (c, k) => .char c :: glyphsFrom k rest
    | none => .stray a :: glyphsFrom 0 rest

def glyphs (bs : Bytes) : List Glyph := glyphsFrom 0 bs

def Glyph.char? : Glyph → Option Char
  | .char c => some c
  | .stray _ => none

def decode? (bs : Bytes) : Option (List Char) := (glyphs bs).mapM Glyph.char?

end Utf8

def Bytes.ofString (s : String) : Bytes := Utf8.encode s.toList

/-- The text that the bytes spell, if they spell one. -/
def Bytes.toString? (bs : Bytes) : Option String := (Utf8.decode? bs).map String.ofList

end Parley
