import Parley.Text.Printable

namespace Parley.Text

def hexDigits (n : Nat) : List Char :=
  (Nat.toDigits 16 n)

def escape (c : Char) : List Char :=
  match c with
  | '"' => ['\\', '"']
  | '\\' => ['\\', '\\']
  | '\t' => ['\\', 't']
  | '\n' => ['\\', 'n']
  | '\r' => ['\\', 'r']
  | '\x00' => ['\\', '0']
  | c =>
    if c.toNat < 0x20 || (0x7F ≤ c.toNat && isHidden c) then
      ['\\', 'u', '\x7b'] ++ hexDigits c.toNat ++ ['\x7d']
    else [c]

def quoted (s : String) : String := String.ofList ('"' :: s.toList.flatMap escape ++ ['"'])

end Parley.Text

namespace Parley.Text

def sliceFrom? : Nat → List Char → Option (List Char)
  | 0, cs => some cs
  | _, [] => none
  | n, c :: cs => if c.utf8Size ≤ n then sliceFrom? (n - c.utf8Size) cs else none

def sliceTo? : Nat → List Char → Option (List Char)
  | 0, _ => some []
  | _, [] => none
  | n, c :: cs =>
    if c.utf8Size ≤ n then (sliceTo? (n - c.utf8Size) cs).map (c :: ·) else none

/-- An offset at which a text cannot be parted. -/
structure Cut where
  text : List Char
  offset : Nat
  deriving DecidableEq, Repr

def sliceFrom (first : Nat) (cs : List Char) : Except Cut (List Char) :=
  match sliceFrom? first cs with
  | some rest => .ok rest
  | none => .error ⟨cs, first⟩

def slice (first stop : Nat) (cs : List Char) : Except Cut (List Char) := do
  match sliceTo? (stop - first) (← sliceFrom first cs) with
  | some part => return part
  | none => throw ⟨cs, stop⟩

namespace Cut

def within? (offset : Nat) : Nat → List Char → Option (Char × Nat)
  | _, [] => none
  | i, c :: cs =>
    let next := i + c.utf8Size
    if offset < next then some (c, i) else within? offset next cs

def fitting : Nat → List Char → List Char
  | _, [] => []
  | n, c :: cs => if c.utf8Size ≤ n then c :: fitting (n - c.utf8Size) cs else []

def excerpt (x : Cut) : String :=
  let shown := fitting 256 x.text
  "\x60" ++ String.ofList shown ++ "\x60" ++ if shown.length < x.text.length then "[...]" else ""

def message (x : Cut) : String :=
  let place := "byte index " ++ toString x.offset ++ " is "
  match within? x.offset 0 x.text with
  | some (c, i) =>
    place ++ "not a char boundary; it is inside '" ++ String.ofList (escape c) ++ "' (bytes "
      ++ toString i ++ ".." ++ toString (i + c.utf8Size) ++ ") of " ++ x.excerpt
  | none => place ++ "out of bounds of " ++ x.excerpt

end Cut

end Parley.Text
