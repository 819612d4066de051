import Parley.Decimal.Natural
import Parley.Json.Printer

namespace Parley

structure Ipv4 where
  octets : List Nat
  deriving DecidableEq, Repr, Inhabited

/-- Eight groups of sixteen bits. -/
structure Ipv6 where
  groups : List Nat
  deriving DecidableEq, Repr, Inhabited

inductive Address
  | v4 (ip : Ipv4) (port : Nat)
  | v6 (ip : Ipv6) (scope port : Nat)
  deriving DecidableEq, Repr, Inhabited

namespace Ipv4

def display (ip : Ipv4) : String := String.intercalate "." (ip.octets.map Decimal.ofNat)

end Ipv4

namespace Ipv6

def hex (n : Nat) : List Char :=
  if n < 16 then [Json.hexDigit n] else hex (n / 16) ++ [Json.hexDigit (n % 16)]
termination_by n

def joined (groups : List Nat) : String :=
  String.intercalate ":" (groups.map fun g => String.ofList (hex g))

def zeros : List Nat → Nat
  | 0 :: gs => zeros gs + 1
  | _ => 0

def longestRun : List Nat → Nat × Nat
  | [] => (0, 0)
  | g :: gs =>
    let (start, length) := longestRun gs
    let here := zeros (g :: gs)
    if here ≠ 0 ∧ length ≤ here then (0, here) else (start + 1, length)

def mapped? (ip : Ipv6) : Option Ipv4 :=
  match ip.groups with
  | [0, 0, 0, 0, 0, 0xFFFF, a, b] => some ⟨[a / 256, a % 256, b / 256, b % 256]⟩
  | _ => none

def display (ip : Ipv6) : String :=
  match ip.mapped? with
  | some v4 => "::ffff:" ++ v4.display
  | none =>
    let (start, length) := longestRun ip.groups
    if length < 2 then joined ip.groups
    else joined (ip.groups.take start) ++ "::" ++ joined (ip.groups.drop (start + length))

end Ipv6

namespace Address

def port : Address → Nat
  | v4 _ port => port
  | v6 _ _ port => port

def host : Address → String
  | v4 ip _ => ip.display
  | v6 ip _ _ => ip.display

def display : Address → String
  | v4 ip port => ip.display ++ ":" ++ Decimal.ofNat port
  | v6 ip scope port =>
    let zone := if scope = 0 then "" else "%" ++ Decimal.ofNat scope
    "[" ++ ip.display ++ zone ++ "]:" ++ Decimal.ofNat port

end Address

end Parley

namespace Parley.Address

abbrev Reader (α : Type) := List Char → Option (α × List Char)

def digitIn? (radix : Nat) (c : Char) : Option Nat :=
  let d :=
    if '0' ≤ c ∧ c ≤ '9' then c.toNat - 48
    else if 'a' ≤ c ∧ c ≤ 'z' then c.toNat - 87
    else if 'A' ≤ c ∧ c ≤ 'Z' then c.toNat - 55
    else radix
  if d < radix then some d else none

def spanDigits (radix : Nat) : List Char → List Nat × List Char
  | [] => ([], [])
  | c :: cs =>
    match digitIn? radix c with
    | some d => (d :: (spanDigits radix cs).1, (spanDigits radix cs).2)
    | none => ([], c :: cs)

/-- A number below `bound`. -/
def number (radix bound : Nat) : Reader Nat := fun cs =>
  match spanDigits radix cs with
  | ([], _) => none
  | (ds, rest) =>
    let n := ds.foldl (fun n d => n * radix + d) 0
    if n < bound then some (n, rest) else none

def symbol (c : Char) : Reader Unit
  | d :: cs => if c = d then some ((), cs) else none
  | [] => none

def octet : Reader Nat := fun cs =>
  match spanDigits 10 cs with
  | ([], _) => none
  | (0 :: _ :: _, _) => none
  | (ds, _) => if ds.length ≤ 3 then number 10 256 cs else none

def group : Reader Nat := fun cs =>
  let ds := (spanDigits 16 cs).1
  if ds.length ≤ 4 then number 16 65536 cs else none

def ipv4 : Reader Ipv4 := fun cs => do
  let (a, cs) ← octet cs
  let ((), cs) ← symbol '.' cs
  let (b, cs) ← octet cs
  let ((), cs) ← symbol '.' cs
  let (c, cs) ← octet cs
  let ((), cs) ← symbol '.' cs
  let (d, cs) ← octet cs
  some (⟨[a, b, c, d]⟩, cs)

def separated {α : Type} (first : Bool) (r : Reader α) : Reader α := fun cs =>
  if first then r cs else (symbol ':' cs).bind fun ((), cs) => r cs

/-- At most `limit` groups, whether the last two were an IPv4 address, and what follows. -/
def groups (first : Bool) : Nat → List Char → List Nat × Bool × List Char
  | 0, cs => ([], false, cs)
  | limit + 1, cs =>
    let embedded := if limit = 0 then none else separated first ipv4 cs
    match embedded with
    | some (⟨[a, b, c, d]⟩, rest) => ([a * 256 + b, c * 256 + d], true, rest)
    | _ =>
      match separated first group cs with
      | none => ([], false, cs)
      | some (g, rest) =>
        let (gs, embedded, rest) := groups false limit rest
        (g :: gs, embedded, rest)

def ipv6 : Reader Ipv6 := fun cs =>
  let (head, embedded, rest) := groups true 8 cs
  if head.length = 8 then some (⟨head⟩, rest)
  else if embedded then none
  else do
    let ((), rest) ← symbol ':' rest
    let ((), rest) ← symbol ':' rest
    let (tail, _, rest) := groups true (7 - head.length) rest
    some (⟨head ++ List.replicate (8 - head.length - tail.length) 0 ++ tail⟩, rest)

def port? (cs : List Char) : Option Nat := do
  let ((), cs) ← symbol ':' cs
  let (n, rest) ← number 10 65536 cs
  if rest.isEmpty then some n else none

def scope : Reader Nat
  | '%' :: cs => number 10 (span 32) cs
  | cs => some (0, cs)

def readV4? (cs : List Char) : Option Address := do
  let (ip, cs) ← ipv4 cs
  some (.v4 ip (← port? cs))

def readV6? (cs : List Char) : Option Address := do
  let ((), cs) ← symbol '[' cs
  let (ip, cs) ← ipv6 cs
  let (zone, cs) ← scope cs
  let ((), cs) ← symbol ']' cs
  some (.v6 ip zone (← port? cs))

def read? (text : String) : Option Address :=
  match readV4? text.toList with
  | some a => some a
  | none => readV6? text.toList

end Parley.Address
