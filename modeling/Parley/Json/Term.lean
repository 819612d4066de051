import Parley.Json.Basic
import Parley.Text.Utf8

namespace Parley.Json

open Utf8 (Glyph)

structure Numeral where
  negative : Bool
  whole : List Nat
  fraction : List Nat
  exponent : Option Int
  deriving DecidableEq, Repr, Inhabited

/-- A piece of a string literal: a character, a `\u` escape, or a byte that spells nothing. -/
inductive Piece
  | char (c : Char)
  | unit (n : Nat)
  | stray (b : UInt8)
  deriving DecidableEq, Repr, Inhabited

abbrev Literal := List Piece

inductive Term
  | null
  | bool (b : Bool)
  | number (n : Numeral)
  | string (s : Literal)
  | array (items : List Term)
  | object (members : List (Literal × Term))
  deriving Repr, Inhabited

namespace Numeral

def absorb : Nat → List Nat → Nat × List Nat
  | n, [] => (n, [])
  | n, d :: ds => if n * 10 + d < span 64 then absorb (n * 10 + d) ds else (n, d :: ds)

def scaled (x : Numeral) : Nat × Int :=
  let (n, dropped) := absorb 0 x.whole
  let (m, unread) := absorb n x.fraction
  (m, dropped.length - (x.fraction.length - unread.length : Nat) + x.exponent.getD 0)

def isInteger (x : Numeral) : Bool :=
  x.fraction.isEmpty && x.exponent.isNone && (absorb 0 x.whole).2.isEmpty

def toFloat? (x : Numeral) : Option Decimal.Binary64 :=
  let (s, e) := x.scaled
  (Decimal.Binary64.ofScaled? (UInt64.ofNat s) e).map fun f => if x.negative then f.neg else f

def toJson? (x : Numeral) : Option Json :=
  let n := (absorb 0 x.whole).1
  if x.isInteger && !x.negative then some (.int n)
  else if x.isInteger && 0 < n && n ≤ span 63 then some (.int (-(n : Int)))
  else x.toFloat?.map .float

end Numeral

namespace Literal

def chars? : Literal → Option (List Char)
  | [] => some []
  | .char c :: r => (chars? r).map (c :: ·)
  | .stray _ :: _ => none
  | .unit h :: .unit l :: r =>
    if 0xD800 ≤ h ∧ h < 0xDC00 then
      if 0xDC00 ≤ l ∧ l < 0xE000 then
        (chars? r).map (Char.ofNat (0x10000 + (h - 0xD800) * 0x400 + (l - 0xDC00)) :: ·)
      else none
    else if 0xDC00 ≤ h ∧ h < 0xE000 then none
    else (chars? (.unit l :: r)).map (Char.ofNat h :: ·)
  | .unit h :: r =>
    if 0xD800 ≤ h ∧ h < 0xE000 then none else (chars? r).map (Char.ofNat h :: ·)

def text? (s : Literal) : Option String := (chars? s).map String.ofList

end Literal

namespace Term

def isBlank (c : Char) : Bool := c = ' ' || c = '\t' || c = '\n' || c = '\r'

def skipBlank : List Glyph → List Glyph
  | .char c :: gs => if isBlank c then skipBlank gs else .char c :: gs
  | gs => gs

def after? : List Char → List Glyph → Option (List Glyph)
  | [], gs => some gs
  | c :: cs, .char d :: gs => if c = d then after? cs gs else none
  | _ :: _, _ => none

def digitOf? : Glyph → Option Nat
  | .char c => if '0' ≤ c ∧ c ≤ '9' then some (c.toNat - 48) else none
  | .stray _ => none

def hexOf? : Glyph → Option Nat
  | .char c =>
    if '0' ≤ c ∧ c ≤ '9' then some (c.toNat - 48)
    else if 'a' ≤ c ∧ c ≤ 'f' then some (c.toNat - 87)
    else if 'A' ≤ c ∧ c ≤ 'F' then some (c.toNat - 55)
    else none
  | .stray _ => none

def spanDigits : List Glyph → List Nat × List Glyph
  | [] => ([], [])
  | g :: gs =>
    match digitOf? g with
    | some d => ((d :: (spanDigits gs).1), (spanDigits gs).2)
    | none => ([], g :: gs)

def digitRun? (gs : List Glyph) : Option (List Nat × List Glyph) :=
  match spanDigits gs with
  | ([], _) => none
  | run => some run

def fraction? : List Glyph → Option (List Nat × List Glyph)
  | .char '.' :: gs => digitRun? gs
  | gs => some ([], gs)

def exponentOf (ds : List Nat) : Nat := ds.foldl (fun n d => n * 10 + d) 0

def exponent? : List Glyph → Option (Option Int × List Glyph)
  | .char 'e' :: gs | .char 'E' :: gs =>
    match gs with
    | .char '-' :: gs => (digitRun? gs).map fun (ds, r) => (some (-(exponentOf ds : Int)), r)
    | .char '+' :: gs => (digitRun? gs).map fun (ds, r) => (some (exponentOf ds), r)
    | gs => (digitRun? gs).map fun (ds, r) => (some (exponentOf ds), r)
  | gs => some (none, gs)

def whole? (gs : List Glyph) : Option (List Nat × List Glyph) :=
  match gs with
  | .char '0' :: gs => some ([0], gs)
  | gs => digitRun? gs

def numeral? (negative : Bool) (gs : List Glyph) : Option (Numeral × List Glyph) := do
  let (whole, gs) ← whole? gs
  let (fraction, gs) ← fraction? gs
  let (exponent, gs) ← exponent? gs
  some (⟨negative, whole, fraction, exponent⟩, gs)

def escape? : Char → Option Char
  | '"' => some '"'
  | '\\' => some '\\'
  | '/' => some '/'
  | 'b' => some '\x08'
  | 'f' => some '\x0c'
  | 'n' => some '\n'
  | 'r' => some '\r'
  | 't' => some '\t'
  | _ => none

def literal? : List Glyph → Option (Literal × List Glyph)
  | .char '"' :: gs => some ([], gs)
  | .char '\\' :: .char 'u' :: a :: b :: c :: d :: gs => do
    let n := (((← hexOf? a) * 16 + (← hexOf? b)) * 16 + (← hexOf? c)) * 16 + (← hexOf? d)
    let (s, r) ← literal? gs
    some (.unit n :: s, r)
  | .char '\\' :: .char e :: gs => do
    let c ← escape? e
    let (s, r) ← literal? gs
    some (.char c :: s, r)
  | .char c :: gs =>
    if c = '\\' ∨ c.toNat < 0x20 then none
    else (literal? gs).map fun (s, r) => (.char c :: s, r)
  | .stray b :: gs => (literal? gs).map fun (s, r) => (.stray b :: s, r)
  | [] => none

mutual
/-- A value, and what follows it. Every call inside reads at least one unit more, so the length
of the text is enough of a bound. -/
def value? : Nat → List Glyph → Option (Term × List Glyph)
  | 0, _ => none
  | n + 1, gs =>
    match skipBlank gs with
    | .char '\x7b' :: gs =>
      match skipBlank gs with
      | .char '\x7d' :: gs => some (.object [], gs)
      | gs => (members? n gs).map fun (ms, r) => (.object ms, r)
    | .char '[' :: gs =>
      match skipBlank gs with
      | .char ']' :: gs => some (.array [], gs)
      | gs => (items? n gs).map fun (ts, r) => (.array ts, r)
    | .char '"' :: gs => (literal? gs).map fun (s, r) => (.string s, r)
    | .char 'n' :: gs => (after? ['u', 'l', 'l'] gs).map (.null, ·)
    | .char 't' :: gs => (after? ['r', 'u', 'e'] gs).map (.bool true, ·)
    | .char 'f' :: gs => (after? ['a', 'l', 's', 'e'] gs).map (.bool false, ·)
    | .char '-' :: gs => (numeral? true gs).map fun (x, r) => (.number x, r)
    | gs => (numeral? false gs).map fun (x, r) => (.number x, r)

def items? : Nat → List Glyph → Option (List Term × List Glyph)
  | 0, _ => none
  | n + 1, gs => do
    let (t, gs) ← value? n gs
    match skipBlank gs with
    | .char ',' :: gs => (items? n gs).map fun (ts, r) => (t :: ts, r)
    | .char ']' :: gs => some ([t], gs)
    | _ => none

def members? : Nat → List Glyph → Option (List (Literal × Term) × List Glyph)
  | 0, _ => none
  | n + 1, gs =>
    match skipBlank gs with
    | .char '"' :: gs => do
      let (k, gs) ← literal? gs
      match skipBlank gs with
      | .char ':' :: gs =>
        let (t, gs) ← value? n gs
        match skipBlank gs with
        | .char ',' :: gs => (members? n gs).map fun (ms, r) => ((k, t) :: ms, r)
        | .char '\x7d' :: gs => some ([(k, t)], gs)
        | _ => none
      | _ => none
    | _ => none
end

def read? (gs : List Glyph) : Option Term := do
  let (t, rest) ← value? (2 * gs.length + 2) gs
  if (skipBlank rest).isEmpty then some t else none

mutual
def toJson? (depth : Nat) : Term → Option Json
  | .null => some .null
  | .bool b => some (.bool b)
  | .number n => n.toJson?
  | .string s => s.text?.map .str
  | .array ts => if depth = 0 then none else (itemsToJson? (depth - 1) ts).map .arr
  | .object ms => if depth = 0 then none else (membersToJson? (depth - 1) ms).map ofMembers

def itemsToJson? (depth : Nat) : List Term → Option (List Json)
  | [] => some []
  | t :: ts => do
    let v ← toJson? depth t
    let vs ← itemsToJson? depth ts
    some (v :: vs)

def membersToJson? (depth : Nat) : List (Literal × Term) → Option Members
  | [] => some []
  | (k, t) :: ms => do
    let name ← k.text?
    let v ← toJson? depth t
    let rest ← membersToJson? depth ms
    some ((name, v) :: rest)
end

end Term

/-- The deepest nesting of arrays and objects that is read. -/
def maxDepth : Nat := 127

/-- The value that a byte string holds. -/
def read? (bs : Bytes) : Option Json := do
  let t ← Term.read? (Utf8.glyphs bs)
  t.toJson? maxDepth

def ofText? (s : String) : Option Json := do
  let t ← Term.read? (s.toList.map .char)
  t.toJson? maxDepth

end Parley.Json
