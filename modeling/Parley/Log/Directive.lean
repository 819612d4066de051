import Parley.Decimal.Natural
import Parley.Settings.Basic
import Parley.Text.Pattern.Reader
import Parley.Text.Quoted
import Parley.Text.Split

namespace Parley.Log

/-- What the value of a field is to be. The values of spans are texts, so a number or a truth value
is never found there, only what a pattern describes. -/
inductive Value
  | exact
  | pattern (text : String) (p : Text.Pattern)

structure Field where
  name : String
  value : Option Value := none

inductive Misread
  | malformed
  | torn (x : Text.Cut)
  deriving DecidableEq, Repr

structure Directive where
  verbosity : Nat := 5
  source : Option String := none
  span : Option String := none
  field : Option Field := none

namespace Directive

def levelNames : List (String × Nat) :=
  ("off", 0) :: LogLevel.all.map fun l => (l.name, l.verbosity)

def level? (cs : List Char) : Option Nat :=
  match (Decimal.unsigned? cs).filter (· ≤ 5) with
  | some n => some n
  | none => levelNames.lookup (String.ofList (Text.lower cs))

def isDecimal (cs : List Char) : Bool :=
  let (mantissa, exponent) := match cs.span fun c => c ≠ 'e' && c ≠ 'E' with
    | (m, _ :: e) => (m, some e)
    | (m, []) => (m, none)
  let (whole, rest) := mantissa.span Char.isDigit
  let fraction := match rest with
    | '.' :: f => some f
    | [] => some []
    | _ => none
  fraction.any (fun f => f.all Char.isDigit && !(whole.isEmpty && f.isEmpty))
    && exponent.all fun e =>
      let digits := match e with
        | '+' :: e | '-' :: e => e
        | e => e
      !digits.isEmpty && digits.all Char.isDigit

def isNumber (cs : List Char) : Bool :=
  let cs := match cs with
    | '+' :: cs | '-' :: cs => cs
    | cs => cs
  isDecimal cs || String.ofList (Text.lower cs) ∈ ["inf", "infinity", "nan"]

def value? (cs : List Char) : Option Value :=
  if isNumber cs || cs = "true".toList || cs = "false".toList then some .exact
  else (Text.Pattern.read? cs).map (.pattern (String.ofList cs))

def field? (cs : List Char) : Option Field :=
  match Text.cut ['='] cs with
  | none => if cs.isEmpty then none else some ⟨String.ofList cs, none⟩
  | some (name, rest) =>
    (value? (rest.takeWhile (· ≠ '='))).map fun v => ⟨String.ofList name, some v⟩

inductive Part
  | nothing
  | levelOrSource (first : Nat)
  | span (first : Nat)
  | field (first : Nat)
  | fieldsEnd
  | spanEnd
  | level (first : Nat)

def demand {α : Type} : Option α → Except Misread α
  | some a => .ok a
  | none => .error .malformed

def part (first stop : Nat) (text : List Char) : Except Misread (List Char) :=
  (Text.slice first stop text).mapError .torn

def lastPart (first : Nat) (text : List Char) : Except Misread (List Char) :=
  (Text.sliceFrom first text).mapError .torn

def levelOrAll? (cs : List Char) : Option Nat := if cs.isEmpty then some 5 else level? cs

def step (text : List Char) (d : Directive) (p : Part) (i : Nat) (c : Char) :
    Except Misread (Directive × Part) :=
  let upTo (first : Nat) : Except Misread String := (part first i text).map String.ofList
  match p, c with
  | .nothing, '[' => .ok (d, .span (i + 1))
  | .nothing, c =>
    if c = '-' || c = ':' || c = '_' || Text.isAlphanumeric c then .ok (d, .levelOrSource i)
    else .error .malformed
  | .levelOrSource first, '=' => (upTo first).map fun s => ({ d with source := s }, .level (i + 1))
  | .levelOrSource first, '[' => (upTo first).map fun s => ({ d with source := s }, .span (i + 1))
  | .span first, ']' => (upTo first).map fun s => ({ d with span := s }, .spanEnd)
  | .span first, '{' =>
    (upTo first).map fun s =>
      ({ d with span := if s.isEmpty then none else some s }, .field (i + 1))
  | .field first, '\x7d' => do
    let f ← demand (field? (← part first i text))
    return ({ d with field := some f }, .fieldsEnd)
  | .fieldsEnd, ']' => .ok (d, .spanEnd)
  | .spanEnd, '=' => .ok (d, .level (i + 1))
  | .fieldsEnd, _ | .spanEnd, _ => .error .malformed
  | p, _ => .ok (d, p)

def steps (text : List Char) (d : Directive) (p : Part) (i : Nat) :
    List Char → Except Misread (Directive × Part)
  | [] => .ok (d, p)
  | c :: cs => do
    let (d, p) ← step text d p i c
    steps text d p (i + c.utf8Size) cs

def finish (text : List Char) (d : Directive) : Part → Except Misread Directive
  | .levelOrSource first => (lastPart first text).map fun cs =>
    match level? cs with
    | some n => { d with verbosity := n }
    | none => { d with source := some (String.ofList cs) }
  | .level first => do
    let n ← demand (levelOrAll? (← lastPart first text))
    return { d with verbosity := n }
  | .spanEnd => .ok d
  | _ => .error .malformed

/-- Blanks at the ends are passed over, but the parts are counted off from the beginning of the
text with them. -/
def read (text : List Char) : Except Misread Directive := do
  let (d, p) ← steps text {} .nothing 0 (Text.trim text)
  finish text d p

end Directive

end Parley.Log
