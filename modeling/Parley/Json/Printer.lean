import Parley.Json.Basic
import Parley.Decimal.Natural
import Parley.Decimal.Shortest

namespace Parley.Json

/-- When a floating-point number is written without an exponent: if the power of ten of its
leading digit is in `[plainFrom, plainBelow)`. -/
structure FloatLayout where
  plainFrom : Int
  plainBelow : Int

def floatLayout : FloatLayout := ⟨-5, 16⟩

def floatChars (x : Decimal.Binary64) : List Char :=
  let sign := if x.isNegative then ['-'] else []
  if x.significand = 0 then sign ++ ['0', '.', '0']
  else
    let s := Decimal.shortest x
    let ds := Decimal.digits s.digits
    let e := s.exponent + (ds.length : Int) - 1
    if floatLayout.plainFrom ≤ e ∧ e < floatLayout.plainBelow then
      if 0 ≤ s.exponent then sign ++ ds ++ List.replicate s.exponent.toNat '0' ++ ['.', '0']
      else if 0 ≤ e then sign ++ ds.take (e.toNat + 1) ++ ['.'] ++ ds.drop (e.toNat + 1)
      else sign ++ ['0', '.'] ++ List.replicate (-e - 1).toNat '0' ++ ds
    else
      let mantissa := match ds with
        | [d] => [d]
        | d :: rest => d :: '.' :: rest
        | [] => []
      let power := if e < 0 then '-' :: Decimal.digits (-e).toNat else '+' :: Decimal.digits e.toNat
      sign ++ mantissa ++ ['e'] ++ power

def hexDigit (n : Nat) : Char := Char.ofNat (if n < 10 then 48 + n else 87 + n)

def escapeChar (c : Char) : List Char :=
  match c with
  | '"' => ['\\', '"']
  | '\\' => ['\\', '\\']
  | '\x08' => ['\\', 'b']
  | '\t' => ['\\', 't']
  | '\n' => ['\\', 'n']
  | '\x0c' => ['\\', 'f']
  | '\r' => ['\\', 'r']
  | c =>
    if c.toNat < 0x20 then ['\\', 'u', '0', '0', hexDigit (c.toNat / 16), hexDigit (c.toNat % 16)]
    else [c]

def quote (cs : List Char) : List Char := '"' :: cs.flatMap escapeChar ++ ['"']

mutual
def chars : Json → List Char
  | .null => ['n', 'u', 'l', 'l']
  | .bool true => ['t', 'r', 'u', 'e']
  | .bool false => ['f', 'a', 'l', 's', 'e']
  | .int n => Decimal.integer n
  | .float x => floatChars x
  | .str s => quote s.toList
  | .arr vs => '[' :: itemChars vs ++ [']']
  | .obj ms => '\x7b' :: memberChars ms ++ ['\x7d']

def itemChars : List Json → List Char
  | [] => []
  | [v] => chars v
  | v :: vs => chars v ++ ',' :: itemChars vs

def memberChars : List (String × Json) → List Char
  | [] => []
  | [(k, v)] => quote k.toList ++ ':' :: chars v
  | (k, v) :: ms => quote k.toList ++ ':' :: chars v ++ ',' :: memberChars ms
end

def text (v : Json) : String := String.ofList v.chars

end Parley.Json
