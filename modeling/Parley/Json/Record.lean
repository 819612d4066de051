import Parley.Json.Basic

namespace Parley.Json

def fields? (names : List String) : Json → Option (List (Option Json))
  | .obj ms => some (names.map fun name => ms.lookup name)
  | .arr vs =>
    if vs.length ≤ names.length then
      some (vs.map some ++ List.replicate (names.length - vs.length) none)
    else none
  | _ => none

def fieldOr {α : Type} (default : α) (read : Json → Option α) : Option Json → Option α
  | none => some default
  | some v => read v

/-- Null stands for absence. -/
def nullable {α : Type} (read : Json → Option α) : Json → Option (Option α)
  | .null => some none
  | v => (read v).map some

def string? : Json → Option String
  | .str s => some s
  | _ => none

def bool? : Json → Option Bool
  | .bool b => some b
  | _ => none

def below? (bound : Nat) : Json → Option Nat
  | .int (.ofNat n) => if n < bound then some n else none
  | _ => none

def choice? : Json → Option String
  | .str s => some s
  | .obj [(s, .null)] => some s
  | _ => none

end Parley.Json

namespace Parley.Json

def int? : Json → Option Int
  | .int n => some n
  | _ => none

def nat? : Json → Option Nat
  | .int (.ofNat n) => some n
  | _ => none

def items? : Json → Option (List Json)
  | .arr vs => some vs
  | _ => none

def strings? (v : Json) : Option (List String) := v.items?.bind (·.mapM string?)

def stringAt? (v : Json) (k : String) : Option String := (v.get? k).bind string?
def natAt? (v : Json) (k : String) : Option Nat := (v.get? k).bind nat?
def intAt? (v : Json) (k : String) : Option Int := (v.get? k).bind int?
def itemsAt? (v : Json) (k : String) : Option (List Json) := (v.get? k).bind items?
def stringsAt? (v : Json) (k : String) : Option (List String) := (v.get? k).bind strings?

/-- A member that is false when it is missing. -/
def flagAt (v : Json) (k : String) : Bool := ((v.get? k).bind bool?).getD false

def ofNat (n : Nat) : Json := .int n
def ofNat? (n : Option Nat) : Json := ofOption (n.map ofNat)
def ofString? (s : Option String) : Json := ofOption (s.map .str)
def ofStrings (l : List String) : Json := .arr (l.map .str)

end Parley.Json
