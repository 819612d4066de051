import Parley.Json.Record
import Parley.Message.Envelope

namespace Parley.Console

def turns : Nat := 1000000

abbrev Names (α : Type) := List (String × α)

def Names.get? {α : Type} (names : Names α) (name : String) : Option α := names.lookup name

def Names.forget {α : Type} (names : Names α) (name : String) : Names α :=
  names.filter fun n => n.1 ≠ name

def Names.nameOf {α : Type} [DecidableEq α] (names : Names α) (a : α) : String :=
  ((names.find? fun n => n.2 = a).map (·.1)).getD ""

/-- Commands one after the other, each with what is shown after it. -/
def run {σ : Type} (start : σ) (step : σ → Json → Option (σ × Json)) (commands : List Json) :
    Option (σ × List Json) :=
  commands.foldlM (fun (s, shown) c => do
    let (s, r) ← step s c
    some (s, shown ++ [r])) (start, [])

def transcript {σ : Type} (start : σ) (step : σ → Json → Option (σ × Json)) (v : Json) :
    Option Json := do
  let (_, shown) ← run start step (← v.itemsAt? "steps")
  some (.obj [("steps", .arr shown)])

def report (ms : Json.Members) : Option Json := some (Json.ofMembers ms)

def fault (kind : String) : Json := .obj [("error", .str kind)]

def faultText (kind message : String) : Json :=
  .obj [("error", .str kind), ("message", .str message)]

def hexValue? (c : Char) : Option Nat :=
  if c.isDigit then some (c.toNat - 48)
  else if 'a' ≤ c ∧ c ≤ 'f' then some (c.toNat - 87)
  else if 'A' ≤ c ∧ c ≤ 'F' then some (c.toNat - 55)
  else none

def hexBytes? : List Char → Option Bytes
  | [] => some []
  | a :: b :: r => do
    let x ← hexValue? a
    let y ← hexValue? b
    let rest ← hexBytes? r
    some (UInt8.ofNat (x * 16 + y) :: rest)
  | _ => none

mutual
/-- Bytes as commands give them: a text, hexadecimal digits, something repeated, or several in a
row. -/
def bytes? : Json → Option Bytes
  | .str s => some (Bytes.ofString s)
  | .arr vs => allBytes? vs
  | .obj [("hex", .str s)] => hexBytes? s.toList
  | .obj [("repeat", .arr [v, .int n])] =>
    (bytes? v).map fun bs => (List.replicate n.toNat bs).flatten
  | _ => none

def allBytes? : List Json → Option Bytes
  | [] => some []
  | v :: vs => do some ((← bytes? v) ++ (← allBytes? vs))
end

def bytesAt? (v : Json) (k : String) : Option Bytes := (v.get? k).bind bytes?

def idAt? (v : Json) (k : String) : Option RequestId := (v.get? k).bind RequestId.ofJson?

def body? (v : Json) : Option ErrorBody := do
  some { code := ← v.intAt? "code", message := ← v.stringAt? "message", data := v.get? "data" }

def message? (v : Json) : Option Message := do
  match ← v.stringAt? "shape" with
  | "request" => some (.request ⟨← idAt? v "id", ← v.stringAt? "method", v.get? "params"⟩)
  | "notification" => some (.notification ⟨← v.stringAt? "method", v.get? "params"⟩)
  | "success" => some (.success (← idAt? v "id") (← v.get? "result"))
  | "error" => some (.failure (← idAt? v "id") (← (v.get? "error").bind body?))
  | _ => none

def response? (v : Json) : Option Response := do
  let .response r ← message? v | none
  some r

end Parley.Console
