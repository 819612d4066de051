import Parley.Json.Term
import Parley.Message.Basic

namespace Parley

structure Envelope where
  version : Option String := none
  id : Option RequestId := none
  method : Option String := none
  params : Option Json := none
  result : Option Json := none
  error : Option ErrorBody := none
  deriving Repr, Inhabited, DecidableEq

inductive EnvelopeFault
  | methodWithOutcome
  | resultWithError
  | noOutcome
  | neitherMethodNorId
  deriving DecidableEq, Repr

namespace EnvelopeFault

def reason : EnvelopeFault → String
  | methodWithOutcome => "message carries both a method and a result or error"
  | resultWithError => "response carries both result and error"
  | noOutcome => "response carries neither result nor error"
  | neitherMethodNorId => "message has neither method nor id"

def textOf (reason : String) : String := "invalid JSON-RPC envelope: " ++ reason

def message (f : EnvelopeFault) : String := textOf f.reason

end EnvelopeFault

namespace Json.Term

def named (name : String) (ms : List (String × Term)) : List Term :=
  (ms.filter fun m => m.1 = name).map (·.2)

/-- The terms of the fields `names`. They stand under their names, each at most once, among any
others; or in this order in an array, from which the last ones may be missing. -/
def fields? (names : List String) : Term → Option (List (Option Term))
  | .object ms => do
    let ms ← ms.mapM fun (k, t) => k.text?.map (·, t)
    names.mapM fun name =>
      match named name ms with
      | [] => some none
      | [t] => some (some t)
      | _ => none
  | .array ts =>
    if ts.length ≤ names.length then
      some (ts.map some ++ List.replicate (names.length - ts.length) none)
    else none
  | _ => none

def optional {α : Type} (read : Term → Option α) : Option Term → Option (Option α)
  | none | some .null => some none
  | some t => (read t).map some

def string? : Term → Option String
  | .string s => s.text?
  | _ => none

def integer? : Term → Option Int
  | .number n =>
    match n.toJson? with
    | some (.int k) => if RequestId.inRange k then some k else none
    | _ => none
  | _ => none

end Json.Term

open Json (Term)

namespace ErrorBody

def ofTerm? (depth : Nat) (t : Term) : Option ErrorBody := do
  let [some code, some message, data] ← t.fields? ["code", "message", "data"] | none
  some {
    code := ← code.integer?
    message := ← message.string?
    data := ← Term.optional (Term.toJson? (depth - 1)) data }

end ErrorBody

namespace Envelope

def ofTerm? (t : Term) : Option Envelope := do
  let [version, id, method, params, result, error] ←
    t.fields? ["jsonrpc", "id", "method", "params", "result", "error"] | none
  let depth := Json.maxDepth - 1
  some {
    version := ← Term.optional Term.string? version
    id := ← Term.optional (fun t => (t.toJson? depth).bind RequestId.ofJson?) id
    method := ← Term.optional Term.string? method
    params := ← Term.optional (Term.toJson? depth) params
    result := ← match result with
      | none => some none
      | some t => (t.toJson? depth).map some
    error := ← Term.optional (ErrorBody.ofTerm? depth) error }

def classify (e : Envelope) : Except EnvelopeFault Message :=
  match e.method, e.id, e.result, e.error with
  | some m, some id, none, none => .ok (.request ⟨id, m, e.params⟩)
  | some m, none, none, none => .ok (.notification ⟨m, e.params⟩)
  | some _, _, _, _ => .error .methodWithOutcome
  | none, some _, some _, some _ => .error .resultWithError
  | none, some id, some v, none => .ok (.success id v)
  | none, some id, none, some b => .ok (.failure id b)
  | none, some _, none, none => .error .noOutcome
  | none, none, _, _ => .error .neitherMethodNorId

def read? (frame : Bytes) : Option Envelope := (Term.read? (Utf8.glyphs frame)).bind ofTerm?

def declaredVersion : String := "2.0"

end Envelope

inductive DecodeError
  | json
  | envelope (fault : EnvelopeFault)
  deriving DecidableEq, Repr

namespace Message

def decode (frame : Bytes) : Except DecodeError Message :=
  match Envelope.read? frame with
  | none => .error .json
  | some e => e.classify.mapError .envelope

def isUnversioned (frame : Bytes) : Bool :=
  (Envelope.read? frame).any fun e => e.version ≠ some Envelope.declaredVersion

/-- Members in the order in which they are written, the absent ones left out. -/
def toJson (m : Message) : Json :=
  .obj (("jsonrpc", .str Envelope.declaredVersion) ::
    match m with
    | .request r =>
      [("id", r.id.toJson), ("method", .str r.method)] ++ (r.params.map ("params", ·)).toList
    | .notification n => ("method", .str n.method) :: (n.params.map ("params", ·)).toList
    | .response r =>
      [("id", r.id.toJson),
        match r.outcome with
        | .ok v => ("result", v)
        | .error b => ("error", b.toJson)])

def text (m : Message) : String := m.toJson.text

def encode (m : Message) : Bytes := Utf8.encode m.toJson.chars

end Message

end Parley
