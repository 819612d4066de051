import Parley.Decimal.Natural
import Parley.Json.Printer

namespace Parley.Code

def parseError : Int := -32700
def invalidRequest : Int := -32600
def methodNotFound : Int := -32601
def invalidParams : Int := -32602
def internalError : Int := -32603
def requestCancelled : Int := -32800

def name (code : Int) : String :=
  if code = parseError then "parse_error"
  else if code = invalidRequest then "invalid_request"
  else if code = methodNotFound then "method_not_found"
  else if code = invalidParams then "invalid_params"
  else if code = internalError then "internal_error"
  else if code = requestCancelled then "request_cancelled"
  else "custom"

end Parley.Code

namespace Parley

inductive RequestId
  | number (n : Int)
  | text (s : String)
  deriving DecidableEq, Repr, Inhabited

namespace RequestId

def display : RequestId → String
  | .number n => Decimal.ofInt n
  | .text s => s

def toJson : RequestId → Json
  | .number n => .int n
  | .text s => .str s

def inRange (n : Int) : Bool := -(span 63 : Int) ≤ n && n < span 63

def ofJson? : Json → Option RequestId
  | .int n => if inRange n then some (.number n) else none
  | .str s => some (.text s)
  | _ => none

end RequestId

/-- The body of a response that reports a failure. -/
structure ErrorBody where
  code : Int
  message : String
  data : Option Json := none
  deriving DecidableEq, Repr, Inhabited

namespace ErrorBody

def methodNotFound (method : String) : ErrorBody :=
  ⟨Code.methodNotFound, "method not found: " ++ method, none⟩

def internal : ErrorBody := ⟨Code.internalError, "internal server error", none⟩

def cancelled : ErrorBody := ⟨Code.requestCancelled, "request cancelled", none⟩

def invalidRequest (message : String) : ErrorBody := ⟨Code.invalidRequest, message, none⟩

def withData (b : ErrorBody) (v : Json) : ErrorBody := { b with data := some v }

def display (b : ErrorBody) : String := b.message ++ " (" ++ Decimal.ofInt b.code ++ ")"

/-- Members in the order in which they are written. -/
def toJson (b : ErrorBody) : Json :=
  .obj ([("code", .int b.code), ("message", .str b.message)] ++ (b.data.map ("data", ·)).toList)

end ErrorBody

structure Request where
  id : RequestId
  method : String
  params : Option Json
  deriving DecidableEq, Repr, Inhabited

structure Notification where
  method : String
  params : Option Json
  deriving DecidableEq, Repr, Inhabited

structure Response where
  id : RequestId
  outcome : Except ErrorBody Json
  deriving Repr, Inhabited

instance : DecidableEq (Except ErrorBody Json)
  | .ok a, .ok b => decidable_of_iff (a = b) (by simp)
  | .error a, .error b => decidable_of_iff (a = b) (by simp)
  | .ok _, .error _ => isFalse (by simp)
  | .error _, .ok _ => isFalse (by simp)

deriving instance DecidableEq for Response

inductive Message
  | request (r : Request)
  | notification (n : Notification)
  | response (r : Response)
  deriving DecidableEq, Repr, Inhabited

namespace Message

def success (id : RequestId) (v : Json) : Message := .response ⟨id, .ok v⟩
def failure (id : RequestId) (b : ErrorBody) : Message := .response ⟨id, .error b⟩

def id? : Message → Option RequestId
  | .request r => some r.id
  | .notification _ => none
  | .response r => some r.id

def method? : Message → Option String
  | .request r => some r.method
  | .notification n => some n.method
  | .response _ => none

def isResponse : Message → Bool
  | .response _ => true
  | _ => false

def kind : Message → String
  | .request _ => "request"
  | .notification _ => "notification"
  | .response _ => "response"

/-- The method by which either side asks the other to give up a request. -/
def cancelMethod : String := "$/cancelRequest"

end Message

end Parley
