import Parley.Decimal.Natural
import Parley.Text.Quoted
import Parley.Text.Split
import Parley.Text.Utf8

namespace Parley.Frame

/-- Why a byte stream is not a sequence of frames. -/
inductive Error
  | io (text : String)
  | missingLength
  | invalidLength (value : String)
  | headerTooLong (limit : Nat)
  | tooLarge (length limit : Nat)
  | malformed (text : String)
  deriving DecidableEq, Repr

namespace Error

def message : Error → String
  | io text => text
  | missingLength => "missing Content-Length header"
  | invalidLength value => "invalid Content-Length: " ++ Text.quoted value
  | headerTooLong limit => "header block exceeds " ++ Decimal.ofNat limit ++ " bytes"
  | tooLarge length limit =>
    "frame of " ++ Decimal.ofNat length ++ " bytes exceeds limit of " ++ Decimal.ofNat limit
  | malformed text => "malformed header: " ++ text

def notUtf8 : Error := malformed "header block is not UTF-8"

def truncated : Error := io "bytes remaining on stream"

end Error

def terminator : Bytes := [13, 10, 13, 10]

def lengthName : List Char := "content-length".toList

def length? (value : List Char) : Option Nat :=
  (Decimal.unsigned? value).bind fun n => if n < span 64 then some n else none

def field? (line : List Char) : Option (List Char × List Char) :=
  (Text.cut [':'] line).map fun (name, value) => (Text.trim name, Text.trim value)

def readLine (found : Option Nat) (line : List Char) : Except Error (Option Nat) :=
  match field? line with
  | none => .error (.malformed (String.ofList line))
  | some (name, value) =>
    if Text.lower name = lengthName then
      match length? value with
      | some n => .ok (some n)
      | none => .error (.invalidLength (String.ofList value))
    else .ok found

def lines (block : List Char) : List (List Char) := Text.pieces '\r' '\n' block

def lengthOfLines (ls : List (List Char)) : Except Error Nat := do
  match ← ls.foldlM readLine none with
  | some n => .ok n
  | none => .error .missingLength

def contentLength (block : Bytes) : Except Error Nat :=
  match Utf8.decode? block with
  | none => .error .notUtf8
  | some cs => lengthOfLines (lines cs)

def header (n : Nat) : String := "Content-Length: " ++ Decimal.ofNat n ++ "\r\n\r\n"

def encode (body : Bytes) : Bytes := Bytes.ofString (header body.length) ++ body

/-- The body of a message that arrived whole, with or without a header block. A text that opens an
object or an array has none. -/
def strip (text : String) : Except Error String :=
  let shown := Text.trimLeft text.toList
  if shown.head? = some '\x7b' ∨ shown.head? = some '[' then .ok (String.ofList shown)
  else
    match Text.cut ['\r', '\n', '\r', '\n'] text.toList with
    | none => .error (.malformed "unterminated header block")
    | some (block, body) => do
      let n ← lengthOfLines (lines block)
      let m := (Utf8.encode body).length
      if m = n then .ok (String.ofList body)
      else .error (.malformed ("Content-Length " ++ Decimal.ofNat n ++ " does not match body of "
        ++ Decimal.ofNat m ++ " bytes"))

end Parley.Frame

namespace Parley.Frame.WebSocket

inductive Packet
  | text (s : String)
  | binary (bytes : Bytes)
  | ping
  | pong
  | close
  | failed
  deriving DecidableEq, Repr

inductive Failure
  | io
  | framing (e : Error)
  | closed
  deriving DecidableEq, Repr

def Failure.message? : Failure → Option String
  | io => none
  | framing e => some ("framing error: " ++ e.message)
  | closed => some "transport closed"

def decode (text : String) : Except Failure Bytes :=
  match strip text with
  | .ok body => .ok (Bytes.ofString body)
  | .error e => .error (.framing e)

def Packet.read? : Packet → Option (Except Failure Bytes)
  | text s => some (decode s)
  | binary bytes =>
    match bytes.toString? with
    | some s => some (decode s)
    | none => some (.error .io)
  | failed => some (.error .io)
  | ping | pong | close => none

def receive (packets : List Packet) : List (Except Failure Bytes) :=
  (packets.takeWhile (· ≠ .close)).filterMap Packet.read?

def encode (headers : Bool) (body : Bytes) : Except Failure String :=
  match body.toString? with
  | some s => .ok (if headers then header body.length ++ s else s)
  | none => .error .io

/-- Send bodies until one cannot be sent. No body can be, once the far end has gone, which `none`
stands for. -/
def send (headers : Bool) : Bool → List (Option Bytes) → List (Except Failure String)
  | _, [] => []
  | _, none :: bodies => send headers true bodies
  | true, some _ :: _ => [.error .io]
  | false, some body :: bodies =>
    match encode headers body with
    | .ok s => .ok s :: send headers false bodies
    | .error e => [.error e]

end Parley.Frame.WebSocket
