import Parley.Json.Printer

namespace Parley

structure ConnectionId where
  text : String
  deriving DecidableEq, Repr, Inhabited

structure SessionId where
  text : String
  deriving DecidableEq, Repr, Inhabited

namespace Identifier

def hex (width n : Nat) : List Char :=
  match width with
  | 0 => []
  | w + 1 => hex w (n / 16) ++ [Json.hexDigit (n % 16)]

def unique (ms random : Nat) : List Char :=
  hex 8 (ms / span 16) ++ ['-'] ++ hex 4 ms ++ ['-', '7'] ++ hex 3 random ++ ['-']
    ++ hex 4 (0x8000 + random / span 12 % span 14) ++ ['-'] ++ hex 12 (random / span 26)

def isHex (c : Char) : Bool := c.isDigit || ('a' ≤ c && c ≤ 'f')

def isUnique (cs : List Char) : Bool :=
  cs.length = 36 &&
    (List.range 36).all fun i =>
      match cs[i]? with
      | none => false
      | some c =>
        if i = 8 || i = 13 || i = 18 || i = 23 then c = '-'
        else if i = 14 then c = '7'
        else if i = 19 then c = '8' || c = '9' || c = 'a' || c = 'b'
        else isHex c

end Identifier

namespace ConnectionId

def fresh (ms random : Nat) : ConnectionId :=
  ⟨"conn_" ++ String.ofList (Identifier.unique ms random)⟩

/-- The session that a connection has when nothing else decides. -/
def session (c : ConnectionId) : SessionId := ⟨c.text⟩

def toJson (c : ConnectionId) : Json := .str c.text

def ofJson? : Json → Option ConnectionId
  | .str s => some ⟨s⟩
  | _ => none

end ConnectionId

def SessionId.fresh (ms random : Nat) : SessionId :=
  ⟨"sess_" ++ String.ofList (Identifier.unique ms random)⟩

end Parley
