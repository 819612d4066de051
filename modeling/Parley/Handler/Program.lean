import Parley.Message.Basic
import Parley.Peer.Basic
import Parley.Session.Basic

namespace Parley

/-- Parameters may be refused without a word. -/
inductive HandlerError
  | invalidParams (text : Option String)
  | internal (text : String)
  | cancelled
  | custom (body : ErrorBody)
  deriving DecidableEq, Repr

namespace HandlerError

def ofSession (e : SessionError) : HandlerError := internal ("session: " ++ e.message)

def message : HandlerError → String
  | invalidParams text => "invalid params: " ++ text.getD "unexpected shape"
  | internal text => text
  | cancelled => "request cancelled"
  | custom body => body.display

def kind : HandlerError → String
  | invalidParams _ => "invalid_params"
  | internal _ => "internal"
  | cancelled => "cancelled"
  | custom _ => "custom"

def body : HandlerError → ErrorBody
  | custom body => body
  | _ => .internal

end HandlerError

end Parley

namespace Parley

/-- What a handler knows of the call that it handles. -/
structure Context where
  connection : ConnectionId
  requestId : Option RequestId
  method : String
  methods : List String := []
  routes : Nat := 0

inductive Program
  | finish (outcome : Except HandlerError Json)
  | panic (text : Option String)
  | sleep (ms : Nat) (ifDropped : String) (next : Program)
  | await (gate ifDropped : String) (next : Program)
  | log (line : String) (next : Program)
  | touch (edit : Session → Session) (next : Session → Program)
  | send (errand : Errand) (next : Except ExchangeError Json → Program)
  | probe (next : Bool → Program)

abbrev Handler := Context → Option Json → Program

namespace Program

instance : Inhabited Program := ⟨finish (.ok .null)⟩

def done (v : Json) : Program := finish (.ok v)

def fail (e : HandlerError) : Program := finish (.error e)

end Program

namespace Handler

def typed {α : Type} (read : Json → Option α) (handle : α → Context → Program) : Handler :=
  fun context params =>
    match read (.ofOption params) with
    | none => .fail (.invalidParams none)
    | some a => handle a context

def noParams : Json → Option Unit
  | .null => some ()
  | _ => none

end Handler

end Parley
