import Parley.Json.Printer
import Parley.Settings.Basic

namespace Parley.Log

structure Span where
  source : String
  name : String
  fields : List (String × String)
  deriving DecidableEq, Repr

structure Event where
  level : LogLevel
  source : String
  fields : List String
  spans : List Span := []
  deriving DecidableEq, Repr

/-- All spans are of one level. -/
def Span.level : LogLevel := .info

def dispatcher : String := "tether_rpc::dispatcher"
def server : String := "tether_server::server"

namespace Span

def reading (connection : String) : Span := ⟨dispatcher, "read_loop", [("connection", connection)]⟩

def writing (connection : String) : Span := ⟨dispatcher, "write_loop", [("connection", connection)]⟩

def request (connection id method : String) : Span :=
  ⟨dispatcher, "run_request", [("connection", connection), ("id", id), ("method", method)]⟩

def notification (connection method : String) : Span :=
  ⟨dispatcher, "run_notification", [("connection", connection), ("method", method)]⟩

end Span

namespace Event

def within (e : Event) (s : Span) : Event := { e with spans := s :: e.spans }

def of (level : LogLevel) (source : String) (fields : List String) : Event :=
  ⟨level, source, "message" :: fields, []⟩

def ready : Event := of .debug "tether_logging" ["level", "format"]
def starting : Event := of .info "tether" ["listen"]
def stopped : Event := of .info "tether" []

def listening : Event := of .info server ["addr"]
def listeningForSockets : Event := of .info server ["addr", "path"]
def hungUp : Event := of .info server []
def draining : Event := of .info "tether_server::shutdown" ["connection_count", "timeout_ms"]

def attached : Event := of .info dispatcher ["connection"]
def closed : Event := of .info dispatcher ["connection", "cancelled", "failed"]
def received : Event := of .debug dispatcher ["kind", "id", "method"]
def unversioned : Event := of .debug "tether_rpc::codec" ["jsonrpc"]
def undecodable : Event := of .warn dispatcher ["error", "len"]
def broken : Event := of .warn dispatcher ["error"]
def ended : Event := of .debug dispatcher []
def unencodable : Event := of .error dispatcher ["error", "kind"]
def unwritable : Event := of .warn dispatcher ["error"]

def unexpected : Event := of .debug dispatcher ["id"]
def malformedCancel : Event := of .warn dispatcher ["connection"]
def cancelled : Event := of .debug dispatcher ["connection", "id"]
def tooLate : Event := of .debug "tether_rpc::inflight" ["request_id"]
def nothingToCancel : Event := of .debug dispatcher ["connection", "id"]
def noHandler : Event := of .debug dispatcher ["connection", "id", "method"]
def unrouted : Event := of .debug dispatcher ["connection", "error"]
def ambiguousRoute : Event := of .warn dispatcher ["connection", "id", "error"]
def duplicateId : Event := of .warn dispatcher ["connection", "id"]
def unsent : List Event :=
  [of .debug "tether_rpc::outbound" ["kind"], of .debug dispatcher ["connection"]]

def freshSession : Event := of .debug "tether_rpc::session" ["session_id"]
def expiredSession : Event := of .debug "tether_rpc::session" ["session_id"]
def abandoned : Event := of .debug dispatcher []
def discarded : Event := of .debug dispatcher []
def handlerFailed : Event := of .error dispatcher ["error"]
def handlerPanicked : Event := of .error dispatcher ["panic"]
def saveFailed : Event := of .error dispatcher ["error"]

/-- An event in the log. -/
def line (e : Event) (format : LogFormat) : String :=
  match format with
  | .pretty => e.level.name ++ " " ++ e.source
  | .json => (Json.obj [("level", .str e.level.name), ("target", .str e.source)]).text

end Event

end Parley.Log
