import Parley.Address
import Parley.CommandLine
import Parley.Console.Basic
import Parley.Console.Dispatch
import Parley.Console.Execution
import Parley.Console.Files
import Parley.Console.Flow
import Parley.Console.Peer
import Parley.Console.Route
import Parley.Console.Script
import Parley.Console.Server
import Parley.Console.Session
import Parley.Decimal.Natural
import Parley.Decimal.Shortest
import Parley.Dispatch.Call
import Parley.Dispatch.Dispatcher
import Parley.Dispatch.Hub
import Parley.Dispatch.Inbound
import Parley.Dispatch.Link
import Parley.Dispatch.Network
import Parley.Flow.Channel
import Parley.Flow.Commit
import Parley.Flow.Fanout
import Parley.Flow.Schedule
import Parley.Frame.Decoder
import Parley.Frame.Header
import Parley.Handler.Program
import Parley.Handler.Script
import Parley.Identifier
import Parley.InFlight
import Parley.Json.Basic
import Parley.Json.Printer
import Parley.Json.Record
import Parley.Json.Term
import Parley.Launch
import Parley.Log.Directive
import Parley.Log.Event
import Parley.Log.Filter
import Parley.Main
import Parley.Message.Basic
import Parley.Message.Envelope
import Parley.Peer.Basic
import Parley.Peer.Pending
import Parley.Proofs.Decimal.Natural
import Parley.Proofs.Dispatch.Alike
import Parley.Proofs.Dispatch.Answer
import Parley.Proofs.Dispatch.Apart
import Parley.Proofs.Dispatch.Arrival
import Parley.Proofs.Dispatch.Asking
import Parley.Proofs.Dispatch.Balance
import Parley.Proofs.Dispatch.Books
import Parley.Proofs.Dispatch.Busy
import Parley.Proofs.Dispatch.Cancel
import Parley.Proofs.Dispatch.Change
import Parley.Proofs.Dispatch.Chronicle
import Parley.Proofs.Dispatch.Chronicled
import Parley.Proofs.Dispatch.Closing
import Parley.Proofs.Dispatch.Congruence
import Parley.Proofs.Dispatch.Correlation
import Parley.Proofs.Dispatch.Diary
import Parley.Proofs.Dispatch.Discretion
import Parley.Proofs.Dispatch.Drain
import Parley.Proofs.Dispatch.Endurance
import Parley.Proofs.Dispatch.Errand
import Parley.Proofs.Dispatch.Errands
import Parley.Proofs.Dispatch.Feeding
import Parley.Proofs.Dispatch.Footprint
import Parley.Proofs.Dispatch.Handling
import Parley.Proofs.Dispatch.Hearing
import Parley.Proofs.Dispatch.Hooks
import Parley.Proofs.Dispatch.Intake
import Parley.Proofs.Dispatch.Isolation
import Parley.Proofs.Dispatch.Job
import Parley.Proofs.Dispatch.Known
import Parley.Proofs.Dispatch.Masked
import Parley.Proofs.Dispatch.MaskedHub
import Parley.Proofs.Dispatch.Overdue
import Parley.Proofs.Dispatch.Owed
import Parley.Proofs.Dispatch.Pairing
import Parley.Proofs.Dispatch.Part
import Parley.Proofs.Dispatch.Pumps
import Parley.Proofs.Dispatch.Reach
import Parley.Proofs.Dispatch.Recording
import Parley.Proofs.Dispatch.Registry
import Parley.Proofs.Dispatch.Reuse
import Parley.Proofs.Dispatch.Run
import Parley.Proofs.Dispatch.Saving
import Parley.Proofs.Dispatch.Seizure
import Parley.Proofs.Dispatch.Slot
import Parley.Proofs.Dispatch.Sound
import Parley.Proofs.Dispatch.Source
import Parley.Proofs.Dispatch.Stage
import Parley.Proofs.Dispatch.Tally
import Parley.Proofs.Dispatch.Timely
import Parley.Proofs.Dispatch.Timetable
import Parley.Proofs.Dispatch.Told
import Parley.Proofs.Dispatch.Turn
import Parley.Proofs.Dispatch.Usage
import Parley.Proofs.Dispatch.View
import Parley.Proofs.Dispatch.Warned
import Parley.Proofs.Flow.Channel
import Parley.Proofs.Flow.Commit
import Parley.Proofs.Flow.Fanout.Exact
import Parley.Proofs.Flow.Fanout.Outside
import Parley.Proofs.Flow.Fanout.Passing
import Parley.Proofs.Flow.Fanout.Record
import Parley.Proofs.Flow.Fanout.Send
import Parley.Proofs.Flow.Fanout.Sound
import Parley.Proofs.Flow.Scene
import Parley.Proofs.Frame.Chunk
import Parley.Proofs.Frame.Conservation
import Parley.Proofs.Frame.Ending
import Parley.Proofs.Frame.Header
import Parley.Proofs.Frame.Length
import Parley.Proofs.Frame.Line
import Parley.Proofs.Frame.RoundTrip
import Parley.Proofs.Frame.WebSocket
import Parley.Proofs.InFlight.Entry
import Parley.Proofs.InFlight.Only
import Parley.Proofs.InFlight.Run
import Parley.Proofs.InFlight.Winner
import Parley.Proofs.Json.Literal
import Parley.Proofs.Json.Numeral
import Parley.Proofs.Json.Order
import Parley.Proofs.Json.Plain
import Parley.Proofs.Json.Written
import Parley.Proofs.Message.Classification
import Parley.Proofs.Message.Declared
import Parley.Proofs.Message.Field
import Parley.Proofs.Message.Listed
import Parley.Proofs.Message.RoundTrip
import Parley.Proofs.Message.Written
import Parley.Proofs.Network.Agreement
import Parley.Proofs.Network.Cable
import Parley.Proofs.Network.Run
import Parley.Proofs.Network.Transit
import Parley.Proofs.Peer.Asking
import Parley.Proofs.Peer.Course
import Parley.Proofs.Peer.Docket
import Parley.Proofs.Peer.Ended
import Parley.Proofs.Peer.Errand
import Parley.Proofs.Peer.Finished
import Parley.Proofs.Peer.Pending
import Parley.Proofs.Peer.Posted
import Parley.Proofs.Route.Combine
import Parley.Proofs.Route.Condition
import Parley.Proofs.Route.Listing
import Parley.Proofs.Route.Resolve
import Parley.Proofs.Server.Advance
import Parley.Proofs.Server.Aside
import Parley.Proofs.Server.Attributes
import Parley.Proofs.Server.InTurn
import Parley.Proofs.Server.Places
import Parley.Proofs.Server.Run
import Parley.Proofs.Server.Serves
import Parley.Proofs.Server.Sessions
import Parley.Proofs.Server.Touches
import Parley.Proofs.Server.Watching
import Parley.Proofs.Session.Agree
import Parley.Proofs.Session.Board
import Parley.Proofs.Session.Calm
import Parley.Proofs.Session.Expiry
import Parley.Proofs.Session.Lasting
import Parley.Proofs.Session.Manager
import Parley.Proofs.Session.Only
import Parley.Proofs.Session.OnlyStore
import Parley.Proofs.Session.Refine
import Parley.Proofs.Session.Run
import Parley.Proofs.Session.Solo
import Parley.Proofs.Session.Store
import Parley.Proofs.Settings.Field
import Parley.Proofs.Settings.Misled
import Parley.Proofs.Settings.Overlay
import Parley.Proofs.Settings.Path
import Parley.Proofs.Settings.Precedence
import Parley.Proofs.Settings.Saved
import Parley.Proofs.Settings.Variable
import Parley.Proofs.Text.Split
import Parley.Proofs.Text.Utf8
import Parley.Route.Table
import Parley.Server.Basic
import Parley.Server.Builtin
import Parley.Server.Config
import Parley.Server.Health
import Parley.Server.PathPattern
import Parley.Session.Basic
import Parley.Session.Manager
import Parley.Session.Store
import Parley.Settings.Basic
import Parley.Settings.Json
import Parley.Settings.Load
import Parley.Text.Alphanumeric
import Parley.Text.Pattern.Basic
import Parley.Text.Pattern.Reader
import Parley.Text.Printable
import Parley.Text.Quoted
import Parley.Text.Ranges
import Parley.Text.Split
import Parley.Text.Utf8
