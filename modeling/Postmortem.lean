import Postmortem.Main
import Postmortem.Proofs.Collections.Table
import Postmortem.Proofs.Files.Store
import Postmortem.Proofs.Json.Codec
import Postmortem.Proofs.Json.Compact
import Postmortem.Proofs.Json.Layout
import Postmortem.Proofs.Json.Literal
import Postmortem.Proofs.Json.Number
import Postmortem.Proofs.Json.OnLines
import Postmortem.Proofs.Json.Record
import Postmortem.Proofs.Json.Truncation
import Postmortem.Proofs.Json.Vocabulary
import Postmortem.Proofs.Line.Plan
import Postmortem.Proofs.Line.Reads
import Postmortem.Proofs.Parse.Tree
import Postmortem.Proofs.Run.Delivery
import Postmortem.Proofs.Run.Totality
import Postmortem.Proofs.Text.Blank
import Postmortem.Proofs.Text.ByteOrder
import Postmortem.Proofs.Text.Tail
import Postmortem.Proofs.Text.Utf8
import Postmortem.Proofs.Trace.Damage
import Postmortem.Proofs.Trace.Event
import Postmortem.Proofs.Trace.Latest
import Postmortem.Proofs.Trace.Pieces
import Postmortem.Proofs.Trace.Recency
import Postmortem.Proofs.Trace.Value
import Postmortem.Proofs.Trace.Visibility
import Postmortem.Proofs.Judge.Signal
import Postmortem.Proofs.Judge.Report
import Postmortem.Proofs.Command.Arguments
import Postmortem.Proofs.Number.Duration
import Postmortem.Proofs.Command.Trace
import Postmortem.Proofs.Json.Tolerance
import Postmortem.Proofs.Json.Schema
import Postmortem.Proofs.Line.Locality
import Postmortem.Proofs.Line.Meaning
import Postmortem.Proofs.Text.Lossy
import Postmortem.Proofs.Judge.Acceptance
import Postmortem.Proofs.Syntax.Fault
import Postmortem.Proofs.Line.Names
import Postmortem.Proofs.Number.Rounding
import Postmortem.Proofs.Number.Decimal
import Postmortem.Proofs.Toml.Entries
import Postmortem.Proofs.Settings.Layers
import Postmortem.Proofs.Settings.Limit
import Postmortem.Proofs.Files.Path
import Postmortem.Proofs.Run.Module
import Postmortem.Proofs.Judge.Cases
import Postmortem.Proofs.Trace.Closing
