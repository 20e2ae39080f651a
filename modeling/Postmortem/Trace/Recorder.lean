import Postmortem.Line.Plan
import Postmortem.Text.Utf8
import Postmortem.Trace.Entry
import Postmortem.Trace.Log

/-!
# Recorders

A recorder turns the messages of a probe into a trace: line messages for planned lines become
entries, and the last exit message tells how the program ended.

## Channels

Messages come as lines of a channel. A line that is no message is passed over; a line that is no
text ends the channel.
-/

namespace Postmortem

/-- What a run came to, as far as its probe told. -/
structure TraceOutcome where
  exit : Option ExitReport
  trace : String
deriving DecidableEq, Repr, Inhabited

/-- A recorder. -/
structure Recorder where
  plan : LinePlan
  log : TraceLog
  exit : Option ExitReport
deriving Inhabited

namespace Recorder

/-- A recorder that has seen nothing. -/
def start (plan : LinePlan) (budget : UInt64) : Recorder := ⟨plan, .empty budget, none⟩

/-- Records a line message. -/
def recordLine (r : Recorder) (line : Nat) (values : ProbedValues) : Recorder :=
  match r.plan.get? line with
  | none => r
  | some planned =>
    match Trace.entry? line planned.text values with
    | none => r
    | some entry => { r with log := r.log.record line entry }

/-- Takes note of a message. -/
def observe (r : Recorder) : ProbeEvent → Recorder
  | .line number values => r.recordLine number.toNat values
  | .exit report => { r with exit := some report }

/-- Takes note of messages in order. -/
def observeAll (r : Recorder) (events : List ProbeEvent) : Recorder := events.foldl observe r

/-- What the run came to. -/
def finish (r : Recorder) : TraceOutcome := ⟨r.exit, r.log.finalize.1⟩

end Recorder

namespace Channel

/-- The lines of a channel up to the first that is no text. -/
def textLines : List (List UInt8) → List (List Char)
  | [] => []
  | l :: ls =>
    match Text.Utf8.chars? l with
    | some cs => cs :: textLines ls
    | none => []

/-- The messages of a channel. -/
def events (bytes : List UInt8) : List ProbeEvent :=
  (textLines (Text.byteLines bytes)).filterMap fun cs => (ProbeEvent.codec.ofChars cs).toOption

end Channel

end Postmortem
