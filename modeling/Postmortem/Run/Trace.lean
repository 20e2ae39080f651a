import Postmortem.Run.Host
import Postmortem.Run.Result
import Postmortem.Run.Target
import Postmortem.Trace.Recorder

/-!
# Traced runs

Running a program with the probe and making a trace of what the probe reports. Nothing that happens
to the program, and nothing that keeps it from running, leaves the caller without a result.

## What is left behind

The trace of a program that ended in time is also printed or written to a file, as the options say.
Neither has a say in the result, and nothing is printed or written in any other case.
-/

namespace Postmortem

open Line (Parser)

/-- How a program is run. -/
structure TraceOptions where
  /-- The directory under which modules are found. -/
  root : String := "."
  args : List String := []
  /-- The budget of the trace. -/
  maxChars : UInt64 := TraceLog.defaultBudget
  /-- Whether the trace is printed. -/
  echo : Bool := false
  timeout : Option Duration := none
  suppressStdout : Bool := true
  input : InputSource := .nothing
  launch : Launch := default
  python : String := "python3"
  /-- The file to which the trace is written. -/
  destination : Option String := none
deriving DecidableEq, Repr, Inhabited

/-- What came of a run under the probe. -/
inductive RunOutcome where
  /-- It ended by itself; what the probe reported is recorded. -/
  | completed (status : ExitStatus) (recorder : Recorder) (stderr : String)
  /-- It was stopped at the limit, and what the probe reported is lost. -/
  | timedOut
deriving Inhabited

/-- Runs a child whose output is the channel of the probe. Its error output is only seen if it is
captured. -/
def Child.record (c : Child) (captureStderr : Bool) (recorder : Recorder) : RunOutcome :=
  match c.ending with
  | none => .timedOut
  | some status =>
    .completed status (recorder.observeAll (Channel.events c.stdout))
      (if captureStderr then Text.Utf8.lossyString c.stderr else "")

/-- Why a target was not run. -/
inductive RunError where
  | target (e : TargetError)
  | start (program : String) (e : StartError)
deriving DecidableEq, Repr, Inhabited

/-- How an error is told, with its cause. -/
def RunError.message : RunError → String
  | target e => e.message
  | start program e => "Failed to start '" ++ program ++ "': " ++ e.message

/-- A run and what it left behind. -/
structure TraceRun where
  result : RunResult
  /-- What was printed. -/
  printed : Option String := none
  /-- The error output that was not captured. -/
  passedOn : List UInt8 := []
  files : FileStore
  /-- What the child saw, if it ended by itself. -/
  seen : Option Invocation := none
deriving Inhabited

namespace TraceRun

/-- The result of what a run under the probe came to. -/
def resultOf (limit : Option Duration) : RunOutcome → RunResult
  | .timedOut => .timedOut (limit.getD (.ofSeconds 0))
  | .completed status recorder stderr =>
    let outcome := recorder.finish
    match outcome.exit with
    | some report => ⟨report.hasError, report.traceback, outcome.trace⟩
    | none => ⟨true, abnormalExit status stderr, outcome.trace⟩

/-- The request for a target. -/
def requestFor (t : Target) (plan : LinePlan) (o : TraceOptions) (launch : Launch) :
    ProbeRequest where
  module := t.module
  script := t.source
  basename := t.basename
  launch := launch
  args := o.args
  suppressStdout := o.suppressStdout
  lines := plan.nameTable

/-- The text of the source of a target. One that cannot be read is empty. -/
def sourceOf (h : Host) (t : Target) : String :=
  (h.files.readText h.directory t.source).toOption.getD ""

/-- The lines of a target that are worth recording: none, if its source cannot be read. -/
def planOf (parse : Parser) (h : Host) (t : Target) : LinePlan :=
  LinePlan.ofSource parse (sourceOf h t)

/-- What a child is started for that runs a target. -/
def invocationFor (parse : Parser) (h : Host) (t : Target) (o : TraceOptions) (launch : Launch)
    (directory : String) : Invocation where
  role := .probe (requestFor t (planOf parse h t) o launch)
  source := sourceOf h t
  directory := directory
  stdin := h.inputText o.input

/-- Runs a target. -/
def ofTarget (parse : Parser) (h : Host) (t : Target) (o : TraceOptions) (launch : Launch) :
    Except RunError TraceRun :=
  match h.spawn o.python [] (some t.directory) (invocationFor parse h t o launch) with
  | .error e => .error (.start o.python e)
  | .ok (invocation, child) =>
    let outcome := child.record o.suppressStdout (.start (planOf parse h t) o.maxChars)
    let result := resultOf o.timeout outcome
    let passedOn := if o.suppressStdout then [] else child.stderr
    .ok <| match outcome with
      | .timedOut => { result, passedOn, files := h.files }
      | .completed .. =>
        { result, passedOn
          printed := if o.echo then some result.trace else none
          files := h.files.deliver h.directory o.destination result.trace
          seen := some invocation }

/-- A run that was not made has a result, too. -/
def settle (h : Host) : Except RunError TraceRun → TraceRun
  | .ok run => run
  | .error e => { result := .notRun e.message, files := h.files }

end TraceRun

/-- Traces a module. -/
def traceModule (parse : Parser) (h : Host) (module : String) (o : TraceOptions) : TraceRun :=
  .settle h <| match Target.ofModule o.root module with
    | .error e => .error (.target e)
    | .ok t => TraceRun.ofTarget parse h t o o.launch

/-- Traces a script, which is run as the main program. -/
def traceScript (parse : Parser) (h : Host) (script : String) (o : TraceOptions) : TraceRun :=
  .settle h <| match Target.ofScript h.files h.directory script with
    | .error e => .error (.target e)
    | .ok t => TraceRun.ofTarget parse h t o .script

end Postmortem
