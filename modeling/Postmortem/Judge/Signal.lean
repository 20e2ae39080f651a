import Postmortem.Judge.Cases
import Postmortem.Judge.Verdict
import Postmortem.Run.Trace

/-!
# Error signals

What is known of a program on a test case: the verdict, what a compiler says of the program, its
error output, and, if a trace helps, the traceback and trace of a second run with the probe.

## Shape of a collection

A program is checked once and then judged on each case by itself; what a case yields depends on no
other. If a case cannot be judged at all, nothing is collected.
-/

namespace Postmortem

open Json (Codec Fields)
open Line (Parser)

/-- What is known of a program on a test case. -/
structure ErrorSignal where
  caseIndex : UInt64
  verdict : Verdict
  compilerError : Option String
  stderr : String
  timeoutFlag : Bool
  traceback : Option String
  variableTrace : Option String
deriving DecidableEq, Repr, Inhabited

namespace ErrorSignal

/-- The fields of a signal. -/
def fields :
    Fields [UInt64, Verdict, Option String, String, Bool, Option String, Option String] :=
  .field "case_index" .word <| .field "verdict" Verdict.codec <|
    .field "compiler_error" (.optional .text) <| .field "stderr" .text <|
    .field "timeout_flag" .flag <| .field "traceback" (.optional .text) <|
    .field "variable_trace" (.optional .text) .nil

/-- How signals are written. -/
def codec : Codec ErrorSignal :=
  .record fields
    (fun s => (s.caseIndex, s.verdict, s.compilerError, s.stderr, s.timeoutFlag, s.traceback,
      s.variableTrace, ()))
    fun (caseIndex, verdict, compilerError, stderr, timeoutFlag, traceback, variableTrace, ()) =>
      ⟨caseIndex, verdict, compilerError, stderr, timeoutFlag, traceback, variableTrace⟩

end ErrorSignal

/-- How programs are judged. -/
structure SignalOptions where
  python : String := "python3"
  judgeTimeout : Duration := .ofSeconds 2
  maxChars : UInt64 := TraceLog.defaultBudget
deriving DecidableEq, Repr, Inhabited

/-- What came of judging a program on a case. -/
structure Judgement where
  verdict : Verdict
  stderr : String
deriving DecidableEq, Repr, Inhabited

/-- How a program that cannot be started is reported. -/
def commandError (e : StartError) : String := "Failed to start command: " ++ e.message

/-- What a child is started for that is judged on a case. It runs in the directory of its program.
-/
def judgeInvocation (h : Host) (program : String) (c : TestCase) (directory : String) :
    Invocation where
  role := .judge
  source := h.textWithin (Path.parent? program) program
  directory := directory
  stdin := c.input

/-- Judges a program on a case. -/
def judgeCase (h : Host) (program : String) (c : TestCase) (o : SignalOptions) :
    Except StartError (Judgement × Invocation) := do
  let (invocation, child) ←
    h.spawn o.python [program] (Path.parent? program) (judgeInvocation h program c)
  let run := child.run
  return (⟨.ofRun run c.expected, Text.tail run.stderr maxErrorOutput⟩, invocation)

/-- The place of a program that is judged. -/
def candidatePath : String := "/candidate/solution.py"

/-- What a compiler says of a program: what the interpreter says or, if it does not check the
program, the first syntax error. -/
def compilerError (parse : Parser) (h : Host) (source : String) (o : SignalOptions) :
    Option String :=
  let ownCheck := (Line.syntaxIssue? parse source).map SyntaxIssue.text
  match h.spawn o.python [candidatePath] none fun directory => ⟨.check, source, directory, ""⟩ with
  | .error _ => ownCheck
  | .ok (_, child) =>
    let run := child.run
    if run.isSuccess then
      let said := Text.trimmed run.stdout
      if said.isEmpty then none else some said
    else ownCheck

/-- The host with a program in its place. -/
def Host.withCandidate (h : Host) (source : String) : Host :=
  let place := (Path.parts candidatePath).tail.reverse
  { h with files := h.files.addFile place (Text.Utf8.ofString source) }

/-- How a judged program is traced. -/
def SignalOptions.traceOptions (o : SignalOptions) (input : String) : TraceOptions :=
  { python := o.python, maxChars := o.maxChars, timeout := some o.judgeTimeout, launch := .script
    input := .text input }

/-- The signal of a program on a case. -/
def signalFor (parse : Parser) (h : Host) (compilerError : Option String) (o : SignalOptions)
    (index : Nat) (c : TestCase) : Except StartError ErrorSignal := do
  let (j, _) ← judgeCase h candidatePath c o
  let traced := if j.verdict.needsTrace then
      some (traceScript parse h candidatePath (o.traceOptions c.input)).result
    else none
  return {
    caseIndex := UInt64.ofNat index, verdict := j.verdict, compilerError, stderr := j.stderr
    timeoutFlag := j.verdict == .timeout, traceback := traced.map (·.traceback)
    variableTrace := traced.map (·.trace) }

/-- The signals of a program on cases that are numbered from `n` on. -/
def signalsFrom (parse : Parser) (h : Host) (compilerError : Option String) (o : SignalOptions)
    (n : Nat) : List TestCase → Except StartError (List ErrorSignal)
  | [] => .ok []
  | c :: cs => do
    let s ← signalFor parse h compilerError o n c
    let ss ← signalsFrom parse h compilerError o (n + 1) cs
    return s :: ss

/-- The signals of a program on cases. -/
def collectSignals (parse : Parser) (h : Host) (source : String) (cases : List TestCase)
    (o : SignalOptions) : Except StartError (List ErrorSignal) :=
  let h := h.withCandidate source
  signalsFrom parse h (compilerError parse h source o) o 0 cases

end Postmortem
