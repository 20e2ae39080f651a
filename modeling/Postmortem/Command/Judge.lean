import Postmortem.Command.Outcome
import Postmortem.Judge.Report
import Postmortem.Settings.Basic

/-!
# The judging command

Judges programs on test cases and prints the reports in the interchange format, or writes them to a
file.
-/

namespace Postmortem.Command

open Line (Parser)

/-- The options of the command. -/
structure JudgeArguments where
  tests : Option String := none
  code : List String := []
  split : Option TestSplit := none
  output : Option String := none
deriving DecidableEq, Repr, Inhabited

namespace JudgeArguments

/-- What the command accepts. -/
def grammar : Grammar where
  options := [("tests", .one), ("code", .some), ("split", .one), ("output", .one)]
  trailing := false
  version := false

/-- Takes an option over. Paths are not empty, and only programs may be given several times. -/
def accept (a : JudgeArguments) (g : Given) : Except Refusal JudgeArguments :=
  match g.name, g.values with
  | "tests", [v] =>
    if v.isEmpty || a.tests.isSome then .error .invalid else .ok { a with tests := some v }
  | "code", vs =>
    if vs.any (·.isEmpty) then .error .invalid else .ok { a with code := a.code ++ vs }
  | "split", [v] =>
    match a.split, TestSplit.ofName v with
    | none, .ok s => .ok { a with split := some s }
    | _, _ => .error .invalid
  | "output", [v] =>
    if v.isEmpty || a.output.isSome then .error .invalid else .ok { a with output := some v }
  | _, _ => .error .invalid

/-- The options that arguments give. -/
def ofArguments (args : List String) : Except Refusal JudgeArguments :=
  match readArguments grammar accept (fun a _ => a) (args.length + 1) {} args with
  | .error r => .error r
  | .ok a => if a.tests.isNone || a.code.isEmpty then .error .invalid else .ok a

end JudgeArguments

/-- What is told of how the command is used. -/
def judgeUsage : String := "Usage: exectrace-signal [OPTIONS] --tests <TESTS> --code <CODE>...\n"

/-- Prints reports or writes them to a file. -/
def deliverReports (h : Host) (output : Option String) (reports : List CandidateReport) :
    Outcome :=
  let text := ((Json.Codec.list CandidateReport.codec).encode reports).onLines
  match output with
  | none => { stdout := text ++ "\n", files := h.files }
  | some path =>
    match h.files.writeText h.directory path text with
    | .ok files => { files }
    | .error e =>
      .failedBy h.files ("Failed to write report '" ++ path ++ "'") e.message

/-- Runs the command with its options. -/
def runJudgeWith (parse : Parser) (e : Environment) (a : JudgeArguments) : Outcome :=
  let h := e.host
  let settings := Settings.load h.files h.directory e.configDirectory e.python
  match TestBundle.ofFile h.files h.directory (a.tests.getD "") with
  | .error err => .failedBy h.files err.message err.cause
  | .ok bundle =>
    match bundle.cases (a.split.getD default) with
    | .error err => .failed h.files err.message
    | .ok cases =>
      match settings.signalOptions with
      | .error _ => .overflowed h.files
      | .ok o => deliverReports h a.output (reportAll parse h a.code cases o)

/-- Runs the command. -/
def runJudge (parse : Parser) (e : Environment) (args : List String) : Outcome :=
  match JudgeArguments.ofArguments args with
  | .ok a => runJudgeWith parse e a
  | .error .help => { stdout := judgeUsage, files := e.host.files }
  | .error _ => { code := 2, stderr := judgeUsage, files := e.host.files }

end Postmortem.Command
