import Postmortem.Json.Record
import Postmortem.Number.Duration
import Postmortem.Run.Child
import Postmortem.Text.Blank
import Postmortem.Text.Tail

/-!
# Results of runs

What is reported of a traced program: whether it failed, how, and its trace. A run always has a
result, also if it did not end in time or could not be started at all.
-/

namespace Postmortem

open Json (Codec Fields)

/-- The result of a traced run. -/
structure RunResult where
  hasError : Bool
  traceback : String
  trace : String
deriving DecidableEq, Repr, Inhabited

namespace RunResult

/-- The fields of a result. -/
def fields : Fields [Bool, String, String] :=
  .field "has_error" .flag <| .field "traceback" .text <| .field "trace" .text .nil

/-- How results are written. -/
def codec : Codec RunResult :=
  .record fields (fun r => (r.hasError, r.traceback, r.trace, ()))
    fun (hasError, traceback, trace, ()) => ⟨hasError, traceback, trace⟩

/-- The result of a run that did not end in time. -/
def timedOut (limit : Duration) : RunResult where
  hasError := true
  traceback :=
    "Error: Timeout of " ++ limit.text ++ " seconds exceeded. Code did not exit in time. " ++
      "Modify code to reduce execution time."
  trace := ""

/-- The result of a run that could not be made. -/
def notRun (reason : String) : RunResult where
  hasError := true
  traceback := "Error: tracer failed to run: " ++ reason
  trace := ""

end RunResult

/-- The greatest number of characters of error output that is reported. -/
def maxErrorOutput : Nat := 8000

/-- What is said of a program that ended without a report. -/
def abnormalExit (status : ExitStatus) (stderr : String) : String :=
  let output := Text.tail (Text.trimmed stderr) maxErrorOutput
  let said := "Error: traced process exited with " ++ status.text ++ " before reporting"
  if output.isEmpty then said else said ++ "\n" ++ output

end Postmortem
