import Postmortem.Json.Record
import Postmortem.Run.Child
import Postmortem.Text.Blank

/-!
# Verdicts

How a program did on a test case. It passes if it ends well, in time, and with the expected output;
blanks at the ends of the output do not count.
-/

namespace Postmortem

open Json (Codec Fields)

/-- A verdict. -/
inductive Verdict where
  | passed
  | failed
  | timeout
  | error
deriving DecidableEq, Repr, Inhabited

namespace Verdict

/-- The name of a verdict. -/
def name : Verdict → String
  | passed => "Passed"
  | failed => "Failed"
  | timeout => "Timeout"
  | error => "Error"

/-- All verdicts by name. -/
def choices : List (String × Verdict) := [passed, failed, timeout, error].map fun v => (v.name, v)

/-- How verdicts are written. -/
def codec : Codec Verdict := .choice choices name

/-- The verdict on a run. -/
def ofRun (r : CommandRun) (expected : String) : Verdict :=
  if r.timedOut then timeout
  else if !r.isSuccess then error
  else if Text.trimmed r.stdout == Text.trimmed expected then passed
  else failed

/-- Whether a trace helps to see what went wrong. -/
def needsTrace (v : Verdict) : Bool := v == failed || v == error

end Verdict

/-- How many verdicts there are of each kind. -/
structure VerdictSummary where
  testCases : UInt64 := 0
  passed : UInt64 := 0
  failed : UInt64 := 0
  timeouts : UInt64 := 0
  errors : UInt64 := 0
deriving DecidableEq, Repr, Inhabited

namespace VerdictSummary

/-- The fields of a summary. -/
def fields : Fields [UInt64, UInt64, UInt64, UInt64, UInt64] :=
  .field "test_cases" .word <| .field "passed" .word <| .field "failed" .word <|
    .field "timeouts" .word <| .field "errors" .word .nil

/-- How summaries are written. -/
def codec : Codec VerdictSummary :=
  .record fields (fun s => (s.testCases, s.passed, s.failed, s.timeouts, s.errors, ()))
    fun (testCases, passed, failed, timeouts, errors, ()) =>
      ⟨testCases, passed, failed, timeouts, errors⟩

/-- The summary with one verdict more, the number of cases aside. -/
def add (s : VerdictSummary) : Verdict → VerdictSummary
  | .passed => { s with passed := s.passed + 1 }
  | .failed => { s with failed := s.failed + 1 }
  | .timeout => { s with timeouts := s.timeouts + 1 }
  | .error => { s with errors := s.errors + 1 }

/-- The summary of verdicts. -/
def ofVerdicts (vs : List Verdict) : VerdictSummary :=
  vs.foldl add { testCases := UInt64.ofNat vs.length }

end VerdictSummary

end Postmortem
