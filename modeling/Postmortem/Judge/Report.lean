import Postmortem.Judge.Signal

/-!
# Reports

What is known of several programs on the same test cases. Each has a report of its own; a program
that cannot be read or judged has one that says so, and no signals.
-/

namespace Postmortem

open Json (Codec Fields)
open Line (Parser)

/-- What is known of a program. -/
structure CandidateReport where
  code : String
  summary : VerdictSummary
  signals : List ErrorSignal
  error : Option String
deriving DecidableEq, Repr, Inhabited

namespace CandidateReport

/-- The fields of a report. There is only an error if something went wrong. -/
def fields : Fields [String, VerdictSummary, List ErrorSignal, Option String] :=
  .field "code" .text <| .field "summary" VerdictSummary.codec <|
    .field "signals" (.list ErrorSignal.codec) <|
    .cons { name := "error", codec := .optional .text, isWritten := Option.isSome } .nil

/-- How reports are written. -/
def codec : Codec CandidateReport :=
  .record fields (fun r => (r.code, r.summary, r.signals, r.error, ()))
    fun (code, summary, signals, error, ()) => ⟨code, summary, signals, error⟩

end CandidateReport

/-- Why there are no signals of a program. -/
inductive CandidateError where
  | unreadable (path : String) (cause : FileError)
  | notStarted (cause : StartError)
deriving DecidableEq, Repr, Inhabited

/-- How an error is told, with its cause. -/
def CandidateError.message : CandidateError → String
  | unreadable path cause => "Failed to read candidate '" ++ path ++ "': " ++ cause.message
  | notStarted cause => commandError cause

/-- The signals of the program in a file. -/
def signalsOfFile (parse : Parser) (h : Host) (path : String) (cases : List TestCase)
    (o : SignalOptions) : Except CandidateError (List ErrorSignal) :=
  match h.files.readText h.directory path with
  | .error e => .error (.unreadable path e)
  | .ok source =>
    match collectSignals parse h source cases o with
    | .error e => .error (.notStarted e)
    | .ok signals => .ok signals

/-- The report on the program in a file. -/
def reportOn (parse : Parser) (h : Host) (cases : List TestCase) (o : SignalOptions)
    (path : String) : CandidateReport :=
  match signalsOfFile parse h path cases o with
  | .ok signals => ⟨path, .ofVerdicts (signals.map (·.verdict)), signals, none⟩
  | .error e => ⟨path, {}, [], some e.message⟩

/-- The reports on programs, in their order. -/
def reportAll (parse : Parser) (h : Host) (paths : List String) (cases : List TestCase)
    (o : SignalOptions) : List CandidateReport :=
  paths.map (reportOn parse h cases o)

end Postmortem
