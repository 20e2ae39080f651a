import Postmortem.Number.Duration
import Postmortem.Text.Blank

/-!
# Time limits

A time limit on a command line: a positive number of seconds, around which there may be blanks.
-/

namespace Postmortem

open Number

/-- Why a text is no time limit. -/
inductive LimitError where
  | notANumber (text : String)
  | notPositive (text : String)
  | overflow
deriving DecidableEq, Repr, Inhabited

/-- How an error is told. -/
def LimitError.message : LimitError → String
  | notANumber text => "'" ++ text ++ "' is not a number of seconds"
  | notPositive text => "timeout must be a positive number of seconds, got " ++ text
  | overflow => Duration.Overflow.message .overflow

/-- The time limit that a text stands for. -/
def Duration.ofText (text : String) : Except LimitError Duration :=
  match Binary64.ofChars? (Text.trim text.toList) with
  | none => .error (.notANumber text)
  | some x =>
    match ofBinary64 x with
    | .error _ => .error .overflow
    | .ok none => .error (.notPositive text)
    | .ok (some d) => .ok d

end Postmortem
