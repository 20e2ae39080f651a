import Postmortem.Text.Blank

/-!
# Shown values

How the text of a value is shown: on one line, without blanks at its ends, and with an ellipsis in
place of the middle if it is long. What has been shortened once is not shortened again.
-/

namespace Postmortem.Trace

open Postmortem.Text

/-- The greatest number of characters of a value that is shown in full. -/
def maxShown : Nat := 50

/-- The number of characters that are shown of each end of a longer value. -/
def endShown : Nat := 25

/-- What stands for the middle of a longer value. -/
def ellipsis : List Char := ['.', '.', '.']

/-- The text on one line. -/
def onOneLine (cs : List Char) : List Char := (trim cs).map fun c => if c == '\n' then ' ' else c

/-- The text with an ellipsis in place of its middle, if it is long. -/
def elide (cs : List Char) : List Char :=
  if cs.length ≤ maxShown then cs
  else cs.take endShown ++ ellipsis ++ cs.drop (cs.length - endShown)

/-- How the text of a value is shown. -/
def shownChars (cs : List Char) : List Char := elide (onOneLine cs)

/-- How the text of a value is shown. -/
def shown (s : String) : String := .ofList (shownChars s.toList)

end Postmortem.Trace
