import Postmortem.Number.Digits
import Postmortem.Trace.Event
import Postmortem.Trace.Value

/-!
# Trace entries

The line of a trace that shows a line of the program and the values that it was about to read. Only
values that are part of the program's state are shown; without any there is no entry.
-/

namespace Postmortem.Trace

/-- How the value of a name is shown, if it is. -/
def item? (name : String) (v : ProbedValue) : Option (List Char) :=
  if v.kind.isState then v.text.map fun t => name.toList ++ '=' :: shownChars t.toList else none

/-- The shown values, by ascending name. -/
def items (values : ProbedValues) : List (List Char) :=
  values.entries.filterMap fun e => item? e.1 e.2

/-- The least number of characters for a line number. -/
def numberWidth : Nat := 3

/-- A line number, with blanks before it if it is short. -/
def numberChars (n : Nat) : List Char :=
  let ds := Number.digits n
  List.replicate (numberWidth - ds.length) ' ' ++ ds

/-- The entry for a line with a given number and text. -/
def entryChars (line : Nat) (text : List Char) (items : List (List Char)) : List Char :=
  "line ".toList ++ numberChars line ++ ": '".toList ++ text ++
    "', variables before line executes: ".toList ++ [',', ' '].intercalate items

/-- The entry for a line, if some value is shown. -/
def entry? (line : Nat) (text : String) (values : ProbedValues) : Option String :=
  let shown := items values
  if shown.isEmpty then none else some (.ofList (entryChars line text.toList shown))

end Postmortem.Trace
