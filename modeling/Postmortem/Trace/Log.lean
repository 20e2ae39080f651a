import Postmortem.Collections.Table

/-!
# Trace logs

What is known of the lines of a running program: for each line the last entry recorded for it, and
the order in which lines were last recorded. When the log is closed, the newest entries that fit
into a budget of characters make up the trace.

## Two parts

The entries are kept apart from the order. Recording a line again replaces its entry and makes it
the newest, so the order never repeats a line.

## The countdown

A closing takes off the lines one by one, the newest first, and counts the budget down in a signed
word of 64 bits. The budget itself is unsigned, so that the upper half of its range begins below
zero. Words wrap around, as they do where overflow is not checked for: from just above the least of
all, the first entry can carry the countdown past it to the greatest ones.
-/

namespace Postmortem

/-- A log. -/
structure TraceLog where
  /-- The number of characters of a trace, each entry counting one more. -/
  budget : UInt64
  /-- The last entry of each line. -/
  entries : Table Nat String
  /-- The lines, the last recorded one first. -/
  recency : List Nat
deriving DecidableEq, Repr, Inhabited

namespace TraceLog

/-- The budget of traces where none is given. -/
def defaultBudget : UInt64 := 2000

/-- A log without entries. -/
def empty (budget : UInt64) : TraceLog := ⟨budget, .empty, []⟩

/-- The number of lines. -/
def size (l : TraceLog) : Nat := l.recency.length

/-- Whether nothing is recorded. -/
def isEmpty (l : TraceLog) : Bool := l.recency.isEmpty

/-- Records an entry for a line. -/
def record (l : TraceLog) (line : Nat) (entry : String) : TraceLog :=
  { l with entries := l.entries.insert line entry, recency := line :: l.recency.erase line }

/-- What an entry takes from the budget: its characters and one more. No text has more characters
than a signed word can count, so nothing depends on the bound. -/
def charge (entry : String) : Int64 := .ofNat (min (entry.length + 1) (Nat.pow 2 63))

/-- How far the closing of a log has come. -/
structure Closing where
  /-- What is left of the budget. -/
  remaining : Int64
  /-- The entries that have not been taken off. -/
  entries : Table Nat String
  /-- The entries kept so far, the oldest one first. -/
  kept : List String
deriving DecidableEq, Repr

namespace Closing

/-- What taking off a line comes to. -/
inductive Outcome where
  /-- The line has no entry and is passed over. -/
  | skipped
  /-- Its entry is kept. -/
  | kept (c : Closing)
  /-- Its entry overdraws the budget, which ends the closing. -/
  | overdrawn (c : Closing)
deriving DecidableEq, Repr

/-- Takes off a line with its entry. -/
def takeOff (c : Closing) (line : Nat) : Outcome :=
  match c.entries.get? line with
  | none => .skipped
  | some entry =>
    let c := { c with remaining := c.remaining - charge entry, entries := c.entries.erase line }
    if c.remaining < 0 then .overdrawn c else .kept { c with kept := entry :: c.kept }

/-- Takes off lines until an entry does not fit, even if a later one would. Gives the lines that are
left, too. -/
def run (c : Closing) : List Nat → Closing × List Nat
  | [] => (c, [])
  | line :: lines =>
    match c.takeOff line with
    | .skipped => c.run lines
    | .kept c => c.run lines
    | .overdrawn c => (c, lines)

end Closing

/-- The closing of a log before any line is taken off. -/
def closing (l : TraceLog) : Closing := ⟨l.budget.toInt64, l.entries, []⟩

/-- The retained entries, the oldest one first. -/
def trace (l : TraceLog) : List String := (l.closing.run l.recency).1.kept

/-- Entries as one text, each on a line of its own. -/
def textOf (entries : List String) : String :=
  .ofList (['\n'].intercalate (entries.map String.toList))

/-- Closes the log: gives the text of the trace, and the log without entries. -/
def finalize (l : TraceLog) : String × TraceLog := (textOf l.trace, empty l.budget)

end TraceLog

end Postmortem
