import Postmortem.Json.Printer
import Postmortem.Json.Range

/-!
# Drafts of values

A text that should hold a value is first read as a *draft*: its structure as far as it goes. Faults
stay where they were met, and nothing follows the first one that ends the text. Whoever looks at the
parts of a draft in order thus meets the faults in the order of the text, next to the parts that do
not have the wanted shape.

## Reading and skipping

Some faults concern only those who want the value: a text may hold half of a surrogate pair and a
number may be too great, and both can still be skipped. So numbers and texts carry two outcomes.
-/

namespace Postmortem.Json

/-- Why a text does not yield a value of the wanted kind. -/
inductive Fault where
  /-- It is no value. -/
  | malformed
  /-- It ends within the value. -/
  | truncated
  /-- It is a value, but not of the wanted kind. -/
  | mismatch
deriving DecidableEq, Repr, Inhabited

/-- A text between quotes. -/
structure Literal where
  /-- What is written after the opening quote, up to the closing quote or the end. -/
  written : List Char
  /-- The outcome for those who want the text. -/
  reading : Except Fault String
  /-- The outcome for those who skip it. -/
  skipping : Except Fault Unit
deriving Inhabited

/-- What stands where an object should have a name. -/
inductive Name where
  | literal (l : Literal)
  /-- Not a text; gives the fault of a missing name, and the fault met by those who want the text
  as a value. -/
  | other (missing : Fault) (unwanted : Fault)
deriving Inhabited

/-- A draft. -/
inductive Draft where
  | null
  | flag (b : Bool)
  /-- A number, with the outcomes for those who want it and those who skip it. -/
  | number (reading : Except Fault Numeral) (skipping : Except Fault Unit)
  | text (l : Literal)
  | list (items : List Draft) (ending : Except Fault Unit)
  | object (members : List (Name × Draft)) (ending : Except Fault Unit)
  /-- The beginning of a word that is none. -/
  | misspelt (f : Fault)
  /-- Nothing that begins a value. -/
  | missing (f : Fault)
deriving Inhabited

namespace Literal

/-- The literal of a text that is written in full. -/
def ofString (s : String) : Literal := ⟨literalTail s.toList, .ok s, .ok ()⟩

end Literal

namespace Draft

/-- The fault met by those who want something else. -/
def misfit : Draft → Fault
  | number (.error f) _ => f
  | text ⟨_, .error f, _⟩ => f
  | misspelt f => f
  | missing f => f
  | _ => .mismatch

mutual

/-- Skips a draft: the first fault in it, if there is one. -/
def skip : Draft → Except Fault Unit
  | null => .ok ()
  | flag _ => .ok ()
  | number _ skipping => skipping
  | text l => l.skipping
  | list items ending => do skipItems items; ending
  | object members ending => do skipMembers members; ending
  | misspelt f => .error f
  | missing f => .error f

/-- Skips items. -/
def skipItems : List Draft → Except Fault Unit
  | [] => .ok ()
  | d :: ds => do d.skip; skipItems ds

/-- Skips members. -/
def skipMembers : List (Name × Draft) → Except Fault Unit
  | [] => .ok ()
  | (.literal l, d) :: ms => do l.skipping; d.skip; skipMembers ms
  | (.other f _, _) :: _ => .error f

end

mutual

/-- Reads all of a draft, whatever its shape: the first fault in it, if there is one. Lists and
objects may be nested `depth - 1` deep. -/
def hold (depth : Nat) : Draft → Except Fault Unit
  | null => .ok ()
  | flag _ => .ok ()
  | number reading _ => do discard reading
  | text l => do discard l.reading
  | list items ending =>
    if depth ≤ 1 then .error .malformed else do holdItems (depth - 1) items; ending
  | object members ending =>
    if depth ≤ 1 then .error .malformed else do holdMembers (depth - 1) members; ending
  | misspelt f => .error f
  | missing f => .error f

/-- Reads items. -/
def holdItems (depth : Nat) : List Draft → Except Fault Unit
  | [] => .ok ()
  | d :: ds => do d.hold depth; holdItems depth ds

/-- Reads members. -/
def holdMembers (depth : Nat) : List (Name × Draft) → Except Fault Unit
  | [] => .ok ()
  | (.literal l, d) :: ms => do discard l.reading; d.hold depth; holdMembers depth ms
  | (.other f _, _) :: _ => .error f

end

end Draft

mutual

/-- The draft of a value that is written in full. -/
def draft : Json → Draft
  | null => .null
  | flag b => .flag b
  | number n => .number (if n.inRange then .ok n else .error .malformed) (.ok ())
  | text s => .text (.ofString s)
  | list items => .list (draftItems items) (.ok ())
  | object members => .object (draftMembers members) (.ok ())

/-- The drafts of items. -/
def draftItems : List Json → List Draft
  | [] => []
  | j :: js => j.draft :: draftItems js

/-- The drafts of members. -/
def draftMembers : List (String × Json) → List (Name × Draft)
  | [] => []
  | (k, j) :: ms => (.literal (.ofString k), j.draft) :: draftMembers ms

end

end Postmortem.Json
