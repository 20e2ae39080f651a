/-!
# Lines

A text as its lines. A line feed ends a line, and a carriage return right before it is part of the
end; what follows the last line feed is a line unless it is empty.
-/

namespace Postmortem.Text

/-- What stands before, between and after the separators of a list: one part more than there are
separators. -/
def splitAt {α : Type} [BEq α] (separator : α) (xs : List α) : List (List α) :=
  xs.foldr (fun x parts =>
    if x == separator then [] :: parts
    else match parts with
      | [] => [[x]]
      | part :: parts => (x :: part) :: parts) [[]]

/-- A line without the return at its end. -/
def dropReturn {α : Type} [BEq α] (ret : α) (line : List α) : List α :=
  if line.getLast? == some ret then line.dropLast else line

/-- The lines that line feeds end, and the rest if it is not empty. -/
def closedLines {α : Type} [BEq α] (ret : α) : List (List α) → List (List α)
  | [] => []
  | [rest] => if rest.isEmpty then [] else [rest]
  | l :: ls => dropReturn ret l :: closedLines ret ls

/-- The lines of a text. -/
def lines (cs : List Char) : List (List Char) := closedLines '\r' (splitAt '\n' cs)

/-- The lines of a text in bytes. -/
def byteLines (bytes : List UInt8) : List (List UInt8) := closedLines 13 (splitAt 10 bytes)

end Postmortem.Text
