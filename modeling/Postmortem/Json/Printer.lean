import Postmortem.Json.Basic

/-!
# Writing values

Two layouts: the compact one without any blanks, and one that gives each item and each member a
line of its own, two blanks further in than what holds it.
-/

namespace Postmortem.Json

/-- A digit to the base sixteen. -/
def hexDigit (n : Nat) : Char := "0123456789abcdef".toList.getD n '0'

/-- A character within a text: quotes, backslashes and controls are written as escapes. -/
def escapeChar (c : Char) : List Char :=
  if c == '"' then ['\\', '"']
  else if c == '\\' then ['\\', '\\']
  else if c == '\x08' then ['\\', 'b']
  else if c == '\x0c' then ['\\', 'f']
  else if c == '\n' then ['\\', 'n']
  else if c == '\r' then ['\\', 'r']
  else if c == '\t' then ['\\', 't']
  else if c.toNat < 0x20 then
    ['\\', 'u', '0', '0', hexDigit (c.toNat / 16), hexDigit (c.toNat % 16)]
  else [c]

/-- A text with its closing quote. -/
def literalTail (cs : List Char) : List Char := cs.flatMap escapeChar ++ ['"']

/-- A text between quotes. -/
def literal (s : String) : List Char := '"' :: literalTail s.toList

/-- A truth value. -/
def flagChars (b : Bool) : List Char := if b then "true".toList else "false".toList

mutual

/-- The compact layout of a value. -/
def chars : Json → List Char
  | null => "null".toList
  | flag b => flagChars b
  | number n => n.chars
  | text s => literal s
  | list items => '[' :: itemChars items
  | object members => '\x7b' :: memberChars members

/-- The items of a list and its end. -/
def itemChars : List Json → List Char
  | [] => [']']
  | [j] => j.chars ++ [']']
  | j :: js => j.chars ++ ',' :: itemChars js

/-- The members of an object and its end. -/
def memberChars : List (String × Json) → List Char
  | [] => ['\x7d']
  | [(k, j)] => literal k ++ ':' :: (j.chars ++ ['\x7d'])
  | (k, j) :: ms => literal k ++ ':' :: (j.chars ++ ',' :: memberChars ms)

end

/-- The start of a line at some depth. -/
def lineStart (depth : Nat) : List Char := '\n' :: List.replicate (2 * depth) ' '

mutual

/-- The layout of a value on lines, at some depth. -/
def lineChars (depth : Nat) : Json → List Char
  | null => "null".toList
  | flag b => flagChars b
  | number n => n.chars
  | text s => literal s
  | list [] => ['[', ']']
  | list items => '[' :: itemLines (depth + 1) items
  | object [] => ['\x7b', '\x7d']
  | object members => '\x7b' :: memberLines (depth + 1) members

/-- The items of a list that is not empty, at some depth, and its end. -/
def itemLines (depth : Nat) : List Json → List Char
  | [] => lineStart (depth - 1) ++ [']']
  | [j] => lineStart depth ++ j.lineChars depth ++ lineStart (depth - 1) ++ [']']
  | j :: js => lineStart depth ++ j.lineChars depth ++ ',' :: itemLines depth js

/-- The members of an object that is not empty, at some depth, and its end. -/
def memberLines (depth : Nat) : List (String × Json) → List Char
  | [] => lineStart (depth - 1) ++ ['\x7d']
  | [(k, j)] =>
    lineStart depth ++ literal k ++ ':' :: ' ' :: j.lineChars depth ++ lineStart (depth - 1) ++
      ['\x7d']
  | (k, j) :: ms =>
    lineStart depth ++ literal k ++ ':' :: ' ' :: j.lineChars depth ++ ',' :: memberLines depth ms

end

/-- A value as compact text. -/
def compact (j : Json) : String := .ofList j.chars

/-- A value as text on lines. -/
def onLines (j : Json) : String := .ofList (j.lineChars 0)

end Postmortem.Json
