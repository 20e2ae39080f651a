import Postmortem.Toml.Scalar

/-!
# Reading settings files

A file is a sequence of lines: blank ones, comments, headers, and keys with values. Lists may spread
over lines, tables that are values may not.
-/

namespace Postmortem.Toml

/-- How deep values may be nested, and one more. -/
def maxDepth : Nat := 80

/-! ## Keys -/

/-- Whether a character may stand in a key without quotes. -/
def isKeyChar (c : Char) : Bool :=
  Number.isDigit c || c == '_' || c == '-' ||
    ('a'.toNat ≤ (Number.lowerLetter c).toNat && (Number.lowerLetter c).toNat ≤ 'z'.toNat)

/-- Reads a key without dots. -/
def simpleKey? (cs : List Char) : Option (String × List Char) :=
  match cs with
  | '"' :: _ => shortText? cs
  | '\x27' :: _ => shortText? cs
  | cs =>
    let name := cs.takeWhile isKeyChar
    if name.isEmpty then none else some (.ofList name, cs.dropWhile isKeyChar)

/-- Reads the parts of a key, with blanks around them. -/
def keyParts? : Nat → List Char → Option (List String × List Char)
  | 0, _ => none
  | fuel + 1, cs => do
    let (part, rest) ← simpleKey? (skipGap cs)
    match skipGap rest with
    | '.' :: rest =>
      let (parts, rest) ← keyParts? fuel rest
      return (part :: parts, rest)
    | rest => return ([part], rest)

/-- Reads a key: its parts but the last, and the last. -/
def key? (cs : List Char) : Option ((List String × String) × List Char) := do
  let (parts, rest) ← keyParts? maxDepth cs
  if maxDepth ≤ parts.length then none else
    let last ← parts.getLast?
    return ((parts.dropLast, last), rest)

/-! ## Values -/

/-- What follows a comment, if there is one, on its line. -/
def skipComment : List Char → List Char
  | '#' :: cs => cs.dropWhile isPlain
  | cs => cs

/-- Skips blanks, line ends and comments. -/
def skipLines : Nat → List Char → List Char
  | 0, cs => cs
  | fuel + 1, cs =>
    match skipGap cs with
    | '#' :: cs => skipLines fuel (cs.dropWhile isPlain)
    | cs =>
      match newline? cs with
      | some rest => skipLines fuel rest
      | none => cs

mutual

/-- Reads a value; it may be nested so deep. `fuel` bounds the number of its parts. -/
def value? (depth : Nat) : Nat → List Char → Option (Value × List Char)
  | 0, _ => none
  | fuel + 1, cs =>
    match cs with
    | [] => none
    | c :: rest =>
      if c == '"' || c == '\x27' then (text? cs).map fun (s, rest) => (.text s, rest)
      else if c == '[' then
        if depth ≤ 1 then none else
          match skipLines rest.length rest with
          | ']' :: rest => some (.list [], rest)
          | rest => (items? (depth - 1) fuel rest).map fun (vs, rest) => (.list vs, rest)
      else if c == '\x7b' then
        if depth ≤ 1 then none else
          match skipGap rest with
          | '\x7d' :: rest => some (.closed [], rest)
          | rest => do
            let (pairs, rest) ← pairs? (depth - 1) fuel rest
            return (← closedTable? pairs, rest)
      else if c == '+' || c == '-' || Number.isDigit c then numeric? cs
      else match cs with
        | 't' :: 'r' :: 'u' :: 'e' :: rest => some (.flag true, rest)
        | 'f' :: 'a' :: 'l' :: 's' :: 'e' :: rest => some (.flag false, rest)
        | cs => specialFloat? false cs

/-- Reads the items of a list, at least one, and its end. -/
def items? (depth : Nat) : Nat → List Char → Option (List Value × List Char)
  | 0, _ => none
  | fuel + 1, cs => do
    let (v, rest) ← value? depth fuel (skipLines cs.length cs)
    match skipLines rest.length rest with
    | ']' :: rest => return ([v], rest)
    | ',' :: rest =>
      match skipLines rest.length rest with
      | ']' :: rest => return ([v], rest)
      | rest =>
        let (vs, rest) ← items? depth fuel rest
        return (v :: vs, rest)
    | _ => none

/-- Reads the pairs of a table on one line, at least one, and its end. -/
def pairs? (depth : Nat) : Nat → List Char →
    Option (List (List String × String × Value) × List Char)
  | 0, _ => none
  | fuel + 1, cs => do
    let ((path, key), rest) ← key? cs
    match rest with
    | '=' :: rest => do
      let (v, rest) ← value? depth fuel (skipGap rest)
      match skipGap rest with
      | '\x7d' :: rest => return ([(path, key, v)], rest)
      | ',' :: rest =>
        let (ps, rest) ← pairs? depth fuel rest
        return ((path, key, v) :: ps, rest)
      | _ => none
    | _ => none

end

/-! ## Lines -/

/-- Skips the rest of a line that holds nothing more, but perhaps a comment. -/
def endLine? (cs : List Char) : Option (List Char) :=
  match skipComment (skipGap cs) with
  | [] => some []
  | cs => newline? cs

/-- Reads a header. -/
def header? (p : Progress) (cs : List Char) : Option (Progress × List Char) :=
  match cs with
  | '[' :: '[' :: cs => do
    let ((path, key), rest) ← key? cs
    match rest with
    | ']' :: ']' :: rest => return (← p.openElement (path ++ [key]), ← endLine? rest)
    | _ => none
  | '[' :: cs => do
    let ((path, key), rest) ← key? cs
    match rest with
    | ']' :: rest => return (← p.openTable (path ++ [key]), ← endLine? rest)
    | _ => none
  | _ => none

/-- Reads a key with its value. -/
def pair? (p : Progress) (cs : List Char) : Option (Progress × List Char) := do
  let ((path, key), rest) ← key? cs
  match rest with
  | '=' :: rest => do
    let (v, rest) ← value? maxDepth (rest.length + 1) (skipGap rest)
    return (← p.add path key v, ← endLine? rest)
  | _ => none

/-- Reads lines to the end; `fuel` bounds their number. -/
def lines? : Nat → Progress → List Char → Option Progress
  | 0, _, _ => none
  | fuel + 1, p, cs =>
    match skipGap cs with
    | [] => some p
    | '[' :: cs => do
      let (p, rest) ← header? p ('[' :: cs)
      lines? fuel p rest
    | cs =>
      match endLine? cs with
      | some rest => lines? fuel p rest
      | none => do
        let (p, rest) ← pair? p cs
        lines? fuel p rest

/-- The entries of a file, if it is one. A byte order mark may come first. -/
def read? (cs : List Char) : Option Entries := do
  let cs := match cs with
    | '\ufeff' :: cs => cs
    | cs => cs
  (← lines? (cs.length + 1) {} cs).close

end Postmortem.Toml
