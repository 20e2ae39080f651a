import Postmortem.Json.Draft

/-!
# Reading texts between quotes

A text is read piece by piece: a character that stands for itself, an escape, or the closing quote.
Characters above the basic plane may be written as a pair of escapes; half of such a pair is no
character, so that a text with one cannot be read, but it can be skipped.
-/

namespace Postmortem.Json.Literal

/-- A piece of a text. -/
inductive Piece where
  | char (c : Char)
  /-- Half of a pair. -/
  | half
  /-- The closing quote. -/
  | close
  | fault (f : Fault)
deriving DecidableEq, Repr

/-- The value of a digit to the base sixteen. -/
def hexValue? (c : Char) : Option Nat :=
  let n := c.toNat
  if 0x30 ≤ n ∧ n ≤ 0x39 then some (n - 0x30)
  else if 0x41 ≤ n ∧ n ≤ 0x46 then some (n - 0x37)
  else if 0x61 ≤ n ∧ n ≤ 0x66 then some (n - 0x57)
  else none

/-- The value of the four digits to the base sixteen that begin a text. A text of fewer than four
bytes ends too early, whatever it holds. -/
def hexUnit (cs : List Char) : Except Fault (Nat × List Char) :=
  match cs with
  | a :: b :: c :: d :: rest =>
    match hexValue? a, hexValue? b, hexValue? c, hexValue? d with
    | some a, some b, some c, some d => .ok (((a * 16 + b) * 16 + c) * 16 + d, rest)
    | _, _, _, _ => .error .malformed
  | _ => if (String.ofList cs).utf8ByteSize < 4 then .error .truncated else .error .malformed

/-- The character of two halves. -/
def pairChar (high low : Nat) : Char := .ofNat (0x10000 + (high - 0xd800) * 0x400 + (low - 0xdc00))

/-- The piece whose first half has been read, and what follows. -/
def pairPiece (high : Nat) (cs : List Char) : Piece × List Char :=
  match cs with
  | [] => (.fault .truncated, [])
  | ['\\'] => (.fault .truncated, [])
  | '\\' :: 'u' :: rest =>
    match hexUnit rest with
    | .error f => (.fault f, [])
    | .ok (low, rest) =>
      if 0xdc00 ≤ low && low ≤ 0xdfff then (.char (pairChar high low), rest) else (.half, cs)
  | _ => (.half, cs)

/-- The piece whose escape `u` has been read, and what follows. -/
def unitPiece (cs : List Char) : Piece × List Char :=
  match hexUnit cs with
  | .error f => (.fault f, [])
  | .ok (high, rest) =>
    if 0xdc00 ≤ high && high ≤ 0xdfff then (.half, rest)
    else if high < 0xd800 || 0xdbff < high then (.char (.ofNat high), rest)
    else pairPiece high rest

/-- The first piece of a text, and what follows. -/
def piece : List Char → Piece × List Char
  | [] => (.fault .truncated, [])
  | '"' :: rest => (.close, rest)
  | '\\' :: [] => (.fault .truncated, [])
  | '\\' :: c :: rest =>
    match c with
    | '"' => (.char '"', rest)
    | '\\' => (.char '\\', rest)
    | '/' => (.char '/', rest)
    | 'b' => (.char '\x08', rest)
    | 'f' => (.char '\x0c', rest)
    | 'n' => (.char '\n', rest)
    | 'r' => (.char '\r', rest)
    | 't' => (.char '\t', rest)
    | 'u' => unitPiece rest
    | _ => (.fault .malformed, [])
  | c :: rest => if c.toNat < 0x20 then (.fault .malformed, []) else (.char c, rest)

/-- The outcomes of a text, and what follows its closing quote. -/
structure Scan where
  reading : Except Fault (List Char)
  skipping : Except Fault Unit
  rest : List Char
deriving Inhabited

/-- Reads the pieces of a text to the end; `seen` holds the characters so far, the last one first,
or the fault that keeps the text from being read. `fuel` bounds the number of pieces. -/
def scanFrom : Nat → Except Fault (List Char) → List Char → Scan
  | 0, _, _ => ⟨.error .truncated, .error .truncated, []⟩
  | fuel + 1, seen, cs =>
    match piece cs with
    | (.char c, rest) => scanFrom fuel (seen.map (c :: ·)) rest
    | (.half, rest) => scanFrom fuel (seen.bind fun _ => .error .malformed) rest
    | (.close, rest) => ⟨seen.map List.reverse, .ok (), rest⟩
    | (.fault f, _) => ⟨seen.bind fun _ => .error f, .error f, []⟩

/-- The literal whose opening quote has been read, and what follows it. -/
def scan (cs : List Char) : Literal × List Char :=
  let s := scanFrom (cs.length + 1) (.ok []) cs
  (⟨cs.take (cs.length - s.rest.length), s.reading.map String.ofList, s.skipping⟩, s.rest)

end Postmortem.Json.Literal
