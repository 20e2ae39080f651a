/-!
# Source texts

A source text as an array of characters, with the place of each: its number, its byte, and its row
and column counted from zero. A line feed ends a row, and columns count bytes.
-/

namespace Postmortem.Text

/-- A place in a text: the character that begins there, counted in three ways. -/
structure Mark where
  /-- The number of characters before. -/
  index : Nat
  /-- The number of bytes before. -/
  byte : Nat
  /-- The number of line feeds before. -/
  row : Nat
  /-- The number of bytes since the last line feed. -/
  column : Nat
deriving BEq, DecidableEq, Repr, Inhabited

namespace Mark

/-- The place after a character. -/
def next (m : Mark) (c : Char) : Mark :=
  if c == '\n' then ⟨m.index + 1, m.byte + c.utf8Size, m.row + 1, 0⟩
  else ⟨m.index + 1, m.byte + c.utf8Size, m.row, m.column + c.utf8Size⟩

/-- The beginning of a text. -/
def zero : Mark := ⟨0, 0, 0, 0⟩

end Mark

/-- A text with the places of its characters; the last mark is the end. -/
structure Source where
  text : String
  chars : Array Char
  marks : Array Mark
deriving Inhabited

namespace Source

/-- A text as a source. -/
def ofString (s : String) : Source :=
  let chars := s.toList.toArray
  let (marks, last) := chars.foldl (fun (acc : Array Mark × Mark) c =>
    (acc.1.push acc.2, acc.2.next c)) (Array.mkEmpty (chars.size + 1), Mark.zero)
  ⟨s, chars, marks.push last⟩

/-- The number of characters. -/
def size (s : Source) : Nat := s.chars.size

/-- The character at a place, or NUL at the end. -/
def peek (s : Source) (i : Nat) : Char := s.chars.getD i '\x00'

/-- Whether a place is the end. -/
def atEnd (s : Source) (i : Nat) : Bool := s.chars.size ≤ i

/-- The place of a character. -/
def mark (s : Source) (i : Nat) : Mark := s.marks.getD (min i s.chars.size) .zero

/-- The text between two places. -/
def slice (s : Source) (start stop : Nat) : String :=
  String.ofList (s.chars.extract start stop).toList

end Source

end Postmortem.Text
