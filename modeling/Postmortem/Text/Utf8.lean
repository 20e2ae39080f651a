/-!
# UTF-8

Texts as bytes. Bytes are read one by one; where they cannot be part of a character any more, those
read so far for it make up one *gap*, and reading starts afresh. Bytes without gaps are a text; for
bytes with gaps a text can be made by putting U+FFFD in place of each gap.
-/

namespace Postmortem.Text.Utf8

/-- How far a character has been read. -/
structure State where
  /-- The number of bytes that are still to come. -/
  needed : Nat := 0
  /-- The least and greatest value of the next one. -/
  low : Nat := 0x80
  high : Nat := 0xbf
  /-- The value of those that have come. -/
  value : Nat := 0
  /-- The characters and gaps before, the last one first. -/
  seen : List (Option Char) := []
deriving Inhabited

namespace State

/-- Starts a character with a byte. -/
def start (s : State) (b : Nat) : State :=
  if b < 0x80 then { seen := some (.ofNat b) :: s.seen }
  else if 0xc2 ≤ b && b ≤ 0xdf then { needed := 1, value := b - 0xc0, seen := s.seen }
  else if 0xe0 ≤ b && b ≤ 0xef then
    { needed := 2, value := b - 0xe0, seen := s.seen
      -- shorter forms and surrogates are left out
      low := if b == 0xe0 then 0xa0 else 0x80, high := if b == 0xed then 0x9f else 0xbf }
  else if 0xf0 ≤ b && b ≤ 0xf4 then
    { needed := 3, value := b - 0xf0, seen := s.seen
      -- so are shorter forms and what lies above the last plane
      low := if b == 0xf0 then 0x90 else 0x80, high := if b == 0xf4 then 0x8f else 0xbf }
  else { seen := none :: s.seen }

/-- Reads one byte more. -/
def next (s : State) (byte : UInt8) : State :=
  let b := byte.toNat
  if s.needed == 0 then s.start b
  else if s.low ≤ b && b ≤ s.high then
    let value := s.value * 64 + (b - 0x80)
    if s.needed == 1 then { seen := some (.ofNat value) :: s.seen }
    else { needed := s.needed - 1, value, seen := s.seen }
  else start { seen := none :: s.seen } b

end State

/-- The characters and gaps of bytes. -/
def pieces (bytes : List UInt8) : List (Option Char) :=
  let s := bytes.foldl State.next {}
  (if s.needed == 0 then s.seen else none :: s.seen).reverse

/-- The text that bytes are, if they have no gaps. -/
def chars? (bytes : List UInt8) : Option (List Char) := (pieces bytes).mapM id

/-- The text of bytes, with U+FFFD for each gap. -/
def lossyChars (bytes : List UInt8) : List Char := (pieces bytes).map (·.getD '\ufffd')

/-- The text that bytes are, if they have no gaps. -/
def string? (bytes : List UInt8) : Option String := (chars? bytes).map String.ofList

/-- The text of bytes, with U+FFFD for each gap. -/
def lossyString (bytes : List UInt8) : String := .ofList (lossyChars bytes)

/-- The bytes of a text. -/
def encode (cs : List Char) : List UInt8 := cs.flatMap String.utf8EncodeChar

/-- The bytes of a text. -/
def ofString (s : String) : List UInt8 := encode s.toList

end Postmortem.Text.Utf8
