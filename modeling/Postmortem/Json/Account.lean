import Postmortem.Json.Reader
import Postmortem.Number.Shortest

/-!
# Accounts of faults

What is said to a person about a text that does not hold a value of a wanted shape: the first fault
in it, and the line and column in bytes where it was noticed. Some faults are noticed at a character
that has been read, others at one that is only looked at; the latter counts as one byte more.
-/

namespace Postmortem.Json

/-- The shape of a value. -/
inductive Shape where
  | text
  | list (items : Shape)
  | table (values : Shape)

/-- How a shape is named. -/
def Shape.name : Shape → String
  | text => "a string"
  | list _ => "a sequence"
  | table _ => "a map"

/-- A fault and where it was noticed. -/
structure Account where
  said : String
  /-- What had not been read. -/
  rest : List Char
  /-- Whether the next character had been looked at. -/
  looked : Bool
deriving Repr, Inhabited

namespace Account

/-- A fault at what has been read. -/
def behind {α : Type} (said : String) (rest : List Char) : Except Account α :=
  .error ⟨said, rest, false⟩

/-- A fault at the next character. -/
def ahead {α : Type} (said : String) (rest : List Char) : Except Account α :=
  .error ⟨said, rest, true⟩

/-- The text ends within something. -/
def ended {α : Type} (within : String) : Except Account α :=
  behind ("EOF while parsing " ++ within) []

/-! ## Single values -/

/-- What follows at least so many bytes. -/
def dropBytes : Nat → List Char → List Char
  | 0, cs => cs
  | _ + 1, [] => []
  | n + 1, c :: cs => dropBytes (n + 1 - c.utf8Size) cs

/-- Reads the four digits of an escape. -/
def readUnit (cs : List Char) : Except Account (Nat × List Char) :=
  match Literal.hexUnit cs with
  | .ok found => .ok found
  | .error .truncated => ended "a string"
  | .error _ => behind "invalid escape" (dropBytes 4 cs)

/-- Reads the rest of an escape whose `u` has been read. -/
def readEscapedUnit (cs : List Char) : Except Account (Char × List Char) := do
  let (high, rest) ← readUnit cs
  if 0xdc00 ≤ high && high ≤ 0xdfff then behind "lone leading surrogate in hex escape" rest
  else if high < 0xd800 || 0xdbff < high then return (.ofNat high, rest)
  else match rest with
    | [] => ended "a string"
    | ['\\'] => ended "a string"
    | '\\' :: 'u' :: rest => do
      let (low, rest) ← readUnit rest
      if 0xdc00 ≤ low && low ≤ 0xdfff then return (Literal.pairChar high low, rest)
      else behind "lone leading surrogate in hex escape" rest
    | '\\' :: rest => ahead "unexpected end of hex escape" rest
    | rest => ahead "unexpected end of hex escape" rest

/-- Reads a text whose opening quote has been read. `fuel` bounds the number of characters. -/
def readText : Nat → List Char → List Char → Except Account (List Char × List Char)
  | 0, _, _ => ended "a string"
  | fuel + 1, seen, cs =>
    match cs with
    | [] => ended "a string"
    | '"' :: rest => .ok (seen.reverse, rest)
    | '\\' :: [] => ended "a string"
    | '\\' :: 'u' :: rest => do
      let (c, rest) ← readEscapedUnit rest
      readText fuel (c :: seen) rest
    | '\\' :: c :: rest =>
      match Literal.piece ['\\', c] with
      | (.char c, _) => readText fuel (c :: seen) rest
      | _ => ahead "invalid escape" (c :: rest)
    | c :: rest =>
      if c.toNat < 0x20 then
        behind "control character (\\u0000-\\u001F) found while parsing a string" rest
      else readText fuel (c :: seen) rest

/-- Reads the rest of a word. -/
def readWord : List Char → List Char → Except Account (Unit × List Char)
  | [], rest => .ok ((), rest)
  | _ :: _, [] => ended "a value"
  | w :: ws, c :: cs => if w == c then readWord ws cs else ahead "expected ident" (c :: cs)

/-- The fault of a number that lacks a digit where `rest` begins. -/
def noDigit {α : Type} (rest : List Char) : Except Account α :=
  if rest.isEmpty then ended "a value" else ahead "invalid number" rest

/-- How a character is shown between quotes. -/
def shownChar (c : Char) : List Char :=
  if c == '"' then ['\\', '"']
  else if c == '\\' then ['\\', '\\']
  else if c == '\n' then ['\\', 'n']
  else if c == '\r' then ['\\', 'r']
  else if c == '\t' then ['\\', 't']
  else if c == '\x00' then ['\\', '0']
  else if c.toNat < 0x20 || c.toNat == 0x7f then
    "\\u\x7b".toList ++ (Nat.toDigits 16 c.toNat) ++ ['\x7d']
  else [c]

/-- How a number is named. -/
def numberName (n : Numeral) : String :=
  let sign := if n.negative then "-" else ""
  let zero := n.whole == 0 && n.negative
  if n.fraction.isEmpty && n.exponent.isNone && n.whole < UInt64.size && !zero &&
      (!n.negative || n.whole ≤ UInt64.size / 2) then
    "integer \x60" ++ sign ++ .ofList (Number.digits n.whole) ++ "\x60"
  else "floating point \x60" ++ sign ++ .ofList n.size.pointedChars ++ "\x60"

/-- Reads a number. -/
def readNumber (negative : Bool) (cs : List Char) : Except Account (Numeral × List Char) :=
  match Json.readNumber negative cs with
  | (.number (.ok n) _, some rest) => .ok (n, rest)
  | (_, some rest) => behind "number out of range" rest
  | (_, none) =>
    -- the digit is missing at the beginning, after a zero, after the point, or in the power
    let whole := cs.takeWhile Number.isDigit
    let rest := cs.dropWhile Number.isDigit
    match whole, rest with
    | [], rest => noDigit rest
    | '0' :: second :: more, rest => ahead "invalid number" (second :: more ++ rest)
    | _, '.' :: rest =>
      let after := rest.dropWhile Number.isDigit
      if after.length == rest.length then noDigit rest else inPower after
    | _, rest => inPower rest
where
  inPower (rest : List Char) : Except Account (Numeral × List Char) :=
    match rest.tail with
    | '+' :: rest => noDigit rest
    | '-' :: rest => noDigit rest
    | rest => noDigit rest

/-- The fault of a value of another shape than the wanted one. -/
def misfit {α : Type} (wanted : Shape) (cs : List Char) : Except Account α :=
  let typed {β : Type} (found : String) (rest : List Char) : Except Account β :=
    behind ("invalid type: " ++ found ++ ", expected " ++ wanted.name) rest
  match cs with
  | [] => ended "a value"
  | c :: rest => do
    if c == 'n' then
      let (_, rest) ← readWord "ull".toList rest
      typed "null" rest
    else if c == 't' then
      let (_, rest) ← readWord "rue".toList rest
      typed "boolean \x60true\x60" rest
    else if c == 'f' then
      let (_, rest) ← readWord "alse".toList rest
      typed "boolean \x60false\x60" rest
    else if c == '-' then
      let (n, rest) ← readNumber true rest
      typed (numberName n) rest
    else if Number.isDigit c then
      let (n, rest) ← readNumber false cs
      typed (numberName n) rest
    else if c == '"' then
      let (s, rest) ← readText (rest.length + 1) [] rest
      typed ("string \"" ++ .ofList (s.flatMap shownChar) ++ "\"") rest
    else if c == '[' then typed "sequence" cs
    else if c == '\x7b' then typed "map" cs
    else ahead "expected value" cs

/-! ## Lists and tables -/

/-- Reads the items of a list, each by `item`. -/
def readItems (item : List Char → Except Account (Unit × List Char)) : Nat → Bool → List Char → Except Account (Unit × List Char)
  | 0, _, _ => ended "a list"
  | fuel + 1, first, cs =>
    let more (cs : List Char) : Except Account (Unit × List Char) := do
      let (_, rest) ← item cs
      readItems item fuel false rest
    match skipGap cs with
    | [] => ended "a list"
    | ']' :: rest => .ok ((), rest)
    | ',' :: rest =>
      if first then more (skipGap cs) else
        match skipGap rest with
        | [] => ended "a value"
        | ']' :: rest => ahead "trailing comma" (']' :: rest)
        | cs => more cs
    | cs => if first then more cs else ahead "expected \x60,\x60 or \x60]\x60" cs

/-- Reads the entries of a table, the value of each by `value`. -/
def readEntries (value : List Char → Except Account (Unit × List Char)) : Nat → Bool → List Char → Except Account (Unit × List Char)
  | 0, _, _ => ended "an object"
  | fuel + 1, first, cs =>
    let more (cs : List Char) : Except Account (Unit × List Char) := do
      match cs with
      | [] => ended "a value"
      | '"' :: rest => do
        let (_, rest) ← readText (rest.length + 1) [] rest
        match skipGap rest with
        | [] => ended "an object"
        | ':' :: rest => do
          let (_, rest) ← value rest
          readEntries value fuel false rest
        | rest => ahead "expected \x60:\x60" rest
      | '\x7d' :: rest => ahead "trailing comma" ('\x7d' :: rest)
      | cs => ahead "key must be a string" cs
    match skipGap cs with
    | [] => ended "an object"
    | '\x7d' :: rest => .ok ((), rest)
    | ',' :: rest => if first then ahead "key must be a string" (',' :: rest) else more (skipGap rest)
    | cs => if first then more cs else ahead "expected \x60,\x60 or \x60\x7d\x60" cs

/-- Reads a value of a shape. -/
def read : Shape → List Char → Except Account (Unit × List Char)
  | .text, cs =>
    match skipGap cs with
    | '"' :: rest => (readText (rest.length + 1) [] rest).map fun (_, rest) => ((), rest)
    | cs => misfit .text cs
  | .list s, cs =>
    match skipGap cs with
    | '[' :: rest => readItems (read s) (rest.length + 1) true rest
    | cs => misfit (.list s) cs
  | .table s, cs =>
    match skipGap cs with
    | '\x7b' :: rest => readEntries (read s) (rest.length + 1) true rest
    | cs => misfit (.table s) cs

/-! ## Whole texts -/

/-- Line and column after some characters. -/
def place (cs : List Char) : Nat × Nat :=
  cs.foldl (fun (line, column) c =>
    if c == '\n' then (line + 1, 0) else (line, column + c.utf8Size)) (1, 0)

/-- An account as text, within all of the text it is about. -/
def text (a : Account) (all : List Char) : String :=
  let (line, column) := place (all.take (all.length - a.rest.length))
  let (line, column) := match a.looked, a.rest with
    | true, '\n' :: _ => (line + 1, 0)
    | true, _ :: _ => (line, column + 1)
    | _, _ => (line, column)
  a.said ++ " at line " ++ .ofList (Number.digits line) ++ " column " ++
    .ofList (Number.digits column)

/-- What is said of a text that should hold a value of a shape and does not. -/
def ofText (s : Shape) (all : List Char) : Option String :=
  match read s all with
  | .error a => some (a.text all)
  | .ok (_, rest) =>
    match skipGap rest with
    | [] => none
    | rest => some (text ⟨"trailing characters", rest, true⟩ all)

end Account

end Postmortem.Json
