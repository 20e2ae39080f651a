import Postmortem.Number.Reading
import Postmortem.Toml.Basic

/-!
# Values without parts

How texts, numbers, dates and times are written in a settings file. Each reader takes what it reads
off the front of a text and gives what follows, or nothing if the text does not begin with such a
value.
-/

namespace Postmortem.Toml

open Number

/-- Whether a character is a blank within a line. -/
def isGap (c : Char) : Bool := c == ' ' || c == '\t'

/-- The text without blanks at the beginning. -/
def skipGap (cs : List Char) : List Char := cs.dropWhile isGap

/-- What follows a line feed, before which a carriage return may stand. -/
def newline? : List Char → Option (List Char)
  | '\n' :: cs => some cs
  | '\r' :: '\n' :: cs => some cs
  | _ => none

/-- Whether a character may stand in comments and texts: all but the controls, of which a tab may.
-/
def isPlain (c : Char) : Bool := c == '\t' || (0x20 ≤ c.toNat && c.toNat != 0x7f)

/-! ## Texts -/

/-- The value of a digit to the base sixteen. -/
def hexValue? (c : Char) : Option Nat :=
  if isDigit c then some (digitValue c)
  else
    let l := lowerLetter c
    if 'a'.toNat ≤ l.toNat && l.toNat ≤ 'f'.toNat then some (l.toNat - 'a'.toNat + 10) else none

/-- The character with a number of so many digits to the base sixteen. -/
def codePoint? (count : Nat) (cs : List Char) : Option (Char × List Char) := do
  if (cs.take count).length < count then none else
    let ds ← (cs.take count).mapM hexValue?
    let n := ds.foldl (fun n d => 16 * n + d) 0
    if n < 0xd800 || (0xdfff < n && n ≤ 0x10ffff) then some (.ofNat n, cs.drop count) else none

/-- The character that an escape stands for, whose backslash has been read. -/
def escape? : List Char → Option (Char × List Char)
  | 'b' :: cs => some ('\x08', cs)
  | 't' :: cs => some ('\t', cs)
  | 'n' :: cs => some ('\n', cs)
  | 'f' :: cs => some ('\x0c', cs)
  | 'r' :: cs => some ('\r', cs)
  | '"' :: cs => some ('"', cs)
  | '\\' :: cs => some ('\\', cs)
  | 'u' :: cs => codePoint? 4 cs
  | 'U' :: cs => codePoint? 8 cs
  | _ => none

/-- The blanks and line ends at the beginning, skipped. -/
def skipBlankLines : Nat → List Char → List Char
  | 0, cs => cs
  | fuel + 1, cs =>
    match newline? (skipGap cs) with
    | some rest => skipBlankLines fuel rest
    | none => skipGap cs

/-- Reads the rest of a text on one line. `seen` holds its characters so far, the last one first;
`fuel` bounds the number of characters. -/
def lineText? (quote : Char) (escapes : Bool) :
    Nat → List Char → List Char → Option (String × List Char)
  | 0, _, _ => none
  | fuel + 1, seen, cs =>
    match cs with
    | [] => none
    | c :: rest =>
      if c == quote then some (.ofList seen.reverse, rest)
      else if escapes && c == '\\' then
        match escape? rest with
        | some (c, rest) => lineText? quote escapes fuel (c :: seen) rest
        | none => none
      else if isPlain c then lineText? quote escapes fuel (c :: seen) rest
      else none

/-- Reads the rest of a text on several lines, which three quotes end; one or two more belong to
it. A backslash at the end of a line joins it to the next one that is not blank. -/
def longText? (quote : Char) (escapes : Bool) :
    Nat → List Char → List Char → Option (String × List Char)
  | 0, _, _ => none
  | fuel + 1, seen, cs =>
    match cs with
    | [] => none
    | c :: rest =>
      if c == quote then
        let run := (cs.takeWhile (· == quote)).length
        if run < 3 then longText? quote escapes fuel (c :: seen) rest
        else
          let more := min (run - 3) 2
          some (.ofList (seen.reverse ++ List.replicate more quote), cs.drop (more + 3))
      else if escapes && c == '\\' then
        match newline? (skipGap rest) with
        | some rest => longText? quote escapes fuel seen (skipBlankLines rest.length rest)
        | none =>
          match escape? rest with
          | some (c, rest) => longText? quote escapes fuel (c :: seen) rest
          | none => none
      else if isPlain c then longText? quote escapes fuel (c :: seen) rest
      else
        match newline? cs with
        | some rest => longText? quote escapes fuel ('\n' :: seen) rest
        | none => none

/-- Reads a text on one line. -/
def shortText? (cs : List Char) : Option (String × List Char) :=
  match cs with
  | '"' :: cs => lineText? '"' true (cs.length + 1) [] cs
  | '\x27' :: cs => lineText? '\x27' false (cs.length + 1) [] cs
  | _ => none

/-- Reads a text. A line end right after three opening quotes does not belong to it. -/
def text? (cs : List Char) : Option (String × List Char) :=
  let long (quote : Char) (escapes : Bool) (cs : List Char) :=
    let cs := (newline? cs).getD cs
    longText? quote escapes (cs.length + 1) [] cs
  match cs with
  | '"' :: '"' :: '"' :: cs => long '"' true cs
  | '\x27' :: '\x27' :: '\x27' :: cs => long '\x27' false cs
  | cs => shortText? cs

/-! ## Numbers -/

/-- Reads digits of some kind, between which single underscores may stand, and gives them without
those. -/
def digitRun? (isDigit : Char → Bool) : List Char → Option (List Char × List Char)
  | c :: cs => if isDigit c then some (go c cs) else none
  | [] => none
where
  go (c : Char) : List Char → List Char × List Char
    | '_' :: d :: cs =>
      if isDigit d then
        let (ds, rest) := go d cs
        (c :: ds, rest)
      else ([c], '_' :: d :: cs)
    | d :: cs =>
      if isDigit d then
        let (ds, rest) := go d cs
        (c :: ds, rest)
      else ([c], d :: cs)
    | [] => ([c], [])

/-- Reads a sign, if there is one: whether it is negative. -/
def sign : List Char → Bool × List Char
  | '-' :: cs => (true, cs)
  | '+' :: cs => (false, cs)
  | cs => (false, cs)

/-- Reads decimal digits without zeros before them. -/
def decimal? (cs : List Char) : Option (List Char × List Char) :=
  match cs with
  | '0' :: rest => some (['0'], rest)
  | cs => digitRun? isDigit cs

/-- An integer that fits into 64 bits with its sign. -/
def integerOf? (n : Int) : Option Value :=
  if Int64.minValue.toInt ≤ n && n ≤ Int64.maxValue.toInt then some (.integer n) else none

/-- Reads an integer to the base two, eight or sixteen, whose prefix has been read. -/
def basedInteger? (base : Nat) (cs : List Char) : Option (Value × List Char) := do
  let (ds, rest) ← digitRun? (fun c => (hexValue? c).any (· < base)) cs
  let v ← integerOf? (ds.foldl (fun n c => base * n + (hexValue? c).getD 0) 0 : Nat)
  return (v, rest)

/-- Reads an integer. -/
def integer? (cs : List Char) : Option (Value × List Char) :=
  match cs with
  | '0' :: 'x' :: cs => basedInteger? 16 cs
  | '0' :: 'o' :: cs => basedInteger? 8 cs
  | '0' :: 'b' :: cs => basedInteger? 2 cs
  | cs => do
    let (negative, cs) := sign cs
    let (ds, rest) ← decimal? cs
    let n : Int := ofDigits ds
    let v ← integerOf? (if negative then -n else n)
    return (v, rest)

/-- Reads the power of ten of a number, from the letter on. -/
def power? (cs : List Char) : Option (List Char × List Char) :=
  match cs with
  | c :: cs =>
    if lowerLetter c != 'e' then none else do
      let (negative, cs) := sign cs
      let (ds, rest) ← digitRun? isDigit cs
      return ('e' :: (if negative then '-' :: ds else ds), rest)
  | [] => none

/-- Reads the infinite number or that which is none, after the sign. -/
def specialFloat? (negative : Bool) : List Char → Option (Value × List Char)
  | 'i' :: 'n' :: 'f' :: rest => some (.float (.infinite negative), rest)
  | 'n' :: 'a' :: 'n' :: rest => some (.float .nan, rest)
  | _ => none

/-- Reads a number with a point or a power of ten. One too great to be finite is refused, unless it
is negative. -/
def float? (cs : List Char) : Option (Value × List Char) :=
  let (negative, cs) := sign cs
  match specialFloat? negative cs with
  | some found => some found
  | none => do
    let (whole, rest) ← decimal? cs
    let (tail, rest) ← match rest with
      | '.' :: rest => do
        let (fraction, rest) ← digitRun? isDigit rest
        match power? rest with
        | some (power, rest) => some ('.' :: fraction ++ power, rest)
        | none => some ('.' :: fraction, rest)
      | rest => power? rest
    let x ← Binary64.ofUnsigned? negative (whole ++ tail)
    if x == .infinite false then none else some (.float x, rest)

/-! ## Dates and times -/

/-- Reads a number of so many digits. -/
def fixed? (count : Nat) (cs : List Char) : Option (Nat × List Char) :=
  let ds := cs.take count
  if ds.length == count && ds.all isDigit then some (ofDigits ds, cs.drop count) else none

/-- Reads a character. -/
def mark? (c : Char) : List Char → Option (List Char)
  | d :: cs => if c == d then some cs else none
  | [] => none

/-- The number of days in a month. -/
def daysIn (year month : Nat) : Nat :=
  if month == 2 then
    if year % 4 == 0 && (year % 100 != 0 || year % 400 == 0) then 29 else 28
  else if month == 4 || month == 6 || month == 9 || month == 11 then 30
  else 31

/-- Reads a date. -/
def date? (cs : List Char) : Option (List Char) := do
  let (year, cs) ← fixed? 4 cs
  let cs ← mark? '-' cs
  let (month, cs) ← fixed? 2 cs
  let cs ← mark? '-' cs
  let (day, cs) ← fixed? 2 cs
  if 1 ≤ month && month ≤ 12 && 1 ≤ day && day ≤ daysIn year month then some cs else none

/-- Reads hours and minutes. -/
def clock? (cs : List Char) : Option (List Char) := do
  let (hour, cs) ← fixed? 2 cs
  let cs ← mark? ':' cs
  let (minute, cs) ← fixed? 2 cs
  if hour ≤ 23 && minute ≤ 59 then some cs else none

/-- Reads a time of day. -/
def time? (cs : List Char) : Option (List Char) := do
  let cs ← clock? cs
  let cs ← mark? ':' cs
  let (second, cs) ← fixed? 2 cs
  if 60 < second then none else
    match cs with
    | '.' :: rest =>
      let ds := rest.takeWhile isDigit
      if ds.isEmpty then some cs else some (rest.dropWhile isDigit)
    | _ => some cs

/-- Reads how far a time is from that of the prime meridian, if it is told. -/
def offset? (cs : List Char) : Option (List Char) :=
  match cs with
  | 'Z' :: cs => some cs
  | 'z' :: cs => some cs
  | '+' :: cs => clock? cs
  | '-' :: cs => clock? cs
  | cs => some cs

/-- Reads a date, a time or both. -/
def moment? (cs : List Char) : Option (Value × List Char) :=
  match date? cs with
  | some cs =>
    match cs with
    | c :: after =>
      if c == 'T' || c == 't' || c == ' ' then
        match time? after with
        | some rest => (offset? rest).map fun rest => (.moment, rest)
        | none => some (.moment, cs)
      else some (.moment, cs)
    | [] => some (.moment, [])
  | none => (time? cs).map fun rest => (.moment, rest)

/-- Reads a value that begins with a sign or a digit. -/
def numeric? (cs : List Char) : Option (Value × List Char) :=
  (moment? cs).or ((float? cs).or (integer? cs))

end Postmortem.Toml
