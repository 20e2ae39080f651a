import Postmortem.Json.Literal

/-!
# Reading drafts

Every text has a draft. Blanks, line feeds, carriage returns and tabs may stand around all parts.
-/

namespace Postmortem.Json

open Postmortem.Number

/-- Whether a character may stand between the parts of a value. -/
def isGap (c : Char) : Bool := c == ' ' || c == '\n' || c == '\t' || c == '\r'

/-- The text without gaps at the beginning. -/
def skipGap (cs : List Char) : List Char := cs.dropWhile isGap

/-- The fault of something unexpected: the end, or a character. -/
def unexpected (cs : List Char) : Fault := if cs.isEmpty then .truncated else .malformed

/-! ## Words and numbers -/

/-- Reads the rest of a word. -/
def readWord (word : List Char) (d : Draft) (cs : List Char) : Draft × Option (List Char) :=
  match word, cs with
  | [], cs => (d, some cs)
  | _ :: _, [] => (.misspelt .truncated, none)
  | w :: word, c :: cs => if w == c then readWord word d cs else (.misspelt .malformed, none)

/-- A number that is not written to its end. The text may end there for those who want the number;
those who skip it miss a digit. -/
def unfinished (cs : List Char) : Draft × Option (List Char) :=
  (.number (.error (unexpected cs)) (.error .malformed), none)

/-- A number that is written to its end, and what follows. -/
def finished (n : Numeral) (rest : List Char) : Draft × Option (List Char) :=
  (.number (if n.inRange then .ok n else .error .malformed) (.ok ()), some rest)

/-- Reads the digits of a power of ten. -/
def readExponent (negative : Bool) (whole : Nat) (fraction : List (Fin 10)) (sign : Int)
    (cs : List Char) : Draft × Option (List Char) :=
  let ds := cs.takeWhile isDigit
  if ds.isEmpty then unfinished cs
  else finished ⟨negative, whole, fraction, some (sign * ofDigits ds)⟩ (cs.dropWhile isDigit)

/-- Reads the power of ten, if there is one, after the digits of a number. -/
def readPower (negative : Bool) (whole : Nat) (fraction : List (Fin 10)) (cs : List Char) :
    Draft × Option (List Char) :=
  match cs with
  | c :: cs' =>
    if c == 'e' || c == 'E' then
      match cs' with
      | '-' :: cs => readExponent negative whole fraction (-1) cs
      | '+' :: cs => readExponent negative whole fraction 1 cs
      | cs => readExponent negative whole fraction 1 cs
    else finished ⟨negative, whole, fraction, none⟩ cs
  | [] => finished ⟨negative, whole, fraction, none⟩ []

/-- Reads the digits after the point of a number, at least one. -/
def readFraction (negative : Bool) (whole : Nat) (cs : List Char) : Draft × Option (List Char) :=
  let fs := cs.takeWhile isDigit
  if fs.isEmpty then unfinished cs
  else readPower negative whole (fs.map fun c => Fin.ofNat 10 (digitValue c))
    (cs.dropWhile isDigit)

/-- Reads what follows the digits before the point. -/
def readDecimals (negative : Bool) (whole : Nat) (cs : List Char) : Draft × Option (List Char) :=
  match cs with
  | '.' :: cs => readFraction negative whole cs
  | cs => readPower negative whole [] cs

/-- Reads a number without its sign. -/
def readNumber (negative : Bool) (cs : List Char) : Draft × Option (List Char) :=
  match cs.takeWhile isDigit with
  | [] => unfinished cs
  | '0' :: _ :: _ => (.number (.error .malformed) (.error .malformed), none)
  | ds => readDecimals negative (ofDigits ds) (cs.dropWhile isDigit)

/-! ## Values -/

mutual

/-- Reads a value. `fuel` bounds the number of parts. Gives what follows, if the value has been
read to its end. -/
def readValue : Nat → List Char → Draft × Option (List Char)
  | 0, cs => (.missing (unexpected cs), none)
  | fuel + 1, cs =>
    match skipGap cs with
    | [] => (.missing .truncated, none)
    | c :: cs =>
      if c == 'n' then readWord "ull".toList .null cs
      else if c == 't' then readWord "rue".toList (.flag true) cs
      else if c == 'f' then readWord "alse".toList (.flag false) cs
      else if c == '-' then readNumber true cs
      else if isDigit c then readNumber false (c :: cs)
      else if c == '"' then
        let (l, rest) := Literal.scan cs
        (.text l, if l.skipping.isOk then some rest else none)
      else if c == '[' then
        match skipGap cs with
        | [] => (.list [] (.error .truncated), none)
        | ']' :: cs => (.list [] (.ok ()), some cs)
        | _ =>
          let (items, ending, rest) := readItems fuel cs
          (.list items ending, rest)
      else if c == '\x7b' then
        match skipGap cs with
        | [] => (.object [] (.error .truncated), none)
        | '\x7d' :: cs => (.object [] (.ok ()), some cs)
        | _ =>
          let (members, ending, rest) := readMembers fuel cs
          (.object members ending, rest)
      else (.missing .malformed, none)

/-- Reads the items of a list, at least one. -/
def readItems : Nat → List Char → List Draft × Except Fault Unit × Option (List Char)
  | 0, cs => ([.missing (unexpected cs)], .error .truncated, none)
  | fuel + 1, cs =>
    match readValue fuel cs with
    | (d, none) => ([d], .error .truncated, none)
    | (d, some rest) =>
      match skipGap rest with
      | ']' :: rest => ([d], .ok (), some rest)
      | ',' :: rest =>
        let (ds, ending, rest) := readItems fuel rest
        (d :: ds, ending, rest)
      | rest => ([d], .error (unexpected rest), none)

/-- Reads the members of an object, at least one. -/
def readMembers : Nat → List Char → List (Name × Draft) × Except Fault Unit × Option (List Char)
  | 0, cs => ([(.other (unexpected cs) (unexpected cs), .null)], .error .truncated, none)
  | fuel + 1, cs =>
    match skipGap cs with
    | '"' :: cs =>
      let (l, rest) := Literal.scan cs
      match l.skipping, skipGap rest with
      | .error f, _ => ([(.literal l, .missing f)], .error f, none)
      | .ok _, ':' :: rest =>
        match readValue fuel rest with
        | (d, none) => ([(.literal l, d)], .error .truncated, none)
        | (d, some rest) =>
          match skipGap rest with
          | '\x7d' :: rest => ([(.literal l, d)], .ok (), some rest)
          | ',' :: rest =>
            let (ms, ending, rest) := readMembers fuel rest
            ((.literal l, d) :: ms, ending, rest)
          | rest => ([(.literal l, d)], .error (unexpected rest), none)
      | .ok _, rest => ([(.literal l, .missing (unexpected rest))], .error (unexpected rest), none)
    | cs =>
      ([(.other (unexpected cs) (readValue fuel cs).1.misfit, .null)], .error .malformed, none)

end

/-- Without fuel nothing is read. -/
@[simp] theorem readValue_zero (cs : List Char) :
    readValue 0 cs = (.missing (unexpected cs), none) := by
  rw [readValue]

@[simp] theorem readItems_zero (cs : List Char) :
    readItems 0 cs = ([.missing (unexpected cs)], .error .truncated, none) := by
  rw [readItems]

@[simp] theorem readMembers_zero (cs : List Char) :
    readMembers 0 cs =
      ([(.other (unexpected cs) (unexpected cs), .null)], .error .truncated, none) := by
  rw [readMembers]

/-- A whole text: a draft, and whether anything but gaps follows it. -/
structure Document where
  root : Draft
  trailing : Bool
deriving Inhabited

/-- Reads a whole text. -/
def readDocument (cs : List Char) : Document :=
  match readValue (cs.length + 1) cs with
  | (d, none) => ⟨d, false⟩
  | (d, some rest) => ⟨d, !(skipGap rest).isEmpty⟩

end Postmortem.Json
