import Postmortem.Number.Binary64
import Postmortem.Number.Digits

/-!
# Reading decimal numbers

The floating-point number that a decimal text stands for: the one nearest to its exact value. A sign
may come first; digits may be missing on one side of the point; the names of infinity and of no
number may be in capitals or not.
-/

namespace Postmortem.Number

/-- The small letter of a letter of the alphabet. -/
def lowerLetter (c : Char) : Char :=
  if 'A'.toNat ≤ c.toNat && c.toNat ≤ 'Z'.toNat then .ofNat (c.toNat + 32) else c

namespace Binary64

/-- The number nearest to `n * 10 ^ power`. Powers that leave the range of the format on either side
are not computed. -/
def ofDecimal (negative : Bool) (n : Nat) (length : Nat) (power : Int) : Binary64 :=
  if n == 0 then zero negative
  else if power + length > 310 then infinite negative
  else if power + length < -330 then zero negative
  else if 0 ≤ power then ofRatio negative (n * Nat.pow 10 power.toNat) 1
  else ofRatio negative n (Nat.pow 10 (-power).toNat)

/-- The number with given digits before and after the point, and a power of ten. -/
def ofDigits (negative : Bool) (whole fraction : List Char) (power : Int) : Binary64 :=
  let ds := (whole ++ fraction).dropWhile (· == '0')
  ofDecimal negative (Number.ofDigits ds) ds.length (power - fraction.length)

/-- The power of ten that a text gives after the digits of a number, if it is one; the empty text
gives none. -/
def power? (cs : List Char) : Option Int :=
  match cs with
  | [] => some 0
  | c :: cs =>
    if lowerLetter c != 'e' then none else
      let (sign, ds) : Int × List Char := match cs with
        | '-' :: ds => (-1, ds)
        | '+' :: ds => (1, ds)
        | ds => (1, ds)
      if ds.isEmpty || !ds.all isDigit then none else some (sign * Number.ofDigits ds)

/-- The number that a text without a sign stands for. -/
def ofUnsigned? (negative : Bool) (cs : List Char) : Option Binary64 :=
  let word := String.ofList (cs.map lowerLetter)
  if word == "inf" || word == "infinity" then some (infinite negative)
  else if word == "nan" then some nan
  else
    let whole := cs.takeWhile isDigit
    let (fraction, rest) := match cs.dropWhile isDigit with
      | '.' :: cs => (cs.takeWhile isDigit, cs.dropWhile isDigit)
      | cs => ([], cs)
    if whole.isEmpty && fraction.isEmpty then none
    else (power? rest).map fun power => ofDigits negative whole fraction power

/-- The number that a text stands for. -/
def ofChars? : List Char → Option Binary64
  | '-' :: cs => ofUnsigned? true cs
  | '+' :: cs => ofUnsigned? false cs
  | cs => ofUnsigned? false cs

end Binary64

end Postmortem.Number
