import Postmortem.Number.Binary64
import Postmortem.Number.Digits

/-!
# Shortest decimal texts

The text of a positive floating-point number with the fewest digits that reads back as the same
number, and of those the one nearest to it. Texts have no power of ten.

## Shape of the search

All decimals between the middles to the neighbours of a number read back as it, and the middles
themselves do if its significand is even. On the grid of decimals with a given number of digits it
is enough to try the two on either side of the number.
-/

namespace Postmortem.Number.Binary64

/-- A positive fraction. -/
structure Fraction where
  num : Nat
  den : Nat
deriving Repr, Inhabited

namespace Fraction

/-- Whether one fraction is less than another. -/
def lt (a b : Fraction) : Bool := a.num * b.den < b.num * a.den

/-- Whether one fraction is at most another. -/
def le (a b : Fraction) : Bool := a.num * b.den ≤ b.num * a.den

/-- A fraction times a power of ten. -/
def scale (a : Fraction) (power : Int) : Fraction :=
  if 0 ≤ power then ⟨a.num * Nat.pow 10 power.toNat, a.den⟩
  else ⟨a.num, a.den * Nat.pow 10 (-power).toNat⟩

end Fraction

/-- The decimals that read back as a number. -/
structure Interval where
  low : Fraction
  high : Fraction
  /-- Whether the ends belong to it. -/
  closed : Bool

/-- The interval of the number `m * 2 ^ e`. -/
def intervalOf (m : Nat) (e : Int) : Interval :=
  let (a, b) := powerOfTwo (e - 2)
  -- below a power of two numbers lie twice as close
  let below := if m == Nat.pow 2 52 && minExponent < e then 1 else 2
  ⟨⟨(4 * m - below) * a, b⟩, ⟨(4 * m + 2) * a, b⟩, m % 2 == 0⟩

/-- Whether a decimal reads back as the number of an interval. -/
def Interval.holds (i : Interval) (x : Fraction) : Bool :=
  if i.closed then i.low.le x && x.le i.high else i.low.lt x && x.lt i.high

/-- The number of digits of a fraction before the point, or less the number of zeros after it. -/
def magnitude (x : Fraction) : Int :=
  if x.den ≤ x.num then (digits (x.num / x.den)).length
  else
    -- one over the fraction tells the zeros
    let zeros := (digits ((x.den - 1) / x.num)).length
    1 - (zeros : Int)

/-- The decimal with `count` digits that stands for the fraction `x` of a given magnitude: its
digits and power of ten. -/
def candidate? (i : Interval) (x : Fraction) (mag : Int) (count : Nat) : Option (Nat × Int) :=
  let power := mag - count
  let scaled := x.scale (-power)
  let below := scaled.num / scaled.den
  let fits (n : Nat) : Bool := n != 0 && i.holds (Fraction.scale ⟨n, 1⟩ power)
  match fits below, fits (below + 1) with
  | true, true =>
    let r := scaled.num % scaled.den
    some (if 2 * r < scaled.den then below else below + 1, power)
  | true, false => some (below, power)
  | false, true => some (below + 1, power)
  | false, false => none

/-- The greatest number of digits that a number needs. -/
def maxDigits : Nat := 17

/-- The shortest decimal of the number `m * 2 ^ e`: its digits and power of ten. -/
def shortest (m : Nat) (e : Int) : Nat × Int :=
  let (a, b) := fraction m e
  let x : Fraction := ⟨a, b⟩
  let mag := magnitude x
  ((List.range maxDigits).findSome? fun k => candidate? (intervalOf m e) x mag (k + 1)).getD (0, 0)

/-- A decimal without a power of ten. -/
def positional (n : Nat) (power : Int) : List Char :=
  let ds := digits n
  if 0 ≤ power then ds ++ List.replicate power.toNat '0'
  else
    let places := (-power).toNat
    let padded := List.replicate (places + 1 - ds.length) '0' ++ ds
    let fraction := (padded.drop (padded.length - places)).reverse.dropWhile (· == '0') |>.reverse
    padded.take (padded.length - places) ++ if fraction.isEmpty then [] else '.' :: fraction

/-- A decimal with a point and at least one digit on each side of it or, if it is too great or too
small for that, with a power of ten. -/
def scientific (n : Nat) (power : Int) : List Char :=
  let ds := (digits n).reverse.dropWhile (· == '0') |>.reverse
  let power := power + ((digits n).length - ds.length : Nat)
  let point := power + ds.length
  if 0 ≤ power && point ≤ 16 then ds ++ List.replicate power.toNat '0' ++ ['.', '0']
  else if -5 < point && point ≤ 16 then positional (Number.ofDigits ds) power
  else
    let mantissa := match ds with
      | d :: [] => [d]
      | d :: rest => d :: '.' :: rest
      | [] => []
    let e := point - 1
    mantissa ++ 'e' :: (if e < 0 then ['-'] else []) ++ digits e.natAbs

/-- The text of a number that is not negative, with a point or a power of ten. -/
def pointedChars : Binary64 → List Char
  | finite _ m e =>
    if m == 0 then ['0', '.', '0'] else
      let (n, power) := shortest m e
      scientific n power
  | x => if x == nan then "NaN".toList else "inf".toList

/-- The text of a number that is not negative. -/
def sizeChars : Binary64 → List Char
  | nan => "NaN".toList
  | infinite _ => "inf".toList
  | finite _ m e =>
    if m == 0 then ['0'] else
      let (n, power) := shortest m e
      positional n power

end Postmortem.Number.Binary64
