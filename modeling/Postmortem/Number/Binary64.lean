/-!
# Binary floating-point numbers

The numbers of the format binary64 of IEEE 754, as exact values: a significand below `2 ^ 53` times
a power of two from `2 ^ (-1074)` to `2 ^ 971`. Every result is the exact one, rounded once to the
nearest number, and in the middle between two of them to the one with the even significand.
-/

namespace Postmortem.Number

/-- A quotient rounded to the nearest whole number, and in the middle to the even one. -/
def roundDiv (num den : Nat) : Nat :=
  let q := num / den
  let r := num % den
  if 2 * r < den || (2 * r == den && q % 2 == 0) then q else q + 1

/-- A floating-point number. -/
inductive Binary64 where
  | nan
  | infinite (negative : Bool)
  /-- The number `significand * 2 ^ exponent` with a sign. -/
  | finite (negative : Bool) (significand : Nat) (exponent : Int)
deriving DecidableEq, Repr, Inhabited

namespace Binary64

/-- The least exponent. -/
def minExponent : Int := -1074

/-- The greatest exponent. -/
def maxExponent : Int := 971

/-- The power of two as a fraction. -/
def powerOfTwo (e : Int) : Nat × Nat :=
  if 0 ≤ e then (Nat.pow 2 e.toNat, 1) else (1, Nat.pow 2 (-e).toNat)

/-- Zero with a sign. -/
def zero (negative : Bool) : Binary64 := finite negative 0 minExponent

/-- The exponent at which the quotient `num / den` has a significand of 53 bits, unless it is less
than the least exponent allows. -/
def exponentFor (num den : Nat) : Int :=
  let low := max ((num.log2 : Int) - den.log2 - 53) minExponent
  let (a, b) := powerOfTwo low
  if num * b / (den * a) < Nat.pow 2 53 then low else low + 1

/-- The number nearest to `num / den`, with a sign. -/
def ofRatio (negative : Bool) (num den : Nat) : Binary64 :=
  if num == 0 then zero negative else
    let e := exponentFor num den
    let (a, b) := powerOfTwo e
    let m := roundDiv (num * b) (den * a)
    let (m, e) := if m == Nat.pow 2 53 then (Nat.pow 2 52, e + 1) else (m, e)
    if e > maxExponent then infinite negative else finite negative m e

/-- The number nearest to a natural number. -/
def ofNat (n : Nat) : Binary64 := ofRatio false n 1

/-- The number nearest to a whole number. -/
def ofInt (n : Int) : Binary64 := ofRatio (n < 0) n.natAbs 1

/-- The size of a finite number as a fraction. -/
def fraction (significand : Nat) (exponent : Int) : Nat × Nat :=
  let (a, b) := powerOfTwo exponent
  (significand * a, b)

/-- Whether a number is neither infinite nor no number. -/
def isFinite : Binary64 → Bool
  | finite .. => true
  | _ => false

/-- Whether a number is finite and greater than zero. -/
def isPositive : Binary64 → Bool
  | finite negative m _ => !negative && m != 0
  | _ => false

/-- The sum of two finite numbers that are not negative. -/
def addSizes : Binary64 → Binary64 → Binary64
  | finite _ m e, finite _ m' e' =>
    let (a, b) := fraction m e
    let (c, d) := fraction m' e'
    ofRatio false (a * d + c * b) (b * d)
  | _, _ => nan

/-- The product of two finite numbers that are not negative. -/
def mulSizes : Binary64 → Binary64 → Binary64
  | finite _ m e, finite _ m' e' =>
    let (a, b) := fraction m e
    let (c, d) := fraction m' e'
    ofRatio false (a * c) (b * d)
  | _, _ => nan

/-- The quotient of two finite numbers that are not negative, the second not zero. -/
def divSizes : Binary64 → Binary64 → Binary64
  | finite _ m e, finite _ m' e' =>
    let (a, b) := fraction m e
    let (c, d) := fraction m' e'
    ofRatio false (a * d) (b * c)
  | _, _ => nan

/-- The 64 bits of a number in the interchange encoding of the format. -/
def bits : Binary64 → UInt64
  | nan => 0x7ff8000000000000
  | infinite negative => sign negative + 0x7ff0000000000000
  | finite negative m e =>
    if m < Nat.pow 2 52 then sign negative + UInt64.ofNat m
    else
      sign negative +
        UInt64.ofNat ((e - minExponent + 1).toNat * Nat.pow 2 52 + (m - Nat.pow 2 52))
where
  sign (negative : Bool) : UInt64 := if negative then 0x8000000000000000 else 0

end Binary64

end Postmortem.Number
