import Postmortem.Json.Basic
import Postmortem.Number.Binary64

/-!
# The range of numbers

A number is read as a floating-point number: the first digits, as many as fit into 64 bits, times or
over a power of ten, each step being rounded. It is out of range if the outcome is infinite.
-/

namespace Postmortem.Json.Numeral

open Postmortem.Number

/-- The digits before the point that fit into 64 bits, and the number of those that do not. -/
def wholePart (ds : List Nat) : Nat × Nat :=
  ds.foldl (fun (m, dropped) d =>
    if dropped == 0 && 10 * m + d < UInt64.size then (10 * m + d, 0) else (m, dropped + 1)) (0, 0)

/-- Adds the digits after the point up to the first that does not fit into 64 bits, and counts
them. -/
def fractionPart (m : Nat) : List (Fin 10) → Nat × Nat
  | [] => (m, 0)
  | d :: ds =>
    if 10 * m + d.val < UInt64.size then
      let (m, taken) := fractionPart (10 * m + d.val) ds
      (m, taken + 1)
    else (m, 0)

/-- The greatest power of ten that is a finite number. -/
def maxPower : Nat := 308

/-- A number divided by a power of ten, in steps of the greatest one. -/
def dividedBy (x : Binary64) (power : Nat) : Binary64 :=
  if power ≤ maxPower then x.divSizes (.ofNat (Nat.pow 10 power))
  else
    let x := x.divSizes (.ofNat (Nat.pow 10 maxPower))
    if x.isPositive then dividedBy x (power - maxPower) else x
termination_by power
decreasing_by simp only [maxPower] at *; omega

/-- The size of a number as it is read. -/
def size (n : Numeral) : Binary64 :=
  let (m, dropped) := wholePart ((digits n.whole).map digitValue)
  let (m, taken) := fractionPart m n.fraction
  let power := (dropped : Int) - taken + n.exponent.getD 0
  if m == 0 then .zero false
  else if power < 0 then dividedBy (.ofNat m) power.natAbs
  else if power ≤ maxPower then (Binary64.ofNat m).mulSizes (.ofNat (Nat.pow 10 power.toNat))
  else .infinite false

/-- Whether a number can be read as a finite one. -/
def inRange (n : Numeral) : Bool := n.size.isFinite

end Postmortem.Json.Numeral
