import Postmortem.Number.Reading
import Postmortem.Number.Shortest

/-!
# Durations

Lengths of time in whole nanoseconds, and how they are read from and shown as seconds.
-/

namespace Postmortem

open Number

/-- A length of time. -/
structure Duration where
  seconds : UInt64
  nanos : UInt32
deriving DecidableEq, Repr, Inhabited

namespace Duration

/-- The number of nanoseconds in a second. -/
def nanosPerSecond : Nat := 1000000000

/-- A number of whole seconds. -/
def ofSeconds (n : UInt64) : Duration := ⟨n, 0⟩

/-- The length in nanoseconds. -/
def toNanos (d : Duration) : Nat := d.seconds.toNat * nanosPerSecond + d.nanos.toNat

/-- A duration of so many nanoseconds. -/
def ofNanos (n : Nat) : Duration :=
  ⟨UInt64.ofNat (n / nanosPerSecond), UInt32.ofNat (n % nanosPerSecond)⟩

/-- Why a number of seconds is no duration. -/
inductive Overflow where
  | overflow
deriving DecidableEq, Repr

/-- What is said of a number of seconds that is too great. -/
def Overflow.message (_ : Overflow) : String :=
  "cannot convert float seconds to Duration: value is either too big or NaN"

/-- The positive duration of a number of seconds, if it is positive and finite. It is rounded to the
nearest nanosecond, in the middle to the even one. -/
def ofBinary64 (x : Binary64) : Except Overflow (Option Duration) :=
  match x with
  | .finite false m e =>
    if m == 0 then .ok none else
      let (num, den) := Binary64.fraction m e
      if UInt64.size * den ≤ num then .error .overflow
      else .ok (some (ofNanos (roundDiv (num * nanosPerSecond) den)))
  | _ => .ok none

/-- The length in seconds: the nearest number to the sum of the nearest numbers to the whole seconds
and to the rest. -/
def toBinary64 (d : Duration) : Binary64 :=
  (Binary64.ofNat d.seconds.toNat).addSizes (.ofRatio false d.nanos.toNat nanosPerSecond)

/-- The length in seconds as text. -/
def text (d : Duration) : String := .ofList d.toBinary64.sizeChars

end Duration

end Postmortem
