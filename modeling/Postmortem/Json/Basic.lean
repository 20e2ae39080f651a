import Postmortem.Number.Digits

/-!
# Values of the interchange format

The values that messages and reports are made of: nothing, truth values, numbers, texts, lists, and
objects, whose members have an order and may repeat a name.
-/

namespace Postmortem

/-- A number as it is written. -/
structure Json.Numeral where
  negative : Bool := false
  /-- What stands before the point. -/
  whole : Nat
  /-- The digits after the point; without a point there are none. -/
  fraction : List (Fin 10) := []
  /-- The power of ten, if one is written. -/
  exponent : Option Int := none
deriving DecidableEq, Repr, Inhabited

/-- A value. -/
inductive Json where
  | null
  | flag (b : Bool)
  | number (n : Json.Numeral)
  | text (s : String)
  | list (items : List Json)
  | object (members : List (String × Json))
deriving Inhabited

namespace Json

/-- A natural number of 64 bits as a value. -/
def word (n : UInt64) : Json := number ⟨false, n.toNat, [], none⟩

namespace Numeral

/-- The natural number of 64 bits that is written without point and power, if it is one. -/
def word? (n : Numeral) : Option UInt64 :=
  if n.negative || !n.fraction.isEmpty || n.exponent.isSome then none
  else if n.whole < UInt64.size then some (UInt64.ofNat n.whole) else none

/-- How an exponent is written. -/
def exponentChars (e : Int) : List Char :=
  'e' :: (if e < 0 then '-' :: Number.digits e.natAbs else Number.digits e.natAbs)

/-- How a number is written. -/
def chars (n : Numeral) : List Char :=
  (if n.negative then ['-'] else []) ++ Number.digits n.whole ++
    (if n.fraction.isEmpty then [] else '.' :: n.fraction.map fun d => Number.digitChar d.val) ++
    (n.exponent.map exponentChars).getD []

end Numeral

end Json

end Postmortem
