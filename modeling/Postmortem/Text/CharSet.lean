/-!
# Sets of code points

A set is kept as the ascending list of the code points at which membership changes, starting
outside the set. A code point belongs to the set exactly when an odd number of changes lie at or
below it, so membership is a binary search and the complement is one change at zero.
-/

namespace Postmortem.Text

/-- The number of elements of an ascending array that are at most `c`, given that it lies between
`lo` and `hi`. -/
def countUpTo (xs : Array Nat) (c lo hi : Nat) : Nat :=
  if lo < hi then
    let mid := (lo + hi) / 2
    if xs.getD mid 0 ≤ c then countUpTo xs c (mid + 1) hi else countUpTo xs c lo mid
  else lo
termination_by hi - lo

/-- A set of code points, as the ascending code points at which membership changes. -/
structure CharSet where
  changes : Array Nat
deriving BEq, Repr, Inhabited

namespace CharSet

/-- Whether the code point `c` belongs to the set. -/
def contains (s : CharSet) (c : Nat) : Bool :=
  countUpTo s.changes c 0 s.changes.size % 2 == 1

/-- The set whose runs of absent and present code points, from zero on, have these lengths. -/
def ofRuns (lengths : List Nat) : CharSet :=
  ⟨(lengths.foldl (fun (acc : Array Nat × Nat) n => (acc.1.push (acc.2 + n), acc.2 + n)) (#[], 0)).1⟩

/-- The set of the characters in these ranges, given in ascending order, both ends included. -/
def ofRanges (ranges : List (Char × Char)) : CharSet :=
  ⟨(ranges.flatMap fun r => [r.1.toNat, r.2.toNat + 1]).toArray⟩

/-- The set of these characters, given in ascending order. -/
def ofChars (cs : List Char) : CharSet :=
  ofRanges (cs.map fun c => (c, c))

/-- Every code point outside the set but zero: NUL is text of no class written by exclusion. -/
def except (s : CharSet) : CharSet :=
  ⟨#[1] ++ s.changes⟩

end CharSet

end Postmortem.Text
