import Std.Data.HashMap
import Postmortem.Text.CharSet

/-!
# Alphabets

Two code points that belong to the same sets of a family need never be told apart. An alphabet
groups all code points into such classes, so that tables have one column for each class.
-/

namespace Postmortem.Lexical

open Postmortem.Text

/-- The code points, grouped into classes. -/
structure Alphabet where
  /-- The ascending first code points of the intervals into which the classes fall. -/
  starts : Array Nat
  /-- The class of each interval. -/
  classes : Array Nat
  /-- A member of each class. -/
  samples : Array Nat
deriving Inhabited

namespace Alphabet

/-- The number of classes. -/
def size (a : Alphabet) : Nat := a.samples.size

/-- The class of a code point. -/
def classOf (a : Alphabet) (c : Nat) : Nat :=
  a.classes.getD (countUpTo a.starts c 0 a.starts.size - 1) 0

/-- Which of the sets hold `c`, as the bits of a number. -/
def signature (sets : List CharSet) (c : Nat) : Nat :=
  sets.foldl (fun bits s => 2 * bits + (if s.contains c then 1 else 0)) 0

/-- Drops the repetitions of an ascending list. -/
def dedup : List Nat → List Nat
  | x :: y :: r => if x == y then dedup (y :: r) else x :: dedup (y :: r)
  | xs => xs

/-- The coarsest alphabet that tells apart all that the given sets tell apart. -/
def ofSets (sets : List CharSet) : Alphabet :=
  let starts := dedup ((0 :: sets.flatMap fun s => s.changes.toList).mergeSort (· ≤ ·))
  let step (acc : Alphabet × Std.HashMap Nat Nat) (start : Nat) :=
    let sign := signature sets start
    match acc.2[sign]? with
    | some k =>
      ({ acc.1 with starts := acc.1.starts.push start, classes := acc.1.classes.push k }, acc.2)
    | none =>
      let k := acc.1.samples.size
      (⟨acc.1.starts.push start, acc.1.classes.push k, acc.1.samples.push start⟩,
        acc.2.insert sign k)
  (starts.foldl step (⟨#[], #[], #[]⟩, {})).1

end Alphabet

end Postmortem.Lexical
