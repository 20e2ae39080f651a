import Postmortem.Automaton.TokenSet
import Postmortem.Grammar.Production

/-!
# Items

An item is a production with a dot: what stands before the dot has been read. Two items are the
same to an automaton if they promise the same symbols after the dot and end in the same way, so
items are numbered up to that likeness. What has been read matters for the end of a production
only through its names and roles, unless a hidden part with roles of its own has been read.

Numbers follow a fixed order of the items, by the place of the dot first and then by the head.
-/

namespace Postmortem.Automaton

open Postmortem.Grammar

/-- The items of a grammar. -/
structure Items where
  /-- A production that shows each item. -/
  production : Array Nat
  /-- The place of the dot in each item. -/
  dot : Array Nat
  /-- The symbol after the dot. -/
  next : Array (Option Nat)
  /-- The symbol after that one. -/
  afterNext : Array (Option Nat)
  /-- The item with the dot moved over one symbol. -/
  advance : Array Nat
  /-- The item of each production with the dot in front. -/
  front : Array Nat
deriving Inhabited

/-- Lexicographic order on lists of numbers. -/
def listLe : List Int → List Int → Bool
  | [], _ => true
  | _ :: _, [] => false
  | x :: xs, y :: ys => if x < y then true else if y < x then false else listLe xs ys

namespace Items

/-- Codes for a grammar's names, in the order of the names. -/
def nameCodes (ps : Productions) : Std.HashMap String Nat :=
  let names := ps.all.toList.flatMap fun p => p.steps.flatMap fun s =>
    s.role.toList ++ (s.rename.map (·.name)).toList
  Std.HashMap.ofList ((distinct names).toList.mergeSort.zipIdx)

/-- The code of an optional level. -/
def levelCode : Option Int → List Int
  | none => [0, 0]
  | some n => [1, n]

/-- The code of an optional side. -/
def sideCode : Option Side → Int
  | none => 0
  | some .left => 1
  | some .right => 2

/-- The code of a step's names. -/
def placeCode (codes : Std.HashMap String Nat) (s : Step) : List Int :=
  let name (n : String) : Int := (codes.getD n 0 : Nat) + 1
  [match s.rename with
    | none => 0
    | some r => 2 * name r.name + (if r.named then 1 else 0),
   match s.role with
    | none => 0
    | some r => name r]

/-- What an item is to an automaton, as a list of numbers whose order is the order of items. -/
def key (ps : Productions) (codes : Std.HashMap String Nat) (p : Production) (dot : Nat) :
    List Int :=
  let read := p.steps.take dot
  let hasRoles := read.any fun s => !(ps.roles.getD s.symbol []).isEmpty &&
    (let info := ps.vocabulary.info s.symbol; !info.visible)
  let last := read.getLast?
  [(dot : Int), (p.head : Int), p.weight, (p.steps.length : Int)] ++
    levelCode (last.bind (·.level)) ++ [sideCode (last.bind (·.side)), if hasRoles then 1 else 0] ++
    (read.flatMap fun s => placeCode codes s ++ (if hasRoles then [(s.symbol : Int)] else [])) ++
    ((p.steps.drop dot).flatMap fun s =>
      ((s.symbol : Int) :: levelCode s.level) ++ sideCode s.side :: placeCode codes s)

/-- The items of a grammar's productions. -/
def ofProductions (ps : Productions) : Items :=
  let codes := nameCodes ps
  let keyed := ps.all.toList.zipIdx.flatMap fun (p, i) =>
    (List.range (p.steps.length + 1)).map fun dot => (key ps codes p dot, i, dot)
  let sorted := keyed.mergeSort fun a b => listLe a.1 b.1
  let number (acc : Array (Nat × Nat) × Std.HashMap (Nat × Nat) Nat × Option (List Int))
      (x : List Int × Nat × Nat) :=
    let (reps, numbers, last) := acc
    if last == some x.1 then (reps, numbers.insert x.2 (reps.size - 1), last)
    else (reps.push x.2, numbers.insert x.2 reps.size, some x.1)
  let (reps, numbers, _) := sorted.foldl number (#[], {}, none)
  let stepsOf (i : Nat) := (ps.all.getD i default).steps
  { production := reps.map (·.1)
    dot := reps.map (·.2)
    next := reps.map fun (p, d) => ((stepsOf p)[d]?).map (·.symbol)
    afterNext := reps.map fun (p, d) => ((stepsOf p)[d + 1]?).map (·.symbol)
    advance := reps.map fun (p, d) => numbers.getD (p, d + 1) 0
    front := (Array.range ps.all.size).map fun p => numbers.getD (p, 0) 0 }

/-- The number of items. -/
def size (it : Items) : Nat := it.production.size

end Items

end Postmortem.Automaton
