import Postmortem.Automaton.Basic
import Postmortem.Text.Source

/-!
# Subtrees

The trees that a parser builds, hidden nodes and all. Each carries what the parser keeps asking: a
*cost*, which grows with the text that could not be read, a *weight* from the grammar, and counts of
the nodes that will show.

## Costs

A part that could not be read costs for the place where reading went on, for each tree skipped and
for each byte and line skipped; a token that was only supposed costs as much as a place and a tree.
-/

namespace Postmortem.Parse

open Postmortem.Text Postmortem.Automaton Postmortem.Grammar

/-- The cost of a place where reading went on after an error. -/
def recoveryCost : Nat := 500
/-- The cost of a token that was only supposed. -/
def missingCost : Nat := 110
/-- The cost of a skipped tree. -/
def skippedTreeCost : Nat := 100
/-- The cost of a skipped byte. -/
def skippedByteCost : Nat := 1
/-- The cost of a skipped line. -/
def skippedLineCost : Nat := 30

/-- What is known of a subtree. `Memory` is what the layout reader remembers. -/
structure Summary (Memory : Type) where
  symbol : Nat
  /-- Where the blanks before it begin. -/
  lead : Mark
  /-- Where it begins. -/
  start : Mark
  /-- Where it ends. -/
  stop : Mark
  /-- Whether it may stand anywhere, and so is no part of a production. -/
  extra : Bool := false
  /-- Whether it is a token that was only supposed. -/
  missing : Bool := false
  /-- Whether it is a token read as a word that has the text of a keyword. -/
  keyword : Bool := false
  visible : Bool
  cost : Nat := 0
  weight : Int := 0
  /-- The number of its children that show, those of hidden children included. -/
  shownChildren : Nat := 0
  /-- The number of nodes below it that show. -/
  shownBelow : Nat := 0
  shape : Nat := 0
  /-- What the layout reader remembers after a token of its own. -/
  memory : Option Memory := none
  /-- Whether that differs from what it remembered before. -/
  memoryChanged : Bool := false
deriving Inhabited

/-- A tree under construction. -/
inductive Subtree (Memory : Type) where
  | node (summary : Summary Memory) (children : List (Subtree Memory))
deriving Inhabited

namespace Subtree

variable {Memory : Type}

/-- What is known of a subtree. -/
def summary : Subtree Memory → Summary Memory
  | node s _ => s

/-- The parts of a subtree. -/
def children : Subtree Memory → List (Subtree Memory)
  | node _ cs => cs

/-- The same subtree, of which something else is known. -/
def modify (t : Subtree Memory) (f : Summary Memory → Summary Memory) : Subtree Memory :=
  node (f t.summary) t.children

/-- The number of a subtree's parts. -/
def size (t : Subtree Memory) : Nat := t.children.length

/-- The number of nodes that a subtree adds to a stack. Runs of errors count although they do not
show: they are progress. -/
def weightInStack (a : Automaton) (t : Subtree Memory) : Nat :=
  let s := t.summary
  s.shownBelow + (if s.visible then 1 else 0) + (if s.symbol == a.errorRun then 1 else 0)

/-- The number of bytes from the blanks before a subtree to its end. -/
def totalBytes (t : Subtree Memory) : Nat := t.summary.stop.byte - t.summary.lead.byte

/-- The number of lines from the blanks before a subtree to its end. -/
def totalRows (t : Subtree Memory) : Nat := t.summary.stop.row - t.summary.lead.row

/-- Whether a subtree is a part that could not be read. -/
def isError (a : Automaton) (t : Subtree Memory) : Bool := t.summary.symbol == a.errorSymbol

/-- The symbol of the first token of a subtree, or its own. `fuel` bounds the depth. -/
def firstSymbol : Nat → Subtree Memory → Nat
  | 0, t => t.summary.symbol
  | fuel + 1, t =>
    match t.children with
    | [] => t.summary.symbol
    | c :: _ => firstSymbol fuel c

/-- Whether a symbol shows. -/
def shows (a : Automaton) (symbol : Nat) : Bool :=
  if symbol == a.errorSymbol then true else (a.vocabulary.info symbol).visible

/-- The running totals over a subtree's parts. -/
structure Totals where
  place : Nat := 0
  cost : Nat := 0
  weight : Int := 0
  shownChildren : Nat := 0
  shownBelow : Nat := 0

/-- Adds one part to the totals. -/
def Totals.add (a : Automaton) (isError : Bool) (shape : Shape) (acc : Totals)
    (c : Subtree Memory) : Totals :=
  let s := c.summary
  let leaf := c.children.isEmpty
  let cost := acc.cost + (if s.symbol == a.errorRun then 0 else s.cost)
  let cost := if isError && !s.extra && !(s.symbol == a.errorSymbol && leaf) then
      if s.visible then cost + skippedTreeCost
      else if leaf then cost else cost + skippedTreeCost * s.shownChildren
    else cost
  let renamed := !s.extra && s.symbol != 0 && (shape.renameAt acc.place).isSome
  let shown := renamed || s.visible
  { place := if s.extra then acc.place else acc.place + 1
    cost
    weight := acc.weight + s.weight
    shownChildren := acc.shownChildren + (if shown then 1 else s.shownChildren)
    shownBelow := acc.shownBelow + s.shownBelow + (if shown then 1 else 0) }

/-- The subtree of these parts. Without parts it stands at `here`. -/
def ofParts (a : Automaton) (here : Mark) (symbol shape : Nat) (parts : List (Subtree Memory)) :
    Subtree Memory :=
  let isError := symbol == a.errorSymbol || symbol == a.errorRun
  let totals := parts.foldl (Totals.add a isError (a.shapes.getD shape {})) {}
  let lead := (parts.head?.map (·.summary.lead)).getD here
  let start := (parts.head?.map (·.summary.start)).getD here
  let stop := (parts.getLast?.map (·.summary.stop)).getD here
  let cost := if isError then
      totals.cost + recoveryCost + skippedByteCost * (stop.byte - start.byte) +
        skippedLineCost * (stop.row - start.row)
    else totals.cost
  let s : Summary Memory :=
    { symbol, lead, start, stop
      visible := shows a symbol
      cost
      weight := totals.weight
      shownChildren := totals.shownChildren
      shownBelow := totals.shownBelow
      shape }
  node { s with memoryChanged := parts.any (·.summary.memoryChanged) } parts

/-- Orders subtrees by their symbols and numbers of parts, outer ones first. -/
def compare : Subtree Memory → Subtree Memory → Ordering
  | node s xs, node t ys =>
    (Ord.compare s.symbol t.symbol).then <|
      (Ord.compare xs.length ys.length).then (compareAll xs ys)
where
  /-- Compares parts one by one. -/
  compareAll : List (Subtree Memory) → List (Subtree Memory) → Ordering
    | x :: xs, y :: ys => (compare x y).then (compareAll xs ys)
    | _, _ => .eq

/-- Whether `right` is to be taken rather than `left`: the one of lower cost, then the one of higher
weight, then the later one if there are errors, then the one whose symbols come first. -/
def prefersRight (left right : Subtree Memory) : Bool :=
  let l := left.summary
  let r := right.summary
  if r.cost < l.cost then true
  else if l.cost < r.cost then false
  else if r.weight > l.weight then true
  else if l.weight > r.weight then false
  else if l.cost > 0 then true
  else compare left right == .gt

/-- Takes the tokens that may stand anywhere off the end of a list of parts. -/
def splitExtras (parts : List (Subtree Memory)) : List (Subtree Memory) × List (Subtree Memory) :=
  let back := parts.reverse
  ((back.dropWhile (·.summary.extra)).reverse, (back.takeWhile (·.summary.extra)).reverse)

end Subtree

end Postmortem.Parse
