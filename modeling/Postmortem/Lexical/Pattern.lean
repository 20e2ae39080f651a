import Postmortem.Text.CharSet

/-!
# Patterns of tokens

A regular expression over code points, and the *positions* of its characters: which position may
come first, which may follow which, and which may come last. The positions are the states of an
automaton that needs no empty moves, from which `Lexical.Recognizer` builds its tables.
-/

namespace Postmortem.Lexical

open Postmortem.Text

/-- A regular expression over code points. -/
inductive Pattern where
  /-- The empty text. -/
  | empty
  /-- One character of a class. -/
  | char (cls : CharSet)
  /-- One pattern and then another. -/
  | seq (first second : Pattern)
  /-- One pattern or another. -/
  | alt (first second : Pattern)
  /-- A pattern once or more. -/
  | many1 (body : Pattern)
deriving BEq, Inhabited

namespace Pattern

/-- Patterns one after another. -/
def all : List Pattern → Pattern
  | [] => empty
  | [p] => p
  | p :: ps => seq p (all ps)

/-- Any one of several patterns. -/
def any : List Pattern → Pattern
  | [] => empty
  | [p] => p
  | p :: ps => alt p (any ps)

/-- A pattern or the empty text. -/
def opt (p : Pattern) : Pattern := alt p empty

/-- A pattern any number of times. -/
def many (p : Pattern) : Pattern := opt (many1 p)

/-- A pattern exactly `n` times. -/
def times (n : Nat) (p : Pattern) : Pattern := all (List.replicate n p)

/-- Exactly this text. -/
def text (s : String) : Pattern := all (s.toList.map fun c => char (.ofChars [c]))

/-- One of these characters, given in ascending order. -/
def oneOf (cs : String) : Pattern := char (.ofChars cs.toList)

/-- One character of these ranges, given in ascending order. -/
def range (rs : List (Char × Char)) : Pattern := char (.ofRanges rs)

/-- One character other than these, given in ascending order, and other than NUL. -/
def noneOf (cs : String) : Pattern := char (CharSet.ofChars cs.toList).except

end Pattern

/-- Adds the elements of `ys` that are missing to an ascending list. -/
def mergeAscending (xs ys : List Nat) : List Nat :=
  ys.foldl insertOne xs
where
  /-- Puts one element in its place, unless it is there. -/
  insertOne : List Nat → Nat → List Nat
    | [], y => [y]
    | x :: xs, y => if y < x then y :: x :: xs else if y == x then x :: xs else
        x :: insertOne xs y

/-- The positions of a pattern's characters. Position zero stands before all of them. -/
structure Positions where
  /-- The class of the character at each position. -/
  classes : Array CharSet
  /-- The positions that may follow each position. -/
  follow : Array (List Nat)
deriving Inhabited

/-- Where a pattern may begin and end. -/
structure Ends where
  /-- Whether the pattern accepts the empty text. -/
  nullable : Bool
  /-- The positions that may come first. -/
  first : List Nat
  /-- The positions that may come last. -/
  last : List Nat
deriving Inhabited

namespace Positions

/-- Lets each position of `next` follow each position of `from_`. -/
def connect (ps : Positions) (sources next : List Nat) : Positions :=
  { ps with
    follow := sources.foldl (fun f p => f.modify p fun old => mergeAscending old next) ps.follow }

/-- Adds the positions of a pattern, and tells where it begins and ends. -/
def add (ps : Positions) : Pattern → Positions × Ends
  | .empty => (ps, ⟨true, [], []⟩)
  | .char cls =>
    let here := ps.classes.size
    (⟨ps.classes.push cls, ps.follow.push []⟩, ⟨false, [here], [here]⟩)
  | .seq a b =>
    let (ps, ea) := ps.add a
    let (ps, eb) := ps.add b
    (ps.connect ea.last eb.first,
      ⟨ea.nullable && eb.nullable,
        if ea.nullable then mergeAscending ea.first eb.first else ea.first,
        if eb.nullable then mergeAscending ea.last eb.last else eb.last⟩)
  | .alt a b =>
    let (ps, ea) := ps.add a
    let (ps, eb) := ps.add b
    (ps, ⟨ea.nullable || eb.nullable, mergeAscending ea.first eb.first,
      mergeAscending ea.last eb.last⟩)
  | .many1 a =>
    let (ps, ea) := ps.add a
    (ps.connect ea.last ea.first, ea)

end Positions

end Postmortem.Lexical
