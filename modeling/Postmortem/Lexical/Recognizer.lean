import Postmortem.Lexical.Alphabet
import Postmortem.Lexical.Pattern

/-!
# Recognizers of single tokens

A `Lexeme` says how one kind of token is written; a `Recognizer` is its deterministic automaton
over the classes of an alphabet. Unless the lexeme is immediate, blanks may stand before the
token, and they are part of the automaton: a state remembers whether all that has been read is
blank, because a token begins after its blanks.
-/

namespace Postmortem.Lexical

open Postmortem.Text

/-- How one kind of token is written. -/
structure Lexeme where
  /-- The texts of the token. -/
  pattern : Pattern
  /-- The text of a token that is written in one way only. -/
  literal : Option String
  /-- Whether the token must follow the one before it without a blank. -/
  immediate : Bool
  /-- Of two readings of a text, the one of higher level is preferred. -/
  level : Nat
deriving BEq, Inhabited

namespace Lexeme

/-- The token written as this text only. -/
def ofText (s : String) : Lexeme := ⟨.text s, some s, false, 0⟩

/-- The token of this pattern. -/
def ofPattern (p : Pattern) : Lexeme := ⟨p, none, false, 0⟩

/-- How special a lexeme is: at one level a fixed text is preferred to a pattern, and a token that
must be immediate to one that need not be. -/
def specificity (l : Lexeme) : Nat :=
  (if l.literal.isSome then 2 else 0) + (if l.immediate then 1 else 0)

end Lexeme

/-- The deterministic automaton of one token. State zero is the start. -/
structure Recognizer where
  /-- For each state and class one more than the next state, or zero if there is none. -/
  next : Array (Array Nat)
  /-- The states in which the token is complete. -/
  accepts : Array Bool
  /-- The states that still admit a blank before the token. -/
  admitsBlank : Array Bool
  /-- The states in which only blanks have been read, and at least one. -/
  afterBlank : Array Bool
deriving Inhabited

namespace Recognizer

/-- The state that follows on a character of class `k`. -/
def step? (r : Recognizer) (state k : Nat) : Option Nat :=
  match (r.next.getD state #[]).getD k 0 with
  | 0 => none
  | s + 1 => some s

/-- Whether the token is complete in a state. -/
def isAccepting (r : Recognizer) (state : Nat) : Bool := r.accepts.getD state false

/-- The classes with which a token, or a blank before it, may begin. -/
def startClasses (r : Recognizer) : List Nat :=
  let row := r.next.getD 0 #[]
  (List.range row.size).filter fun k => row.getD k 0 != 0

/-- Gives the set of positions `set` its number, a new one if it has none. -/
def number (seen : Std.HashMap (List Nat) Nat) (sets : Array (List Nat)) (set : List Nat) :
    Nat × Std.HashMap (List Nat) Nat × Array (List Nat) :=
  match seen[set]? with
  | some i => (i, seen, sets)
  | none => (sets.size, seen.insert set sets.size, sets.push set)

/-- The rows of all sets of positions that can be reached, found in the order of their numbers.
Each round completes one row; `fuel` bounds their number. -/
def rows (follow : List Nat → Nat → List Nat) (classes : Nat) (fuel : Nat)
    (seen : Std.HashMap (List Nat) Nat) (sets : Array (List Nat)) (done : Array (Array Nat)) :
    Array (List Nat) × Array (Array Nat) :=
  match fuel with
  | 0 => (sets, done)
  | fuel + 1 =>
    match sets[done.size]? with
    | none => (sets, done)
    | some set =>
      let column (acc : Array Nat × Std.HashMap (List Nat) Nat × Array (List Nat)) (k : Nat) :=
        match follow set k with
        | [] => (acc.1.push 0, acc.2)
        | target =>
          let (i, found) := number acc.2.1 acc.2.2 target
          (acc.1.push (i + 1), found)
      let (row, seen, sets) := (List.range classes).foldl column (#[], seen, sets)
      rows follow classes fuel seen sets (done.push row)

/-- The most states that a recognizer may have. -/
def stateLimit : Nat := 4096

/-- The recognizer of a lexeme, where `blanks` may stand before a token. -/
def ofLexeme (alphabet : Alphabet) (blanks : CharSet) (l : Lexeme) : Recognizer :=
  let (ps, ends) := Positions.add ⟨#[⟨#[]⟩], #[[]]⟩ l.pattern
  let ps := ps.connect [0] ends.first
  let blank := ps.classes.size
  let ps := if l.immediate then ps else
    (Positions.mk (ps.classes.push blanks) (ps.follow.push ends.first)).connect [0, blank] [blank]
  let member := ps.classes.map fun cls => alphabet.samples.map cls.contains
  let follow (set : List Nat) (k : Nat) : List Nat :=
    set.foldl (fun acc p => mergeAscending acc
      ((ps.follow.getD p []).filter fun q => (member.getD q #[]).getD k false)) []
  let (sets, next) := rows follow alphabet.size stateLimit (({} : Std.HashMap (List Nat) Nat).insert [0] 0) #[[0]] #[]
  { next
    accepts := sets.map fun set => set.any ends.last.contains
    admitsBlank := sets.map fun set => !l.immediate && set.any fun p => p == 0 || p == blank
    afterBlank := sets.map fun set => !l.immediate && set == [blank] }

end Recognizer

end Postmortem.Lexical
