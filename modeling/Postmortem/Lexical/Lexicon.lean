import Postmortem.Lexical.Recognizer

/-!
# Lexicons

All tokens of a language over one alphabet, and the one reading of the text at hand that a lexer
prefers. Several tokens are recognized side by side. A complete token is given up for a longer one
unless its level is higher; among tokens complete at the same place the higher level, then the
more special way of writing, then the earlier token is preferred.
-/

namespace Postmortem.Lexical

open Postmortem.Text

/-- The tokens of a language, with their recognizers over one alphabet. -/
structure Lexicon where
  alphabet : Alphabet
  lexemes : Array Lexeme
  recognizers : Array Recognizer
deriving Inhabited

/-- Some tokens, each with the state of its recognizer. -/
abbrev Reading := List (Nat × Nat)

namespace Lexicon

/-- The lexicon of these lexemes, with these characters as blanks. -/
def ofLexemes (blanks : CharSet) (lexemes : Array Lexeme) : Lexicon :=
  let sets := blanks :: lexemes.toList.flatMap fun l => (classesOf l.pattern)
  let alphabet := Alphabet.ofSets sets
  { alphabet, lexemes, recognizers := lexemes.map (Recognizer.ofLexeme alphabet blanks) }
where
  /-- The character classes of a pattern. -/
  classesOf : Pattern → List CharSet
    | .empty => []
    | .char cls => [cls]
    | .seq a b | .alt a b => classesOf a ++ classesOf b
    | .many1 a => classesOf a

variable (lx : Lexicon)

/-- The recognizer of a token. -/
def recognizer (t : Nat) : Recognizer := lx.recognizers.getD t default

/-- The level of a token. -/
def level (t : Nat) : Nat := (lx.lexemes.getD t default).level

/-- Whether token `a` is preferred to token `b` where both are complete. -/
def prefers (a b : Nat) : Bool :=
  let la := lx.lexemes.getD a default
  let lb := lx.lexemes.getD b default
  la.level > lb.level ||
    la.level == lb.level && (la.specificity > lb.specificity ||
      la.specificity == lb.specificity && a < b)

/-- All of the given tokens at their start. -/
def start (tokens : List Nat) : Reading := tokens.map fun t => (t, 0)

/-- The reading after a character of class `k`. -/
def step (reading : Reading) (k : Nat) : Reading :=
  reading.filterMap fun (t, s) => ((lx.recognizer t).step? s k).map fun s' => (t, s')

/-- The token that is preferred among those complete in a reading. -/
def complete (reading : Reading) : Option Nat :=
  reading.foldl (fun best (t, s) =>
    if (lx.recognizer t).isAccepting s then
      match best with
      | some b => if lx.prefers b t then best else some t
      | none => some t
    else best) none

/-- Whether a blank may still come in a reading. -/
def admitsBlank (reading : Reading) : Bool :=
  reading.any fun (t, s) => (lx.recognizer t).admitsBlank.getD s false

/-- Whether all that a reading has read is blank. -/
def afterBlank (reading : Reading) : Bool :=
  reading.all fun (t, s) => (lx.recognizer t).afterBlank.getD s false

/-- The level at which a step led to a reading: the highest of its tokens that have begun. -/
def stepLevel (reading : Reading) : Nat :=
  reading.foldl (fun best (t, s) =>
    if (lx.recognizer t).afterBlank.getD s false then best else max best (lx.level t)) 0

/-- Whether to read on to `next` although token `done` is complete in `reading`. -/
def prefersLonger (reading : Reading) (done : Nat) (next : Reading) : Bool :=
  let l := lx.stepLevel next
  if l < lx.level done then false
  else if l == lx.level done then
    !lx.afterBlank next && (!lx.admitsBlank reading || next.any fun (t, _) => t == done)
  else true

end Lexicon

end Postmortem.Lexical
