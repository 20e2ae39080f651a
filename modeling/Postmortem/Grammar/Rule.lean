import Postmortem.Lexical.Recognizer

/-!
# Grammars

A grammar gives each rule a body: tokens and other rules in sequence, in choice and in repetition.
Parts of a body carry what the tree and the resolution of ambiguities need:

* a *level* and a *side*, which decide between ending a rule and reading on,
* a *weight*, which decides between whole readings of one text,
* a *rename*, under which the part appears in the tree,
* a *role*, under which the node above knows the part.

## Hidden rules

A rule whose name begins with an underscore, or that is a *group*, has no node of its own: its
parts stand in its place. An *inlined* rule is replaced by its alternatives wherever it is used.
-/

namespace Postmortem.Grammar

open Postmortem.Text Postmortem.Lexical

/-- Which operand groups first when operators of one level meet. -/
inductive Side where
  | left
  | right
deriving BEq, DecidableEq, Hashable, Repr, Inhabited

/-- A name under which a part of a rule appears in the tree. -/
structure Rename where
  name : String
  named : Bool
deriving BEq, DecidableEq, Hashable, Repr, Inhabited

/-- The body of a rule. -/
inductive Rule where
  /-- Nothing. -/
  | empty
  /-- A token. -/
  | token (l : Lexeme)
  /-- Another rule, or a token known by its name only. -/
  | ref (name : String)
  /-- One part and then another. -/
  | seq (first second : Rule)
  /-- One part or another. -/
  | alt (first second : Rule)
  /-- A part once or more. -/
  | many1 (body : Rule)
  /-- A part with a level and perhaps a side. -/
  | ranked (level : Int) (side : Option Side) (body : Rule)
  /-- A part with a weight. -/
  | weighted (weight : Int) (body : Rule)
  /-- A part that appears under another name. -/
  | renamed (as : Rename) (body : Rule)
  /-- A part in a role. -/
  | role (name : String) (body : Rule)
deriving BEq, Inhabited

namespace Rule

/-- The token written as this text. -/
def text (s : String) : Rule := token (.ofText s)

/-- Parts one after another. -/
def all : List Rule → Rule
  | [] => empty
  | [r] => r
  | r :: rs => seq r (all rs)

/-- Any one of several parts. -/
def any : List Rule → Rule
  | [] => empty
  | [r] => r
  | r :: rs => alt r (any rs)

/-- A part or nothing. -/
def opt (r : Rule) : Rule := alt r empty

/-- A part any number of times. -/
def many (r : Rule) : Rule := opt (many1 r)

/-- A part once or more, with separators between. -/
def sepBy1 (r sep : Rule) : Rule := seq r (many (seq sep r))

/-- A part once or more, with commas between. -/
def commas1 (r : Rule) : Rule := sepBy1 r (text ",")

/-- A part of a level, with uses of it on the left grouping first. -/
def leftAt (level : Int) (r : Rule) : Rule := ranked level (some .left) r

/-- A part of a level, with uses of it on the right grouping first. -/
def rightAt (level : Int) (r : Rule) : Rule := ranked level (some .right) r

/-- A part of a level. -/
def at_ (level : Int) (r : Rule) : Rule := ranked level none r

/-- A part that appears as a node of this name. -/
def as (r : Rule) (name : String) : Rule := renamed ⟨name, true⟩ r

/-- The tokens of a rule, in order, repetitions included. -/
def tokens : Rule → List Lexeme
  | empty | ref _ => []
  | token l => [l]
  | seq a b | alt a b => a.tokens ++ b.tokens
  | many1 a | ranked _ _ a | weighted _ a | renamed _ a | role _ a => a.tokens

/-- The repeated parts of a rule, inner ones first, repetitions included. -/
def repeated : Rule → List Rule
  | empty | ref _ | token _ => []
  | seq a b | alt a b => a.repeated ++ b.repeated
  | many1 a => a.repeated ++ [a]
  | ranked _ _ a | weighted _ a | renamed _ a | role _ a => a.repeated

end Rule

end Postmortem.Grammar

namespace Postmortem

open Postmortem.Text Postmortem.Lexical

/-- A grammar. Its first rule is the start. -/
structure Grammar where
  /-- The rules, by name. -/
  rules : List (String × Grammar.Rule)
  /-- The characters that may stand before a token without being one. -/
  blanks : CharSet
  /-- The names of the tokens that may stand anywhere. -/
  extras : List String
  /-- The tokens that the layout reader finds, or wants to know about: each is a token of the
  rules, or a name of its own. -/
  layout : List Grammar.Rule
  /-- The names of the rules that are replaced by their alternatives. -/
  inlined : List String
  /-- The names of the rules that only group others. -/
  groups : List String
  /-- The name of the token of which keywords are special cases. -/
  word : String
deriving Inhabited

end Postmortem
